/-!
# UTF-8

Reading text from bytes, strictly or leniently: strict reading fails on bytes that are no UTF-8,
lenient reading drops them. Both take one character or drop one byte at a time. Text files are read
with `unifyLineEnds`, after which every line ends with a line feed.
-/

namespace WebAudit.Text

/-- The bits of a continuation byte. -/
def continuation? (b : UInt8) : Option Nat :=
  if 0x80 ≤ b && b ≤ 0xBF then some (b.toNat - 0x80) else none

/-- The character of a code point that needs at least `least`; no surrogate has one. -/
def codePoint? (least n : Nat) : Option Char :=
  if least ≤ n && n < 0x110000 && !(0xD800 ≤ n && n < 0xE000) then some (Char.ofNat n) else none

/-- The character at the start of some bytes and what follows it. -/
def firstChar? : List UInt8 → Option (Char × List UInt8)
  | [] => none
  | a :: r =>
    if a < 0x80 then some (Char.ofNat a.toNat, r)
    else if 0xC0 ≤ a && a < 0xE0 then
      match r with
      | b :: r => do
        let x ← continuation? b
        let c ← codePoint? 0x80 ((a.toNat - 0xC0) * 0x40 + x)
        some (c, r)
      | _ => none
    else if 0xE0 ≤ a && a < 0xF0 then
      match r with
      | b :: c :: r => do
        let x ← continuation? b
        let y ← continuation? c
        let c ← codePoint? 0x800 (((a.toNat - 0xE0) * 0x40 + x) * 0x40 + y)
        some (c, r)
      | _ => none
    else if 0xF0 ≤ a && a < 0xF8 then
      match r with
      | b :: c :: d :: r => do
        let x ← continuation? b
        let y ← continuation? c
        let z ← continuation? d
        let c ← codePoint? 0x10000 ((((a.toNat - 0xF0) * 0x40 + x) * 0x40 + y) * 0x40 + z)
        some (c, r)
      | _ => none
    else none

theorem length_of_firstChar? {bs r : List UInt8} {c : Char} (h : firstChar? bs = some (c, r)) :
    r.length < bs.length := by
  unfold firstChar? at h
  split at h
  · simp at h
  · split at h
    · simp only [Option.some.injEq, Prod.mk.injEq] at h
      simp [h.2]
    · split at h
      · split at h
        · simp only [Option.bind_eq_bind, Option.bind_eq_some_iff, Option.some.injEq,
            Prod.mk.injEq] at h
          obtain ⟨_, _, _, _, _, rfl⟩ := h
          simp only [List.length_cons]; omega
        · simp at h
      · split at h
        · split at h
          · simp only [Option.bind_eq_bind, Option.bind_eq_some_iff, Option.some.injEq,
              Prod.mk.injEq] at h
            obtain ⟨_, _, _, _, _, _, _, rfl⟩ := h
            simp only [List.length_cons]; omega
          · simp at h
        · split at h
          · split at h
            · simp only [Option.bind_eq_bind, Option.bind_eq_some_iff, Option.some.injEq,
                Prod.mk.injEq] at h
              obtain ⟨_, _, _, _, _, _, _, _, _, rfl⟩ := h
              simp only [List.length_cons]; omega
            · simp at h
          · simp at h

/-- The text of bytes that are UTF-8 throughout. `read` is the text so far, latest first. -/
def decodeFrom? (read : List Char) (bs : List UInt8) : Option (List Char) :=
  match bs with
  | [] => some read.reverse
  | b :: r =>
    match _h : firstChar? (b :: r) with
    | some (c, r') => decodeFrom? (c :: read) r'
    | none => none
termination_by bs.length
decreasing_by exact length_of_firstChar? ‹_›

/-- The text of bytes that are UTF-8 throughout. -/
def decode? (bs : List UInt8) : Option (List Char) :=
  decodeFrom? [] bs

/-- The text of those bytes that are UTF-8. `read` is the text so far, latest first. -/
def decodeLenientFrom (read : List Char) (bs : List UInt8) : List Char :=
  match bs with
  | [] => read.reverse
  | b :: r =>
    match _h : firstChar? (b :: r) with
    | some (c, r') => decodeLenientFrom (c :: read) r'
    | none => decodeLenientFrom read r
termination_by bs.length
decreasing_by
  · exact length_of_firstChar? ‹_›
  · simp

/-- The text of those bytes that are UTF-8; the others are dropped. -/
def decodeLenient (bs : List UInt8) : List Char :=
  decodeLenientFrom [] bs

/-- The bytes of a text. -/
def encode (s : String) : List UInt8 :=
  s.toUTF8.toList

/-- A text with all its line ends turned into line feeds. -/
def unifyLineEnds : List Char → List Char
  | [] => []
  | '\r' :: '\n' :: r => '\n' :: unifyLineEnds r
  | c :: r => (if c == '\r' then '\n' else c) :: unifyLineEnds r

end WebAudit.Text
