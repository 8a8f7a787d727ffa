import WebAudit.Json.Basic
import WebAudit.Json.Reader
import WebAudit.Text.Utf8

/-!
# Requests and responses

Messages between a client and the service. The path of a request is percent-encoded; a response has
a JSON value or plain text.
-/

namespace WebAudit.Service

/-- A request. -/
structure Request where
  method : String
  /-- The path, percent-encoded. -/
  path : String
  query : List (String × String) := []
  /-- The body, taken for JSON. -/
  body : String := ""
deriving DecidableEq, Repr

/-- What a response has in it. -/
inductive Content where
  | json (v : Json)
  | text (s : String)

/-- A response. -/
structure Response where
  status : Nat
  content : Content

/-! ## Paths -/

/-- The bytes of a percent-encoded text. A percent sign without two digits stands for itself. -/
def percentBytes : List UInt8 → List UInt8
  | [] => []
  | [b] => [b]
  | [b, c] => [b, c]
  | b :: c :: d :: r =>
    match Json.hexValue? (Char.ofNat c.toNat), Json.hexValue? (Char.ofNat d.toNat) with
    | some x, some y =>
      if b == 0x25 then (x * 16 + y).toUInt8 :: percentBytes r else b :: percentBytes (c :: d :: r)
    | _, _ => b :: percentBytes (c :: d :: r)

/-- Whether a byte can follow the first byte of a character. -/
def canFollow (first second : UInt8) : Bool :=
  (if first == 0xE0 then 0xA0 else if first == 0xF0 then 0x90 else 0x80) ≤ second
    && second ≤ (if first == 0xED then 0x9F else if first == 0xF4 then 0x8F else 0xBF)

/-- What is left of bytes that start with no character: the longest start of one is taken away, or
else a single byte. -/
def afterBroken : List UInt8 → List UInt8
  | [] => []
  | [_] => []
  | a :: b :: r =>
    if 0xE0 ≤ a && a ≤ 0xF4 && canFollow a b then
      match r with
      | c :: r' => if 0xF0 ≤ a && canFollow 0x80 c then r' else c :: r'
      | [] => []
    else b :: r

theorem length_afterBroken (b : UInt8) (r : List UInt8) :
    (afterBroken (b :: r)).length < (b :: r).length := by
  unfold afterBroken
  split
  · simp
  · simp
  · simp_all only [List.cons.injEq]
    split
    · split
      · split
        · simp; omega
        · simp
      · simp
    · simp

/-- The text of bytes, with a mark in place of bytes that are no text. -/
def markedText (bs : List UInt8) : List Char :=
  match bs with
  | [] => []
  | b :: r =>
    match _h : Text.firstChar? (b :: r) with
    | some (c, r') => c :: markedText r'
    | none => '\ufffd' :: markedText (afterBroken (b :: r))
termination_by bs.length
decreasing_by
  · exact Text.length_of_firstChar? ‹_›
  · exact length_afterBroken b r

/-- The text that a percent-encoded text stands for. -/
def percentDecode (s : String) : String :=
  String.ofList (markedText (percentBytes (Text.encode s)))

/-! ## Writing responses -/

/-- The message for a service that broke down. -/
def brokenDown : Response :=
  ⟨500, .text "Internal Server Error"⟩

mutual

/-- Whether all numbers in a value are finite. -/
def isFinite : Json → Bool
  | .float (.finite _ _ _) => true
  | .float _ => false
  | .arr xs => areFinite xs
  | .obj fs => areFieldsFinite fs
  | _ => true

def areFinite : List Json → Bool
  | [] => true
  | x :: xs => isFinite x && areFinite xs

def areFieldsFinite : List (String × Json) → Bool
  | [] => true
  | (_, v) :: fs => isFinite v && areFieldsFinite fs

end

/-- A response with a JSON value, which can only be written if its numbers are finite. -/
def respond (status : Nat) (v : Json) : Response :=
  if isFinite v then ⟨status, .json v⟩ else brokenDown

/-- A response that says what is wrong. -/
def detail (status : Nat) (v : Json) : Response :=
  respond status (.obj [("detail", v)])

/-- A response that says in words what is wrong. -/
def complaint (status : Nat) (words : String) : Response :=
  detail status (.str words)

end WebAudit.Service
