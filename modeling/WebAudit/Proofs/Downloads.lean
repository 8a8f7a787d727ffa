import WebAudit.Dataset.Store
import WebAudit.Proofs.JsonEnds
import WebAudit.Proofs.Utf8

/-!
# Downloads that can be used

A download is of use if it is answered with the status 200 and its body is read as a JSON object. The
text that is read comes from the decoder of the answer. `Decoder.Trims` says what is known of a client
that takes bodies for UTF-8: blanks at the ends of a body are dropped, and a body of blanks stands for
null. With such a client a body is read as an object if and only if it spells the object, that is, if
it is the encoding of a JSON text of the object with blanks around it (`Decoder.Trims.reads_obj_iff`).
-/

namespace WebAudit.Dataset

/-- A blank at the ends of a body. -/
def isBodyBlank (c : Char) : Bool :=
  c == ' ' || ('\t' ≤ c && c ≤ '\r')

/-- A body without the blanks at its ends. -/
def stripBody (cs : List Char) : List Char :=
  ((cs.dropWhile isBodyBlank).reverse.dropWhile isBodyBlank).reverse

/-- A body is a JSON text of a value with blanks around it. -/
def Spells (body : List UInt8) (v : Json) : Prop :=
  ∃ before text after : List Char, (∀ c ∈ before, isBodyBlank c = true)
    ∧ (∀ c ∈ after, isBodyBlank c = true)
    ∧ body = Text.encode (String.ofList (before ++ (text ++ after)))
    ∧ Json.parse (String.ofList text) = .ok v

/-! ## Blanks at the ends -/

theorem isPadding_of_isBodyBlank {c : Char} (h : isBodyBlank c = true) : Json.isPadding c = true := by
  simp only [isBodyBlank, Bool.or_eq_true, beq_iff_eq, Bool.and_eq_true, decide_eq_true_eq] at h
  rcases h with rfl | ⟨-, h⟩
  · rfl
  · have hle : c.toNat ≤ 0x0D := h
    simp only [Json.isPadding, decide_eq_true_eq]
    omega

theorem not_isSpace_of_not_isBodyBlank {c : Char} (h : isBodyBlank c = false) :
    Json.isSpace c = false := by
  cases hs : Json.isSpace c with
  | false => rfl
  | true =>
    simp only [Json.isSpace, Bool.or_eq_true, beq_iff_eq, or_assoc] at hs
    rcases hs with rfl | rfl | rfl | rfl
    all_goals exact absurd h (by decide)

/-- A body is what is left of it with blanks around. -/
theorem stripBody_spec (cs : List Char) :
    ∃ before after, cs = before ++ (stripBody cs ++ after) ∧ (∀ c ∈ before, isBodyBlank c = true)
      ∧ (∀ c ∈ after, isBodyBlank c = true)
      ∧ ∀ c ∈ (stripBody cs).head?, isBodyBlank c = false := by
  have hsplit : cs.dropWhile isBodyBlank
      = stripBody cs ++ ((cs.dropWhile isBodyBlank).reverse.takeWhile isBodyBlank).reverse := by
    rw [stripBody, ← List.reverse_append, List.takeWhile_append_dropWhile, List.reverse_reverse]
  refine ⟨cs.takeWhile isBodyBlank,
    ((cs.dropWhile isBodyBlank).reverse.takeWhile isBodyBlank).reverse, ?_, ?_, ?_, ?_⟩
  · rw [← hsplit, List.takeWhile_append_dropWhile]
  · exact List.all_eq_true.mp List.all_takeWhile
  · intro c hc
    exact (List.all_eq_true.mp List.all_takeWhile) c (List.mem_reverse.mp hc)
  · intro c hc
    have hhead := List.head?_dropWhile_not isBodyBlank cs
    obtain ⟨r, hr⟩ := List.head?_eq_some_iff.mp hc
    rw [hsplit, hr] at hhead
    exact hhead

theorem stripBody_padded {before text after : List Char} (hbefore : ∀ c ∈ before, isBodyBlank c = true)
    (hafter : ∀ c ∈ after, isBodyBlank c = true) :
    stripBody (before ++ (text ++ after)) = stripBody text := by
  have hreverse : ∀ c ∈ after.reverse, isBodyBlank c = true :=
    fun c hc => hafter c (List.mem_reverse.mp hc)
  unfold stripBody
  rw [List.dropWhile_append_of_pos hbefore, List.dropWhile_append]
  split
  · next hempty =>
    rw [List.isEmpty_iff.mp hempty, List.dropWhile_eq_nil_iff.mpr hafter]
  · rw [List.reverse_append, List.dropWhile_append_of_pos hreverse]

/-- A body spells what is read from it without the blanks at its ends. -/
theorem spells_iff {body : List UInt8} {v : Json} :
    Spells body v ↔ ∃ cs, Text.decode? body = some cs
      ∧ Json.parse (String.ofList (stripBody cs)) = .ok v := by
  constructor
  · rintro ⟨before, text, after, hbefore, hafter, rfl, hparse⟩
    refine ⟨before ++ (text ++ after), Text.decode?_eq_some_iff.mpr rfl, ?_⟩
    rw [stripBody_padded hbefore hafter]
    obtain ⟨before', after', htext, hbefore', hafter', hhead⟩ := stripBody_spec text
    rw [htext] at hparse
    exact Json.parse_of_padded (fun c hc => isPadding_of_isBodyBlank (hbefore' c hc))
      (fun c hc => isPadding_of_isBodyBlank (hafter' c hc))
      (fun c hc => not_isSpace_of_not_isBodyBlank (hhead c hc)) hparse
  · rintro ⟨cs, hdecode, hparse⟩
    obtain ⟨before, after, hcs, hbefore, hafter, -⟩ := stripBody_spec cs
    exact ⟨before, stripBody cs, after, hbefore, hafter,
      by rw [← hcs]; exact Text.decode?_eq_some_iff.mp hdecode, hparse⟩

theorem spells_encode {text : String} {v : Json}
    (h : Json.parse (String.ofList (stripBody text.toList)) = .ok v) : Spells (Text.encode text) v :=
  spells_iff.mpr ⟨text.toList, Text.decode?_encode text, h⟩

theorem Spells.unique {body : List UInt8} {v v' : Json} (h : Spells body v) (h' : Spells body v') :
    v = v' := by
  obtain ⟨cs, hdecode, hparse⟩ := spells_iff.mp h
  obtain ⟨cs', hdecode', hparse'⟩ := spells_iff.mp h'
  obtain rfl := Option.some.inj (hdecode.symm.trans hdecode')
  exact Except.ok.inj (hparse.symm.trans hparse')

/-- A blank body spells nothing. -/
theorem not_spells_of_blank {body : List UInt8} {cs : List Char} (hbody : Text.decode? body = some cs)
    (hblank : stripBody cs = []) (v : Json) : ¬ Spells body v := by
  rw [spells_iff]
  rintro ⟨cs', hbody', hparse⟩
  obtain rfl := Option.some.inj (hbody.symm.trans hbody')
  rw [hblank, Json.parse_eq_ok_iff] at hparse
  obtain ⟨-, u, hvalue, -⟩ := hparse
  obtain ⟨c, r, hcons, -⟩ := Json.head_of_value_ok hvalue
  simp [Json.skip] at hcons

/-! ## Decoders -/

namespace Decoder

/-- A body is read as a value. -/
def Reads (decode : Decoder) (body : List UInt8) (v : Json) : Prop :=
  ∃ text, decode body = some text ∧ Json.parse text = .ok v

/-- What is known of a client that takes bodies for UTF-8. Other bytes cannot be decoded; the blanks at
the ends of a body are dropped, and a body of blanks is taken for null. -/
structure Trims (decode : Decoder) : Prop where
  broken : ∀ body, Text.decode? body = none → decode body = none
  blank : ∀ body cs, Text.decode? body = some cs → stripBody cs = [] → decode body = some "null"
  text : ∀ body cs, Text.decode? body = some cs → stripBody cs ≠ [] →
    decode body = some (String.ofList (stripBody cs))

/-- A decoder that takes bodies for UTF-8. -/
def trimming : Decoder := fun body =>
  (Text.decode? body).map fun cs =>
    if stripBody cs = [] then "null" else String.ofList (stripBody cs)

theorem trims_trimming : trimming.Trims where
  broken body h := by rw [trimming, h, Option.map_none]
  blank body cs h hcs := by rw [trimming, h, Option.map_some, if_pos hcs]
  text body cs h hcs := by rw [trimming, h, Option.map_some, if_neg hcs]

variable {decode : Decoder} {body : List UInt8} {v w : Json}

theorem Reads.unique (h : decode.Reads body v) (h' : decode.Reads body w) : v = w := by
  obtain ⟨text, htext, hparse⟩ := h
  obtain ⟨text', htext', hparse'⟩ := h'
  obtain rfl := Option.some.inj (htext.symm.trans htext')
  exact Except.ok.inj (hparse.symm.trans hparse')

theorem Reads.wellFormed (h : decode.Reads body v) : v.WellFormed := by
  obtain ⟨_, -, hparse⟩ := h
  exact Json.wellFormed_of_parse hparse

theorem parse_null : Json.parse "null" = .ok .null := by
  simp only [Json.parse, String.reduceToList]
  rfl

/-- A body is read as the value that it spells, or as null if it is blank. -/
theorem Trims.reads_iff (h : decode.Trims) :
    decode.Reads body v ↔ Spells body v
      ∨ (v = .null ∧ ∃ cs, Text.decode? body = some cs ∧ stripBody cs = []) := by
  cases hbody : Text.decode? body with
  | none => simp [Reads, h.broken body hbody, spells_iff, hbody]
  | some cs =>
    by_cases hblank : stripBody cs = []
    · rw [or_iff_right (not_spells_of_blank hbody hblank v), Reads, h.blank body cs hbody hblank]
      constructor
      · rintro ⟨text, htext, hparse⟩
        rw [← Option.some.inj htext, parse_null] at hparse
        exact ⟨(Except.ok.inj hparse).symm, cs, rfl, hblank⟩
      · rintro ⟨rfl, -⟩
        exact ⟨_, rfl, parse_null⟩
    · simp [Reads, h.text body cs hbody hblank, spells_iff, hbody, hblank]

/-- **A body is read as an object if and only if it spells the object.** -/
theorem Trims.reads_obj_iff (h : decode.Trims) {fs : Json.Fields} :
    decode.Reads body (.obj fs) ↔ Spells body (.obj fs) := by
  simp [h.reads_iff]

end Decoder

/-! ## Payloads -/

/-- The payload is the object that the body is read as. -/
theorem payload_eq_ok_iff {d : Download} {payload : Json} :
    d.payload = .ok payload ↔ ∃ body decode fs, d = .answered 200 body decode
      ∧ decode.Reads body (.obj fs) ∧ payload = .obj fs := by
  constructor
  · intro h
    cases d with
    | failed => cases h
    | answered status body decode =>
      rw [Download.payload] at h
      split at h
      · cases h
      next hstatus =>
      obtain rfl : status = 200 := by simpa using hstatus
      split at h
      · cases h
      next text htext =>
      split at h
      · cases h
      · next fs hparse =>
        exact ⟨body, decode, fs, rfl, ⟨text, htext, hparse⟩, (Except.ok.inj h).symm⟩
      · cases h
  · rintro ⟨body, decode, fs, rfl, ⟨text, htext, hparse⟩, rfl⟩
    simp [Download.payload, htext, hparse]

end WebAudit.Dataset
