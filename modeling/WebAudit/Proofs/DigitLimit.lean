import WebAudit.Json.Bytes
import WebAudit.Proofs.JsonTokens
import WebAudit.Proofs.Utf8

/-!
# Texts without numbers that are too long

A file whose bytes are text can be read, as JSON or as something else, unless a whole number in it has
more digits than are read (`Legible`); `Breaks` says why any other file cannot be read. A text in
which no run of digits is that long holds no such number (`ShortRuns.legible`): whatever a reader
hands on is an end of the text, so its runs of digits are runs of the text.
-/

namespace WebAudit.Json

/-- No run of digits is longer than a whole number may be. -/
def ShortRuns (cs : List Char) : Prop :=
  ∀ ds, ds <:+: cs → (∀ c ∈ ds, c.isDigit = true) → ds.length ≤ digitLimit

theorem ShortRuns.of_suffix {cs r : List Char} (h : ShortRuns cs) (hr : r <:+ cs) : ShortRuns r :=
  fun ds hds => h ds (hds.trans hr.isInfix)

/-! ## What is left of a text -/

theorem skip_suffix (cs : List Char) : skip cs <:+ cs :=
  List.dropWhile_suffix _

theorem suffix_of_skip {c : Char} {cs u : List Char} (h : skip cs = c :: u) : u <:+ cs := by
  have hu : c :: u <:+ cs := h ▸ skip_suffix cs
  exact (List.suffix_cons c u).trans hu

theorem suffix_of_string {start fuel : Nat} {cs s u : List Char}
    (h : string start fuel cs = .ok (s, u)) : u <:+ cs := by
  induction fuel generalizing cs s with
  | zero => cases h
  | succ fuel ih =>
    cases cs with
    | nil => cases h
    | cons c r =>
      rw [string] at h
      split at h
      · obtain ⟨-, rfl⟩ := Prod.mk.inj (Except.ok.inj h)
        exact List.suffix_cons c r
      split at h
      · split at h
        · cases h
        next n _ =>
        split at h
        · cases h
        next hs =>
        obtain ⟨-, rfl⟩ := Prod.mk.inj (Except.ok.inj h)
        exact ((ih hs).trans (List.drop_suffix n r)).trans (List.suffix_cons c r)
      split at h
      · cases h
      split at h
      · cases h
      next hs =>
      obtain ⟨-, rfl⟩ := Prod.mk.inj (Except.ok.inj h)
      exact (ih hs).trans (List.suffix_cons c r)

/-- Readers leave an end of their text. -/
theorem suffix_of_readers (fuel : Nat) :
    (∀ cs v u, value fuel cs = .ok (v, u) → u <:+ cs)
      ∧ (∀ cs xs u, items fuel cs = .ok (xs, u) → u <:+ cs)
      ∧ ∀ fs cs gs u, members fuel fs cs = .ok (gs, u) → u <:+ cs := by
  induction fuel with
  | zero =>
    refine ⟨fun cs v u h => ?_, fun cs xs u h => ?_, fun fs cs gs u h => ?_⟩
    all_goals cases h
  | succ fuel ih =>
    obtain ⟨hvalue, hitems, hmembers⟩ := ih
    have hmember : ∀ {cs k v u}, MemberAt fuel cs k v u → u <:+ cs := by
      rintro cs k v u ⟨hs, hcolon, hv⟩
      have hr := (suffix_of_skip hcolon).trans (suffix_of_string hs)
      exact (((hvalue _ _ _ hv).trans (skip_suffix _)).trans hr).trans (List.suffix_cons _ _)
    refine ⟨fun cs v u h => ?_, fun cs xs u h => ?_, fun fs cs gs u h => ?_⟩
    · cases ValueStep.of_value h with
      | word _ => exact List.suffix_append _ _
      | text hs => exact (suffix_of_string hs).trans (List.suffix_cons _ _)
      | emptyList hskip => exact (suffix_of_skip hskip).trans (List.suffix_cons _ _)
      | list hxs => exact ((hitems _ _ _ hxs).trans (skip_suffix _)).trans (List.suffix_cons _ _)
      | emptyObject hskip => exact (suffix_of_skip hskip).trans (List.suffix_cons _ _)
      | object hfs => exact ((hmembers _ _ _ _ hfs).trans (skip_suffix _)).trans (List.suffix_cons _ _)
      | negative hn =>
        exact ((suffix_of_number hn).2.trans (List.drop_suffix _ _)).trans (List.suffix_cons _ _)
      | positive hn => exact (suffix_of_number hn).2.trans (List.drop_suffix _ _)
    · cases ItemsStep.of_items h with
      | last hx hskip => exact (suffix_of_skip hskip).trans (hvalue _ _ _ hx)
      | next hx hskip hxs =>
        have hr := (suffix_of_skip hskip).trans (hvalue _ _ _ hx)
        exact ((hitems _ _ _ hxs).trans (skip_suffix _)).trans hr
    · cases MembersStep.of_members h with
      | last hm hskip => exact (suffix_of_skip hskip).trans (hmember hm)
      | next hm hskip hgs =>
        have hr := (suffix_of_skip hskip).trans (hmember hm)
        exact ((hmembers _ _ _ _ hgs).trans (skip_suffix _)).trans hr

/-! ## Faults -/

/-- A fault that is no number that is too long. -/
def Fault.Other (e : Fault) : Prop :=
  ∀ text, (e.toError text).isDigitLimit = false

theorem other_of_pairFrom {high : Nat} {cs : List Char} {e : Fault}
    (h : pairFrom high cs = .error e) : e.Other := by
  rw [pairFrom.eq_def] at h
  split at h
  · split at h
    · cases h
    split at h
    · cases h
      exact fun _ => rfl
    · split at h <;> cases h
  · cases h

theorem other_of_escape {start : Nat} {cs : List Char} {e : Fault} (h : escape start cs = .error e) :
    e.Other := by
  rw [escape.eq_def] at h
  split at h
  · cases h
    exact fun _ => rfl
  · split at h
    · cases h
      exact fun _ => rfl
    · split at h
      · exact other_of_pairFrom h
      · cases h
  · split at h
    · cases h
    · cases h
      exact fun _ => rfl

theorem other_of_string {start fuel : Nat} {cs : List Char} {e : Fault}
    (h : string start fuel cs = .error e) : e.Other := by
  induction fuel generalizing cs with
  | zero =>
    cases h
    exact fun _ => rfl
  | succ fuel ih =>
    cases cs with
    | nil =>
      cases h
      exact fun _ => rfl
    | cons c r =>
      rw [string] at h
      split at h
      · cases h
      split at h
      · split at h
        · next he =>
          cases h
          exact other_of_escape he
        · split at h
          · next he =>
            cases h
            exact ih he
          · cases h
      split at h
      · cases h
        exact fun _ => rfl
      split at h
      · next he =>
        cases h
        exact ih he
      · cases h

theorem leading_isPrefix (cs : List Char) : leading cs <+: cs := by
  unfold leading
  split
  · exact ⟨_, rfl⟩
  · exact List.takeWhile_prefix _

theorem other_of_number {negative : Bool} {cs : List Char} {e : Fault} (hcs : ShortRuns cs)
    (h : number negative cs = .error e) : e.Other := by
  have hlength : (leading cs).length ≤ digitLimit :=
    hcs (leading cs) (leading_isPrefix cs).isInfix fun c hc => isDigit_of_mem_leading hc
  unfold number at h
  dsimp only at h
  split at h
  · cases h
    exact fun _ => rfl
  split at h
  · cases h
  next cause hcause =>
  rw [numeral.eq_def] at hcause
  split at hcause
  · rw [if_neg (Nat.not_lt.mpr hlength)] at hcause
    cases hcause
  · cases hcause

/-- In a text with short runs of digits no reader meets a number that is too long. -/
theorem other_of_readers (fuel : Nat) :
    (∀ cs e, ShortRuns cs → value fuel cs = .error e → e.Other)
      ∧ (∀ cs e, ShortRuns cs → items fuel cs = .error e → e.Other)
      ∧ ∀ fs cs e, ShortRuns cs → members fuel fs cs = .error e → e.Other := by
  induction fuel with
  | zero =>
    refine ⟨fun cs e _ h => ?_, fun cs e _ h => ?_, fun fs cs e _ h => ?_⟩
    all_goals
      cases h
      exact fun _ => rfl
  | succ fuel ih =>
    obtain ⟨hvalue, hitems, hmembers⟩ := ih
    -- where a value ends the next reader starts, on an end of the same text
    obtain ⟨hvalueEnd, -, -⟩ := suffix_of_readers fuel
    refine ⟨fun cs e hcs h => ?_, fun cs e hcs h => ?_, fun fs cs e hcs h => ?_⟩
    · rw [value.eq_def] at h
      dsimp only at h
      split at h
      · cases h
      split at h
      · cases h
        exact fun _ => rfl
      · split at h
        · next he =>
          cases h
          exact other_of_string he
        · cases h
      · split at h
        · cases h
        · split at h
          · next he =>
            cases h
            have hr := hcs.of_suffix ((skip_suffix _).trans (List.suffix_cons _ _))
            exact hitems _ _ hr he
          · cases h
      · split at h
        · cases h
        · split at h
          · next he =>
            cases h
            have hr := hcs.of_suffix ((skip_suffix _).trans (List.suffix_cons _ _))
            exact hmembers _ _ _ hr he
          · cases h
      · exact other_of_number (hcs.of_suffix (List.suffix_cons _ _)) h
      · exact other_of_number hcs h
    · rw [items] at h
      split at h
      · next he =>
        cases h
        exact hvalue _ _ hcs he
      next hx =>
      have hr := hcs.of_suffix (hvalueEnd _ _ _ hx)
      split at h
      · cases h
      · next hskip =>
        split at h
        · next he =>
          cases h
          exact hitems _ _ (hr.of_suffix ((skip_suffix _).trans (suffix_of_skip hskip))) he
        · cases h
      · cases h
        exact fun _ => rfl
    · rw [members.eq_def] at h
      dsimp only at h
      split at h
      · split at h
        · next he =>
          cases h
          exact other_of_string he
        next hs =>
        have hr := hcs.of_suffix ((suffix_of_string hs).trans (List.suffix_cons _ _))
        split at h
        · next hcolon =>
          have hr := hr.of_suffix ((skip_suffix _).trans (suffix_of_skip hcolon))
          split at h
          · next he =>
            cases h
            exact hvalue _ _ hr he
          next hv =>
          have hr := hr.of_suffix (hvalueEnd _ _ _ hv)
          split at h
          · cases h
          · next hskip =>
            exact hmembers _ _ _ (hr.of_suffix ((skip_suffix _).trans (suffix_of_skip hskip))) h
          · cases h
            exact fun _ => rfl
        · cases h
          exact fun _ => rfl
      · cases h
        exact fun _ => rfl

theorem isDigitLimit_of_parse {s : String} {e : Error} (hs : ShortRuns s.toList)
    (h : parse s = .error e) : e.isDigitLimit = false := by
  rw [parse, parseList] at h
  split at h
  · cases h
    rfl
  cases hv : value (2 * s.toList.length + 2) (skip s.toList) with
  | error f =>
    simp only [parseUnmarked, hv] at h
    cases h
    exact (other_of_readers _).1 _ _ (hs.of_suffix (skip_suffix _)) hv _
  | ok p =>
    simp only [parseUnmarked, hv] at h
    split at h
    · cases h
    · cases h
      rfl

/-! ## Files -/

theorem prefix_of_unifyLineEnds {ds cs : List Char} (hds : ∀ c ∈ ds, c.isDigit = true)
    (h : ds <+: Text.unifyLineEnds cs) : ds <+: cs := by
  induction ds generalizing cs with
  | nil => exact List.nil_prefix
  | cons d ds ih =>
    obtain ⟨hd, hds⟩ := List.forall_mem_cons.mp hds
    rw [Text.unifyLineEnds.eq_def] at h
    split at h
    · cases List.prefix_nil.mp h
    · obtain ⟨rfl, -⟩ := List.cons_prefix_cons.mp h
      cases hd
    · next c r _ =>
      obtain ⟨hc, h⟩ := List.cons_prefix_cons.mp h
      split at hc
      · rw [hc] at hd
        cases hd
      · rw [hc]
        exact List.cons_prefix_cons.mpr ⟨rfl, ih hds h⟩

theorem exists_suffix_of_unifyLineEnds {t cs : List Char} (h : t <:+ Text.unifyLineEnds cs) :
    ∃ r, r <:+ cs ∧ t = Text.unifyLineEnds r := by
  fun_induction Text.unifyLineEnds cs with
  | case1 => exact ⟨[], List.suffix_rfl, List.suffix_nil.mp h⟩
  | case2 r ih =>
    obtain rfl | h := List.suffix_cons_iff.mp h
    · exact ⟨_, List.suffix_rfl, by rw [Text.unifyLineEnds]⟩
    · obtain ⟨s, hs, rfl⟩ := ih h
      exact ⟨s, (hs.trans (List.suffix_cons _ _)).trans (List.suffix_cons _ _), rfl⟩
  | case3 c r hr ih =>
    obtain rfl | h := List.suffix_cons_iff.mp h
    · exact ⟨c :: r, List.suffix_rfl, by rw [Text.unifyLineEnds]; exact hr⟩
    · obtain ⟨s, hs, rfl⟩ := ih h
      exact ⟨s, hs.trans (List.suffix_cons _ _), rfl⟩

/-- Line ends are no digits, so a text has the same runs of digits whatever they are. -/
theorem ShortRuns.unifyLineEnds {cs : List Char} (h : ShortRuns cs) :
    ShortRuns (Text.unifyLineEnds cs) := by
  intro ds hinfix hds
  refine h ds ?_ hds
  obtain ⟨t, hprefix, hsuffix⟩ := List.infix_iff_prefix_suffix.mp hinfix
  obtain ⟨r, hr, rfl⟩ := exists_suffix_of_unifyLineEnds hsuffix
  exact (prefix_of_unifyLineEnds hds hprefix).isInfix.trans hr.isInfix

/-- Bytes that are text, and in which reading comes on no whole number that is too long. -/
def Legible (bytes : List UInt8) : Prop :=
  ∃ text : String, bytes = Text.encode text
    ∧ ∀ e, parse (String.ofList (Text.unifyLineEnds text.toList)) = .error e → e.isDigitLimit = false

theorem Legible.exists_ofBytes {bytes : List UInt8} (h : Legible bytes) :
    ∃ r, ofBytes bytes = .ok r := by
  obtain ⟨text, rfl, hlimit⟩ := h
  rw [ofBytes, Text.decode?_encode]
  dsimp only
  split
  · exact ⟨_, rfl⟩
  · next e he =>
    rw [hlimit e he]
    exact ⟨_, rfl⟩

/-- Why bytes cannot be read: they are no text, or they are text in which reading comes on a whole
number that is too long. -/
inductive Breaks (bytes : List UInt8) : Unreadable → Prop where
  | notText (h : ∀ text : String, bytes ≠ Text.encode text) : Breaks bytes .notText
  | tooManyDigits {text : String} {e : Error} (hbytes : bytes = Text.encode text)
      (he : parse (String.ofList (Text.unifyLineEnds text.toList)) = .error e)
      (hlimit : e.isDigitLimit = true) : Breaks bytes (.tooManyDigits e)

theorem decode?_eq_none_iff {bytes : List UInt8} :
    Text.decode? bytes = none ↔ ∀ text : String, bytes ≠ Text.encode text := by
  rw [Option.eq_none_iff_forall_ne_some]
  constructor
  · rintro h text rfl
    exact h _ (Text.decode?_encode text)
  · intro h cs hcs
    exact h _ (Text.decode?_eq_some_iff.mp hcs)

/-- Bytes cannot be read just for one of these reasons. -/
theorem ofBytes_eq_error_iff {bytes : List UInt8} {u : Unreadable} :
    ofBytes bytes = .error u ↔ Breaks bytes u := by
  constructor
  · intro h
    rw [ofBytes] at h
    split at h
    next hnone =>
      cases h
      exact .notText (decode?_eq_none_iff.mp hnone)
    next cs hcs =>
      split at h
      · cases h
      next e he =>
      split at h
      next hlimit =>
        cases h
        refine .tooManyDigits (Text.decode?_eq_some_iff.mp hcs) ?_ hlimit
        rwa [String.toList_ofList]
      · cases h
  · intro h
    cases h with
    | notText h => rw [ofBytes, decode?_eq_none_iff.mpr h]
    | tooManyDigits hbytes he hlimit =>
      rw [hbytes, ofBytes, Text.decode?_encode]
      simp only [he, hlimit, if_true]

theorem legible_iff {bytes : List UInt8} : Legible bytes ↔ ∀ u, ¬ Breaks bytes u := by
  constructor
  · intro h u hu
    obtain ⟨r, hr⟩ := h.exists_ofBytes
    rw [ofBytes_eq_error_iff.mpr hu] at hr
    cases hr
  · intro h
    cases hdecode : Text.decode? bytes with
    | none => exact absurd (.notText (decode?_eq_none_iff.mp hdecode)) (h _)
    | some cs =>
      have hbytes := Text.decode?_eq_some_iff.mp hdecode
      refine ⟨String.ofList cs, hbytes, fun e he => ?_⟩
      cases hlimit : e.isDigitLimit with
      | false => rfl
      | true => exact absurd (.tooManyDigits hbytes he hlimit) (h _)

theorem legible_or_breaks (bytes : List UInt8) : Legible bytes ∨ ∃ u, Breaks bytes u := by
  cases h : ofBytes bytes with
  | error u => exact .inr ⟨u, ofBytes_eq_error_iff.mp h⟩
  | ok r =>
    refine .inl (legible_iff.mpr fun u hu => ?_)
    rw [ofBytes_eq_error_iff.mpr hu] at h
    cases h

theorem ShortRuns.legible {text : String} (h : ShortRuns text.toList) : Legible (Text.encode text) := by
  refine ⟨text, rfl, fun e he => isDigitLimit_of_parse ?_ he⟩
  rw [String.toList_ofList]
  exact h.unifyLineEnds

theorem shortRuns_of_length {cs : List Char} (h : cs.length ≤ digitLimit) : ShortRuns cs :=
  fun _ hds _ => Nat.le_trans hds.length_le h

end WebAudit.Json
