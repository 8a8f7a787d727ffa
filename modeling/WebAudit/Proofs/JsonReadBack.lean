import WebAudit.Json.Bytes
import WebAudit.Proofs.JsonTokens
import WebAudit.Proofs.Utf8

/-!
# What is written is read back

`compact` and `parse` are inverse: a well-formed value is read back from its text, and from the bytes
of a file that holds the text. Floating point numbers are read back as far as their own texts are
(`Survives`). The bound that the reader carries is enough, because it is taken from the length of the
text.
-/

namespace WebAudit.Json

/-! ## Values -/

/-- A floating point number that stands somewhere in a value. -/
inductive HasFloat (x : Double) : Json → Prop where
  | float : HasFloat x (.float x)
  | item {v : Json} {xs : List Json} : v ∈ xs → HasFloat x v → HasFloat x (.arr xs)
  | field {f : String × Json} {fs : Fields} : f ∈ fs → HasFloat x f.2 → HasFloat x (.obj fs)

theorem hasFloat_obj_iff {x : Double} {fs : Fields} :
    HasFloat x (.obj fs) ↔ ∃ f ∈ fs, HasFloat x f.2 := by
  constructor
  · intro h
    cases h with
    | field hf hx => exact ⟨_, hf, hx⟩
  · rintro ⟨f, hf, hx⟩
    exact .field hf hx

/-- A floating point number is read back from its own text. -/
def Survives (x : Double) : Prop :=
  parse (floatText x) = .ok (.float x)

section

variable {fuel : Nat} {w : List Char}

theorem value_int {n : Int} (hn : (Nat.toDigits 10 n.natAbs).length ≤ digitLimit) (hw : Closing w) :
    value (fuel + 1) ((toString n).toList ++ w) = .ok (.int n, w) := by
  have hstep : ValueStep fuel (toString n).toList (.int n) [] := by
    rw [toList_toString]
    split
    · next hpos =>
      have hnumber := number_toDigits false hn
      rw [show signed false n.natAbs = n by simp only [signed, Bool.false_eq_true, if_false]; omega]
        at hnumber
      exact .positive hnumber
    · next hneg =>
      have hnumber := number_toDigits true hn
      rw [show signed true n.natAbs = n by simp only [signed, if_true]; omega] at hnumber
      exact .negative hnumber
  exact value_numeral_append (fun c => isNumeric_of_mem_toString) hstep.value_eq hw

theorem value_floatText {x : Double} (hx : Survives x) (hw : Closing w) :
    value (fuel + 1) ((floatText x).toList ++ w) = .ok (.float x, w) := by
  cases x with
  | nan =>
    have h : ("NaN", Json.float .nan) ∈ words := by simp [words]
    exact value_word h
  | infinite negative =>
    cases negative with
    | false =>
      have h : ("Infinity", Json.float (.infinite false)) ∈ words := by simp [words]
      exact value_word h
    | true =>
      have h : ("-Infinity", Json.float (.infinite true)) ∈ words := by simp [words]
      exact value_word h
  | finite negative m power =>
    have hnumeric : ∀ c ∈ (floatText (.finite negative m power)).toList, isNumeric c = true :=
      fun c => isNumeric_of_mem_text
    obtain ⟨_, hvalue⟩ := value_of_parse_numeral hnumeric hx
    exact value_numeral_append hnumeric hvalue hw

theorem length_le_flatMap_escapeChar (cs : List Char) :
    cs.length ≤ (cs.flatMap escapeChar).length := by
  have hpos : ∀ c, 0 < (escapeChar c).length := by
    intro c
    unfold escapeChar
    dsimp only
    (repeat' split) <;> simp [unicodeEscape]
  induction cs with
  | nil => simp
  | cons c cs ih =>
    have hc := hpos c
    rw [List.flatMap_cons, List.length_append, List.length_cons]
    omega

theorem exists_string_quoted (s : String) :
    ∃ r, quoted s ++ w = '"' :: r ∧ string (r.length + 1) (r.length + 1) r = .ok (s.toList, w) := by
  refine ⟨s.toList.flatMap escapeChar ++ '"' :: w, by simp [quoted], ?_⟩
  have hlength := length_le_flatMap_escapeChar s.toList
  refine string_quoted _ _ ?_
  rw [List.length_append]
  omega

theorem value_quoted (s : String) : value (fuel + 1) (quoted s ++ w) = .ok (.str s, w) := by
  obtain ⟨r, hr, hstring⟩ := exists_string_quoted (w := w) s
  have hstep : ValueStep fuel ('"' :: r) (.str (String.ofList s.toList)) w := .text hstring
  rw [hr, hstep.value_eq, String.ofList_toList]

/-- A key with its value is read back as a member. -/
theorem memberAt_quoted {r : List Char} {v : Json} (k : String) (h : value fuel r = .ok (v, w)) :
    MemberAt fuel (quoted k ++ ':' :: ' ' :: r) k v w := by
  obtain ⟨t, ht, hstring⟩ := exists_string_quoted (w := ':' :: ' ' :: r) k
  have hmember : MemberAt fuel ('"' :: t) (String.ofList k.toList) v w :=
    .intro hstring rfl (value_skip h rfl)
  rwa [ht, ← String.ofList_toList (s := k)]

end

/-! ## Lists and objects -/

/-- A value is read from its text, whatever text closes it. The bound that the reader carries has to
exceed twice the length of the text, since an opening bracket takes two steps. -/
def ReadsBack (v : Json) : Prop :=
  ∀ fuel w, 2 * (compactList v).length < fuel → Closing w →
    value fuel (compactList v ++ w) = .ok (v, w)

theorem readsBack_of_succ {v : Json}
    (h : ∀ fuel w, 2 * (compactList v).length ≤ fuel → Closing w →
      value (fuel + 1) (compactList v ++ w) = .ok (v, w)) : ReadsBack v := by
  intro fuel w hfuel hw
  cases fuel with
  | zero => omega
  | succ fuel => exact h fuel w (Nat.le_of_lt_succ hfuel) hw

theorem items_compactItems {xs : List Json} (hxs : ∀ x ∈ xs, ReadsBack x) (hne : xs ≠ [])
    {fuel : Nat} (hfuel : 2 * (compactItems xs).length + 1 < fuel) (w : List Char) :
    items fuel (compactItems xs ++ ']' :: w) = .ok (xs, w) := by
  induction xs generalizing fuel with
  | nil => exact absurd rfl hne
  | cons x xs ih =>
    obtain ⟨hx, hrest⟩ := List.forall_mem_cons.mp hxs
    cases fuel with
    | zero => omega
    | succ fuel =>
      cases xs with
      | nil =>
        rw [compactItems] at hfuel ⊢
        exact (ItemsStep.last (hx fuel _ (by omega) (closing_cons rfl)) rfl).items_eq
      | cons y ys =>
        rw [compactItems] at hfuel ⊢
        · simp only [List.length_append, List.length_cons] at hfuel
          rw [List.append_assoc, List.cons_append, List.cons_append]
          have hitems := ih hrest (List.cons_ne_nil y ys) (show _ < fuel by omega)
          have hvalue := hx fuel (',' :: ' ' :: (compactItems (y :: ys) ++ ']' :: w)) (by omega)
            (closing_cons rfl)
          exact (ItemsStep.next hvalue rfl (items_skip hitems rfl)).items_eq
        all_goals simp

theorem members_compactFields {fs gs : Fields} (hgs : ∀ f ∈ gs, ReadsBack f.2) (hne : gs ≠ [])
    (hkeys : ((fs ++ gs).map Prod.fst).Nodup) {fuel : Nat}
    (hfuel : 2 * (compactFields gs).length + 1 < fuel) (w : List Char) :
    members fuel fs (compactFields gs ++ '\x7d' :: w) = .ok (fs ++ gs, w) := by
  induction gs generalizing fuel fs with
  | nil => exact absurd rfl hne
  | cons g gs ih =>
    obtain ⟨k, v⟩ := g
    obtain ⟨hg, hrest⟩ := List.forall_mem_cons.mp hgs
    dsimp only at hg
    have hk : k ∉ fs.map Prod.fst := by
      rw [List.map_append, List.nodup_append] at hkeys
      exact fun hmem => hkeys.2.2 k hmem k List.mem_cons_self rfl
    cases fuel with
    | zero => omega
    | succ fuel =>
      cases gs with
      | nil =>
        rw [compactFields] at hfuel ⊢
        simp only [List.length_append, List.length_cons] at hfuel
        rw [List.append_assoc, List.cons_append, List.cons_append, ← set_of_notMem hk v]
        have hmember := memberAt_quoted k (hg fuel ('\x7d' :: w) (by omega) (closing_cons rfl))
        exact (MembersStep.last hmember rfl).members_eq
      | cons y ys =>
        -- a key that is new is set at the end, so the fields keep their order
        have hsplit : fs ++ (k, v) :: y :: ys = fs.set k v ++ y :: ys := by
          rw [set_of_notMem hk v, List.append_assoc, List.singleton_append]
        rw [hsplit] at hkeys ⊢
        rw [compactFields] at hfuel ⊢
        · simp only [List.length_append, List.length_cons] at hfuel
          rw [List.append_assoc, List.append_assoc, List.cons_append, List.cons_append,
            List.cons_append, List.cons_append]
          have hmembers := ih hrest (List.cons_ne_nil y ys) hkeys (show _ < fuel by omega)
          have hvalue := hg fuel (',' :: ' ' :: (compactFields (y :: ys) ++ '\x7d' :: w)) (by omega)
            (closing_cons rfl)
          exact (MembersStep.next (memberAt_quoted k hvalue) rfl (members_skip hmembers rfl)).members_eq
        all_goals simp

/-- **A well-formed value is read back from its text**, as far as its floating point numbers are. -/
theorem WellFormed.readsBack {v : Json} (hv : WellFormed v) (hfloat : ∀ x, HasFloat x v → Survives x) :
    ReadsBack v := by
  induction hv with
  | null => exact readsBack_of_succ fun _ _ _ _ => value_word (by simp [words])
  | bool b =>
    refine readsBack_of_succ fun _ _ _ _ => ?_
    cases b with
    | false => exact value_word (by simp [words])
    | true => exact value_word (by simp [words])
  | int hn => exact readsBack_of_succ fun _ _ _ hw => value_int hn hw
  | float x => exact readsBack_of_succ fun _ _ _ hw => value_floatText (hfloat x .float) hw
  | str s => exact readsBack_of_succ fun _ _ _ _ => value_quoted s
  | @arr xs hxs ih =>
    refine readsBack_of_succ fun fuel w hfuel _ => ?_
    have hitems : ∀ x ∈ xs, ReadsBack x := fun x hx => ih x hx fun y hy => hfloat y (.item hx hy)
    rw [compactList] at hfuel ⊢
    rw [List.append_assoc, List.cons_append, List.singleton_append]
    cases xs with
    | nil => rfl
    | cons y ys =>
      simp only [List.length_append, List.length_cons] at hfuel
      have hread := items_compactItems hitems (List.cons_ne_nil y ys) (show _ < fuel by omega) w
      exact (ValueStep.list (items_skip hread rfl)).value_eq
  | @obj fs hkeys hfs ih =>
    refine readsBack_of_succ fun fuel w hfuel _ => ?_
    have hvalues : ∀ f ∈ fs, ReadsBack f.2 := fun f hf => ih f hf fun y hy => hfloat y (.field hf hy)
    rw [compactList] at hfuel ⊢
    rw [List.append_assoc, List.cons_append, List.singleton_append]
    cases fs with
    | nil => rfl
    | cons g gs =>
      simp only [List.length_append, List.length_cons] at hfuel
      have hread : members fuel [] _ = .ok ([] ++ g :: gs, w) :=
        members_compactFields hvalues (List.cons_ne_nil g gs) hkeys (by omega) w
      exact (ValueStep.object (members_skip hread rfl)).value_eq

/-! ## Texts and files -/

/-- A character between the blank and the last one of ASCII. -/
def isPrintable (c : Char) : Bool :=
  0x20 ≤ c.toNat && c.toNat < 0x7F

theorem isPrintable_of_isNumeric {c : Char} (h : isNumeric c = true) : isPrintable c = true := by
  simp only [isNumeric, Bool.or_eq_true, beq_iff_eq, or_assoc, isDigit_eq] at h
  rcases h with h | rfl | rfl | rfl | rfl | rfl
  · rw [Char.isDigit_iff_toNat] at h
    have hlow : 0x20 ≤ c.toNat := Nat.le_trans (by decide) h.1
    have hhigh : c.toNat < 0x7F := Nat.lt_of_le_of_lt h.2 (by decide)
    simp [isPrintable, hlow, hhigh]
  all_goals rfl

theorem isPrintable_of_mem_unicodeEscape {n : Nat} {c : Char} (h : c ∈ unicodeEscape n) :
    isPrintable c = true := by
  have hdigits : ∀ m ∈ List.range 16, isPrintable (hexDigit m) = true := by
    decide
  have hdigit : ∀ m, isPrintable (hexDigit (m % 16)) = true :=
    fun m => hdigits _ (List.mem_range.mpr (Nat.mod_lt m (by decide)))
  simp only [unicodeEscape, List.mem_cons, List.not_mem_nil, or_false] at h
  rcases h with rfl | rfl | rfl | rfl | rfl | rfl
  · rfl
  · rfl
  all_goals exact hdigit _

theorem isPrintable_of_mem_escapeChar {c d : Char} (h : d ∈ escapeChar c) : isPrintable d = true := by
  have hsimple : ∀ {e : Char}, isPrintable e = true → d ∈ ['\\', e] → isPrintable d = true := by
    intro e he hd
    simp only [List.mem_cons, List.not_mem_nil, or_false] at hd
    rcases hd with rfl | rfl
    · rfl
    · exact he
  unfold escapeChar at h
  repeat' split at h
  all_goals first | exact hsimple rfl h | skip
  dsimp only at h
  split at h
  · next hplain =>
    rw [List.mem_singleton] at h
    rw [h]
    simp only [Bool.and_eq_true, decide_eq_true_eq] at hplain
    simp [isPrintable, hplain.1, Nat.lt_succ_of_le hplain.2]
  · split at h
    · exact isPrintable_of_mem_unicodeEscape h
    · exact (List.mem_append.mp h).elim isPrintable_of_mem_unicodeEscape
        isPrintable_of_mem_unicodeEscape

theorem isPrintable_of_mem_quoted {s : String} {c : Char} (h : c ∈ quoted s) : isPrintable c = true := by
  have hquote : isPrintable '"' = true := rfl
  simp only [quoted, List.cons_append, List.mem_cons, List.mem_append, List.mem_flatMap,
    List.not_mem_nil, or_false] at h
  rcases h with rfl | ⟨d, -, hd⟩ | rfl
  · exact hquote
  · exact isPrintable_of_mem_escapeChar hd
  · exact hquote

theorem isPrintable_of_mem_compactItems {xs : List Json}
    (hxs : ∀ x ∈ xs, ∀ c ∈ compactList x, isPrintable c = true) :
    ∀ c ∈ compactItems xs, isPrintable c = true := by
  intro c h
  induction xs with
  | nil => cases h
  | cons x xs ih =>
    obtain ⟨hx, hrest⟩ := List.forall_mem_cons.mp hxs
    cases xs with
    | nil => exact hx c (by simpa only [compactItems] using h)
    | cons y ys =>
      rw [compactItems] at h
      · simp only [List.mem_append, List.mem_cons] at h
        rcases h with h | rfl | rfl | h
        · exact hx c h
        · rfl
        · rfl
        · exact ih hrest h
      all_goals simp

theorem isPrintable_of_mem_compactFields {fs : Fields}
    (hfs : ∀ f ∈ fs, ∀ c ∈ compactList f.2, isPrintable c = true) :
    ∀ c ∈ compactFields fs, isPrintable c = true := by
  intro c h
  induction fs with
  | nil => cases h
  | cons f fs ih =>
    obtain ⟨k, v⟩ := f
    obtain ⟨hv, hrest⟩ := List.forall_mem_cons.mp hfs
    have hfirst : c ∈ quoted k ++ ':' :: ' ' :: compactList v → isPrintable c = true := by
      simp only [List.mem_append, List.mem_cons]
      rintro (h | rfl | rfl | h)
      · exact isPrintable_of_mem_quoted h
      · rfl
      · rfl
      · exact hv c h
    cases fs with
    | nil => exact hfirst (by simpa only [compactFields] using h)
    | cons g gs =>
      rw [compactFields] at h
      · rcases List.mem_append.mp h with h | h
        · exact hfirst h
        · simp only [List.mem_cons] at h
          rcases h with rfl | rfl | h
          · rfl
          · rfl
          · exact ih hrest h
      all_goals simp

/-- The text of a value is printable ASCII, on one line. -/
theorem isPrintable_of_mem_compactList {v : Json} (hv : WellFormed v) :
    ∀ c ∈ compactList v, isPrintable c = true := by
  induction hv with
  | null => exact fun c h => List.all_eq_true.mp (by decide : "null".toList.all isPrintable = true) c h
  | bool b =>
    cases b with
    | false =>
      exact fun c h => List.all_eq_true.mp (by decide : "false".toList.all isPrintable = true) c h
    | true =>
      exact fun c h => List.all_eq_true.mp (by decide : "true".toList.all isPrintable = true) c h
  | int _ => exact fun c h => isPrintable_of_isNumeric (isNumeric_of_mem_toString h)
  | float x =>
    cases x with
    | nan => exact fun c h => List.all_eq_true.mp (by decide : "NaN".toList.all isPrintable = true) c h
    | infinite negative =>
      cases negative with
      | false => exact fun c h => List.all_eq_true.mp (by decide : "Infinity".toList.all isPrintable = true) c h
      | true => exact fun c h => List.all_eq_true.mp (by decide : "-Infinity".toList.all isPrintable = true) c h
    | finite negative m power =>
      exact fun c h => isPrintable_of_isNumeric (isNumeric_of_mem_text h)
  | str s => exact fun c => isPrintable_of_mem_quoted
  | @arr xs _ ih =>
    intro c h
    simp only [compactList, List.cons_append, List.mem_cons, List.mem_append, List.not_mem_nil,
      or_false] at h
    rcases h with rfl | h | rfl
    · rfl
    · exact isPrintable_of_mem_compactItems ih c h
    · rfl
  | @obj fs _ _ ih =>
    intro c h
    simp only [compactList, List.cons_append, List.mem_cons, List.mem_append, List.not_mem_nil,
      or_false] at h
    rcases h with rfl | h | rfl
    · rfl
    · exact isPrintable_of_mem_compactFields ih c h
    · rfl

section

variable {v : Json} (hv : WellFormed v) (hfloat : ∀ x, HasFloat x v → Survives x)

include hv hfloat

/-- **Reading undoes writing.** -/
theorem parse_compact : parse v.compact = .ok v := by
  have hvalue : value (2 * (compactList v).length + 2) (compactList v) = .ok (v, []) := by
    simpa using hv.readsBack hfloat _ [] (by omega) closing_nil
  have hmark : (compactList v).head? ≠ some '\ufeff' := fun h =>
    absurd (isPrintable_of_mem_compactList hv _ (List.mem_of_mem_head? h)) (by decide)
  rw [parse_eq_ok_iff, compact, String.toList_ofList, skip_of_value_ok hvalue]
  exact ⟨hmark, [], hvalue, rfl⟩

/-- A value is read back from a file with its text. -/
theorem ofBytes_encode_compact : ofBytes (Text.encode v.compact) = .ok (.ok v) := by
  have hends : Text.unifyLineEnds v.compact.toList = v.compact.toList := by
    refine Text.unifyLineEnds_of_forall ?_
    rw [compact, String.toList_ofList]
    rintro c hc rfl
    exact absurd (isPrintable_of_mem_compactList hv _ hc) (by decide)
  rw [ofBytes, Text.decode?_encode]
  simp only [hends, String.ofList_toList, parse_compact hv hfloat]

end

end WebAudit.Json
