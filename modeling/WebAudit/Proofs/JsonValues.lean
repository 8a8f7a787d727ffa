import WebAudit.Proofs.JsonSteps

/-!
# Values that are read

A reader of JSON comes by well-formed values only: no key stands twice in an object, because the last
of its values takes the place of the others, and no whole number is longer than the limit. This is one
induction on the bound that the readers share, with one case for each step.
-/

namespace WebAudit.Json

/-! ## Well-formed values -/

/-- What can be read: no key twice in an object, and no whole number that is too long. -/
inductive WellFormed : Json → Prop where
  | null : WellFormed .null
  | bool (b : Bool) : WellFormed (.bool b)
  | int {n : Int} : (Nat.toDigits 10 n.natAbs).length ≤ digitLimit → WellFormed (.int n)
  | float (x : Double) : WellFormed (.float x)
  | str (s : String) : WellFormed (.str s)
  | arr {xs : List Json} : (∀ x ∈ xs, WellFormed x) → WellFormed (.arr xs)
  | obj {fs : Fields} : (fs.map Prod.fst).Nodup → (∀ f ∈ fs, WellFormed f.2) → WellFormed (.obj fs)

theorem WellFormed.keys {fs : Fields} (h : WellFormed (.obj fs)) : (fs.map Prod.fst).Nodup := by
  cases h with
  | obj hkeys _ => exact hkeys

theorem WellFormed.of_mem {fs : Fields} (h : WellFormed (.obj fs)) {f : String × Json}
    (hf : f ∈ fs) : WellFormed f.2 := by
  cases h with
  | obj _ hvalues => exact hvalues f hf

theorem eq_obj_of_fields? {v : Json} {fs : Fields} (h : v.fields? = some fs) : v = .obj fs := by
  cases v with
  | obj gs => rw [Option.some.inj h]
  | null | bool _ | int _ | float _ | str _ | arr _ => cases h

theorem field?_of_fields?_eq_none {v : Json} (h : v.fields? = none) (key : String) :
    v.field? key = none := by
  cases v with
  | obj fs => cases h
  | null | bool _ | int _ | float _ | str _ | arr _ => rfl

theorem wellFormed_obj_nil : WellFormed (.obj []) :=
  .obj List.nodup_nil (by simp)

/-! ## Fields -/

theorem mem_keys_set {fs : Fields} {k k' : String} {v : Json} :
    k' ∈ (fs.set k v).map Prod.fst ↔ k' ∈ fs.map Prod.fst ∨ k' = k := by
  induction fs with
  | nil => simp [Fields.set]
  | cons f fs ih =>
    rw [Fields.set]
    split
    · next h =>
      have hk : f.1 = k := by simpa using h
      simp only [List.map_cons, List.mem_cons, hk]
      exact ⟨Or.inl, fun h => h.elim id Or.inl⟩
    · rw [List.map_cons, List.mem_cons, ih, List.map_cons, List.mem_cons, or_assoc]

theorem set_of_notMem {fs : Fields} {k : String} (h : k ∉ fs.map Prod.fst) (v : Json) :
    fs.set k v = fs ++ [(k, v)] := by
  induction fs with
  | nil => rfl
  | cons f fs ih =>
    rw [List.map_cons, List.mem_cons, not_or] at h
    obtain ⟨hf, hfs⟩ := h
    rw [Fields.set, if_neg (by simpa using Ne.symm hf), ih hfs, List.cons_append]

theorem mem_of_mem_set {fs : Fields} {k : String} {v : Json} {f : String × Json}
    (h : f ∈ fs.set k v) : f ∈ fs ∨ f.2 = v := by
  induction fs with
  | nil =>
    rw [Fields.set, List.mem_singleton] at h
    exact Or.inr (h ▸ rfl)
  | cons g fs ih =>
    rw [Fields.set] at h
    split at h
    · rcases List.mem_cons.mp h with rfl | h
      · exact Or.inr rfl
      · exact Or.inl (List.mem_cons_of_mem _ h)
    · rcases List.mem_cons.mp h with rfl | h
      · exact Or.inl List.mem_cons_self
      · exact (ih h).imp_left (List.mem_cons_of_mem _)

theorem nodup_keys_set {fs : Fields} {k : String} {v : Json} (h : (fs.map Prod.fst).Nodup) :
    ((fs.set k v).map Prod.fst).Nodup := by
  induction fs with
  | nil => simp [Fields.set]
  | cons f fs ih =>
    obtain ⟨hf, hfs⟩ := List.nodup_cons.mp h
    rw [Fields.set]
    split
    · exact h
    · next hk =>
      refine List.nodup_cons.mpr ⟨?_, ih hfs⟩
      rw [mem_keys_set]
      rintro (hmem | heq)
      · exact hf hmem
      · exact hk (by simpa using heq)

theorem WellFormed.set {fs : Fields} {k : String} {v : Json} (hfs : WellFormed (.obj fs))
    (hv : WellFormed v) : WellFormed (.obj (fs.set k v)) := by
  refine .obj (nodup_keys_set hfs.keys) fun f hf => ?_
  rcases mem_of_mem_set hf with hmem | rfl
  · exact hfs.of_mem hmem
  · exact hv

/-! ## Numbers -/

theorem natAbs_signed (negative : Bool) (n : Nat) : (signed negative n).natAbs = n := by
  cases negative with
  | false => rfl
  | true => exact Int.natAbs_neg n

theorem wellFormed_of_numeral {negative : Bool} {whole frac : List Char} {e : Option Int} {v : Json}
    (hdigits : ∀ c ∈ whole, c.isDigit = true) (hne : whole ≠ [])
    (h : numeral negative whole frac e = .ok v) : WellFormed v := by
  unfold numeral at h
  split at h
  · split at h
    · cases h
    · next hlimit =>
      obtain rfl := Except.ok.inj h
      have hpos : 0 < whole.length := List.length_pos_iff.mpr hne
      refine .int ?_
      rw [natAbs_signed, digitsValue_eq]
      exact Nat.le_trans ((Nat.length_toDigits_le_iff (by decide) hpos).mpr (ofDigitChars_lt hdigits))
        (Nat.le_of_not_lt hlimit)
  · obtain rfl := Except.ok.inj h
    exact .float _

theorem wellFormed_of_number {negative : Bool} {cs rest : List Char} {v : Json}
    (h : number negative cs = .ok (v, rest)) : WellFormed v := by
  unfold number at h
  dsimp only at h
  split at h
  · cases h
  · next hne =>
    split at h
    · next hv =>
      obtain ⟨rfl, -⟩ := Prod.mk.inj (Except.ok.inj h)
      exact wellFormed_of_numeral (fun c => isDigit_of_mem_leading) (by simpa using hne) hv
    · cases h

theorem wellFormed_of_mem_words {w : String} {v : Json} (h : (w, v) ∈ words) : WellFormed v := by
  simp only [words, List.mem_cons, Prod.mk.injEq, List.not_mem_nil, or_false] at h
  rcases h with ⟨-, rfl⟩ | ⟨-, rfl⟩ | ⟨-, rfl⟩ | ⟨-, rfl⟩ | ⟨-, rfl⟩ | ⟨-, rfl⟩
  · exact .null
  · exact .bool true
  · exact .bool false
  all_goals exact .float _

/-! ## All values -/

/-- The readers give well-formed values, whatever bound they carry. -/
theorem wellFormed_of_readers (fuel : Nat) :
    (∀ {cs rest : List Char} {v : Json}, value fuel cs = .ok (v, rest) → WellFormed v)
      ∧ (∀ {cs rest : List Char} {xs : List Json}, items fuel cs = .ok (xs, rest) →
          ∀ x ∈ xs, WellFormed x)
      ∧ ∀ {fs gs : Fields} {cs rest : List Char}, WellFormed (.obj fs) →
          members fuel fs cs = .ok (gs, rest) → WellFormed (.obj gs) := by
  induction fuel with
  | zero =>
    refine ⟨fun h => ?_, fun h => ?_, fun _ h => ?_⟩
    · cases h
    · cases h
    · cases h
  | succ fuel ih =>
    obtain ⟨ihValue, ihItems, ihMembers⟩ := ih
    refine ⟨fun h => ?_, fun h => ?_, fun hfs h => ?_⟩
    · cases ValueStep.of_value h with
      | word hw => exact wellFormed_of_mem_words hw
      | text _ => exact .str _
      | emptyList _ => exact .arr (by simp)
      | list hxs => exact .arr (ihItems hxs)
      | emptyObject _ => exact wellFormed_obj_nil
      | object hfs => exact ihMembers wellFormed_obj_nil hfs
      | negative hn => exact wellFormed_of_number hn
      | positive hn => exact wellFormed_of_number hn
    · cases ItemsStep.of_items h with
      | last hx _ => exact List.forall_mem_singleton.mpr (ihValue hx)
      | next hx _ hys => exact List.forall_mem_cons.mpr ⟨ihValue hx, ihItems hys⟩
    · cases MembersStep.of_members h with
      | last hm _ =>
        obtain ⟨_, _, hv⟩ := hm
        exact hfs.set (ihValue hv)
      | next hm _ hgs =>
        obtain ⟨_, _, hv⟩ := hm
        exact ihMembers (hfs.set (ihValue hv)) hgs

/-- **What is read is well-formed.** -/
theorem wellFormed_of_parse {s : String} {v : Json} (h : parse s = .ok v) : WellFormed v := by
  obtain ⟨-, u, hv, -⟩ := parse_eq_ok_iff.mp h
  exact (wellFormed_of_readers _).1 hv

end WebAudit.Json
