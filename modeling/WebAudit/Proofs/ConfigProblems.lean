import WebAudit.Config.Validate
import WebAudit.Proofs.Outcome

/-!
# What is wrong with settings

A check of a part gives the part or lists what is wrong with it. `Reports` says that the list is just
right: it has all problems of a kind and no others, and it is not empty. Checks put together report
what their parts report, so a configuration is refused exactly for the flaws of its settings, each of
which is told by its own value (`Flaw`).
-/

namespace WebAudit.Config

/-! ## Checks -/

/-- A check is passed if there is no problem, and else lists just the problems there are. -/
inductive Reports {α : Type} : Checked Problem α → (Problem → Prop) → Prop where
  | ok {a : α} {P : Problem → Prop} (h : ∀ p, ¬ P p) : Reports (.ok a) P
  | error {ps : List Problem} {P : Problem → Prop} (hne : ps ≠ []) (h : ∀ p, p ∈ ps ↔ P p) :
      Reports (.error ps) P

namespace Reports

variable {α β : Type} {x : Checked Problem α} {y : Checked Problem β} {P Q : Problem → Prop}

theorem congr (h : Reports x P) (hPQ : ∀ p, P p ↔ Q p) : Reports x Q := by
  cases h with
  | ok h => exact .ok fun p hp => h p ((hPQ p).mpr hp)
  | error hne h => exact .error hne fun p => (h p).trans (hPQ p)

theorem map (h : Reports x P) (f : α → β) : Reports (x.map f) P := by
  cases h with
  | ok h => exact .ok h
  | error hne h => exact .error hne h

theorem both (hx : Reports x P) (hy : Reports y Q) :
    Reports (WebAudit.both x y) fun p => P p ∨ Q p := by
  cases hx with
  | ok hP =>
    cases hy with
    | ok hQ => exact .ok fun p hp => hp.elim (hP p) (hQ p)
    | error hne hQ => exact .error hne fun p => by simp [hQ, hP]
  | error hne hP =>
    cases hy with
    | ok hQ => exact .error hne fun p => by simp [hP, hQ]
    | error hne' hQ => exact .error (by simp [hne]) fun p => by simp [hP, hQ]

theorem wrong (place : List String) (kind : ProblemKind) :
    Reports (Config.wrong place kind : Checked Problem α) fun p => p = ⟨place, kind⟩ :=
  .error (List.cons_ne_nil _ _) fun _ => List.mem_singleton

end Reports

/-! ## Values -/

/-- A list of texts has a problem: it is no list, or an item of it is no text. -/
inductive ListFlaw (place : List String) : Json → Problem → Prop where
  | notList {v : Json} (h : ∀ vs, v ≠ .arr vs) : ListFlaw place v ⟨place, .listType⟩
  | item {vs : List Json} {i : Nat} {v : Json} (hi : vs[i]? = some v) (hv : v.str? = none) :
      ListFlaw place (.arr vs) ⟨place ++ [toString i], .stringType⟩

theorem reports_boolOfJson (place : List String) (v : Json) :
    Reports (boolOfJson place v) fun p => ∃ kind, truthValue v = .error kind ∧ p = ⟨place, kind⟩ := by
  unfold boolOfJson
  split
  next b hb => exact .ok fun p ⟨kind, hkind, _⟩ => by simp [hb] at hkind
  next kind hkind => exact (Reports.wrong place kind).congr fun p => by simp [hkind]

/-- What is read of an item. -/
theorem exists_strings_cons (place : List String) (index : Nat) (v : Json) (vs : List Json) :
    ∃ x : Checked Problem String,
      strings place index (v :: vs)
          = (both x (strings place (index + 1) vs)).map (fun p => p.1 :: p.2)
        ∧ Reports x fun p => v.str? = none ∧ p = ⟨place ++ [toString index], .stringType⟩ := by
  cases v with
  | str s => exact ⟨.ok s, rfl, .ok fun p hp => by simp [Json.str?] at hp⟩
  | _ => exact ⟨_, rfl, (Reports.wrong _ _).congr fun p => by simp [Json.str?]⟩

/-- The items are counted from some index on. -/
theorem reports_strings (place : List String) (index : Nat) (vs : List Json) :
    Reports (strings place index vs) fun p => ∃ i v, vs[i]? = some v ∧ v.str? = none
      ∧ p = ⟨place ++ [toString (index + i)], .stringType⟩ := by
  induction vs generalizing index with
  | nil => exact .ok fun p ⟨i, v, hi, _⟩ => by simp at hi
  | cons v vs ih =>
    obtain ⟨x, hx, hreports⟩ := exists_strings_cons place index v vs
    rw [hx]
    refine ((hreports.both (ih (index + 1))).map _).congr fun p => ?_
    constructor
    · rintro (⟨hv, rfl⟩ | ⟨i, w, hi, hw, rfl⟩)
      · exact ⟨0, v, rfl, hv, rfl⟩
      · exact ⟨i + 1, w, hi, hw, by rw [Nat.add_right_comm, Nat.add_assoc]⟩
    · rintro ⟨i, w, hi, hw, rfl⟩
      cases i with
      | zero =>
        obtain rfl := Option.some.inj hi
        exact .inl ⟨hw, rfl⟩
      | succ i => exact .inr ⟨i, w, hi, hw, by rw [Nat.add_right_comm, Nat.add_assoc]⟩

theorem reports_stringList (place : List String) (v : Json) :
    Reports (stringList place v) (ListFlaw place v) := by
  unfold stringList
  split
  next vs =>
    refine (reports_strings place 0 vs).congr fun p => ?_
    constructor
    · rintro ⟨i, v, hi, hv, rfl⟩
      rw [Nat.zero_add]
      exact .item hi hv
    · intro h
      cases h with
      | notList h => exact absurd rfl (h vs)
      | item hi hv => exact ⟨_, _, hi, hv, by rw [Nat.zero_add]⟩
  next hlist =>
    refine (Reports.wrong place .listType).congr fun p => ?_
    constructor
    · rintro rfl
      exact .notList hlist
    · intro h
      cases h with
      | notList _ => rfl
      | item => exact absurd rfl (hlist _)

/-! ## Settings -/

/-- The keys of each rule, the preferred one first. -/
def ruleKeys : List (String × String) :=
  [("allowLow", "allow_low"), ("blockFalse", "block_false")]

/-- A setting of an object has a problem. -/
inductive Flaw (fs : Json.Fields) : Problem → Prop where
  | rules {v : Json} (h : Json.Fields.get? fs "rules" = some v) (hv : v.fields? = none) :
      Flaw fs ⟨["rules"], .rulesType⟩
  | rule {gs : Json.Fields} {keys : String × String} {key : String} {v : Json} {kind : ProblemKind}
      (h : Json.Fields.get? fs "rules" = some (.obj gs)) (hkeys : keys ∈ ruleKeys)
      (hkey : eitherKey gs keys.1 keys.2 = some (key, v)) (hv : truthValue v = .error kind) :
      Flaw fs ⟨["rules", key], kind⟩
  | ignore {v : Json} {p : Problem} (h : Json.Fields.get? fs "ignore" = some v)
      (hp : ListFlaw ["ignore"] v p) : Flaw fs p
  | browsers {v : Json} {p : Problem} (h : Json.Fields.get? fs "browsers" = some v) (hv : v ≠ .null)
      (hp : ListFlaw ["browsers"] v p) : Flaw fs p

theorem reports_optional {α : Type} {v : Option Json} {read : Json → Checked Problem α}
    {P : Json → Problem → Prop} (h : ∀ j, Reports (read j) (P j)) :
    Reports (optional v read) fun p => ∃ j, v = some j ∧ P j p := by
  cases v with
  | none => exact .ok fun p ⟨j, hj, _⟩ => by cases hj
  | some j => exact ((h j).map some).congr fun p => by simp

theorem reports_rule (gs : Json.Fields) (a b : String) :
    Reports (rule gs a b) fun p => ∃ key v kind, eitherKey gs a b = some (key, v)
      ∧ truthValue v = .error kind ∧ p = ⟨["rules", key], kind⟩ := by
  unfold rule
  split
  next key v hkey =>
    refine ((reports_boolOfJson ["rules", key] v).map some).congr fun p => ?_
    constructor
    · rintro ⟨kind, hv, rfl⟩
      exact ⟨key, v, kind, hkey, hv, rfl⟩
    · rintro ⟨key', v', kind, hkey', hv, rfl⟩
      obtain ⟨rfl, rfl⟩ := Prod.mk.inj (Option.some.inj (hkey.symm.trans hkey'))
      exact ⟨kind, hv, rfl⟩
  next hnone => exact .ok fun p ⟨key, v, kind, hkey, _⟩ => by simp [hnone] at hkey

theorem reports_rulesOfJson (v : Json) :
    Reports (rulesOfJson v) fun p => (v.fields? = none ∧ p = ⟨["rules"], .rulesType⟩)
      ∨ ∃ gs keys key w kind, v = .obj gs ∧ keys ∈ ruleKeys
        ∧ eitherKey gs keys.1 keys.2 = some (key, w) ∧ truthValue w = .error kind
        ∧ p = ⟨["rules", key], kind⟩ := by
  unfold rulesOfJson
  split
  next gs =>
    refine (((reports_rule gs _ _).both (reports_rule gs _ _)).map _).congr fun p => ?_
    simp [ruleKeys, Json.fields?]
  next hobj =>
    have hnone : v.fields? = none := by
      cases v with
      | obj gs => exact absurd rfl (hobj gs)
      | _ => rfl
    refine (Reports.wrong ["rules"] .rulesType).congr fun p => ?_
    constructor
    · intro hp
      exact .inl ⟨hnone, hp⟩
    · rintro (⟨-, hp⟩ | ⟨gs, _, _, _, _, rfl, _⟩)
      · exact hp
      · cases hnone

theorem reports_browsersOfJson (v : Json) :
    Reports (browsersOfJson v) fun p => v ≠ .null ∧ ListFlaw ["browsers"] v p := by
  unfold browsersOfJson
  split
  next => exact .ok fun p hp => hp.1 rfl
  next hnull =>
    exact ((reports_stringList ["browsers"] v).map some).congr fun p =>
      ⟨fun hp => ⟨hnull, hp⟩, fun hp => hp.2⟩

/-- **The fields of an object are refused just for the flaws of the settings in them.** -/
theorem reports_ofFields (fs : Json.Fields) : Reports (ofFields fs) (Flaw fs) := by
  refine (((reports_optional reports_rulesOfJson).both
    ((reports_optional (reports_stringList ["ignore"])).both
      (reports_optional reports_browsersOfJson))).map _).congr fun p => ?_
  constructor
  · rintro (⟨v, hv, ⟨hnone, rfl⟩ | ⟨gs, keys, key, w, kind, rfl, hkeys, hkey, hw, rfl⟩⟩
      | ⟨v, hv, hp⟩ | ⟨v, hv, hnull, hp⟩)
    · exact .rules hv hnone
    · exact .rule hv hkeys hkey hw
    · exact .ignore hv hp
    · exact .browsers hv hnull hp
  · intro h
    cases h with
    | rules hv hnone => exact .inl ⟨_, hv, .inl ⟨hnone, rfl⟩⟩
    | rule hv hkeys hkey hw => exact .inl ⟨_, hv, .inr ⟨_, _, _, _, _, rfl, hkeys, hkey, hw, rfl⟩⟩
    | ignore hv hp => exact .inr (.inl ⟨_, hv, hp⟩)
    | browsers hv hnull hp => exact .inr (.inr ⟨_, hv, hnull, hp⟩)

/-! ## Whole values -/

/-- A value is refused for its settings just if one of them has a flaw, and then all flaws are
named. -/
theorem validate_of_flaw {v : Json} {fs : Json.Fields} {p : Problem} (hv : settings? v = some fs)
    (hp : Flaw fs p) : ∃ ps, validate v = .error (.invalid ps) ∧ ∀ q, q ∈ ps ↔ Flaw fs q := by
  have hreports := reports_ofFields fs
  cases hfields : ofFields fs with
  | ok c =>
    rw [hfields] at hreports
    cases hreports with
    | ok h => exact absurd hp (h p)
  | error ps =>
    rw [hfields] at hreports
    cases hreports with
    | error _ h => exact ⟨ps, by simp only [validate, hv, hfields], h⟩

theorem exists_flaw_of_validate {v : Json} {ps : List Problem}
    (h : validate v = .error (.invalid ps)) : ∃ fs p, settings? v = some fs ∧ Flaw fs p := by
  unfold validate at h
  split at h
  · cases h
  next fs hfs =>
    split at h
    · cases h
    next hps =>
      obtain ⟨⟩ := h
      have hreports := reports_ofFields fs
      rw [hps] at hreports
      cases hreports with
      | error hne hmem =>
        obtain ⟨p, hp⟩ := List.exists_mem_of_ne_nil _ hne
        exact ⟨fs, p, hfs, (hmem p).mp hp⟩

end WebAudit.Config
