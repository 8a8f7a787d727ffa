import WebAudit.Dataset.Lookup
import WebAudit.Proofs.Outcome

/-!
# Chains of moved records

A moved record points to another id. `Chain` says which records are met on the way, and
`feature_eq_error_iff` says when looking up a feature fails: when a chain comes to a moved record
whose target cannot be a key, while it is still followed.
-/

namespace WebAudit.Dataset

/-- A moved record, and the one under the id to which it points. -/
def Features.Hop (fs : Features) (r r' : Json.Fields) : Prop :=
  kind? r = some "moved" ∧ ∃ id, redirectTarget r = .str id ∧ fs.lookup id = some r'

/-- A number of hops from one record to another. -/
inductive Features.Chain (fs : Features) : Nat → Json.Fields → Json.Fields → Prop where
  | refl (r : Json.Fields) : Chain fs 0 r r
  | hop {n : Nat} {r r' r'' : Json.Fields} :
      fs.Hop r r' → Chain fs n r' r'' → Chain fs (n + 1) r r''

/-- The value is a list or an object. -/
def IsCompound (v : Json) : Prop :=
  (∃ vs, v = .arr vs) ∨ ∃ gs, v = .obj gs

/-- A moved record whose target cannot be a key. -/
def Misdirected (r : Json.Fields) : Prop :=
  kind? r = some "moved" ∧ IsCompound (redirectTarget r)

/-- A record that is misdirected is met on the way from an id, while the chain is followed. -/
def Features.Astray (fs : Features) (id : String) : Prop :=
  ∃ r, fs.lookup id = some r ∧ ∃ k r', k < maxRedirects ∧ fs.Chain k r r' ∧ Misdirected r'

variable {fs : Features}

/-! ## One step -/

theorem Features.get_eq_error_iff {v : Json} {e : Fault} :
    fs.get v = .error e ↔ e = .badKey ∧ IsCompound v := by
  cases v <;> simp [Features.get, IsCompound, eq_comm]

theorem Features.get_eq_some_iff {v : Json} {r : Json.Fields} :
    fs.get v = .ok (some r) ↔ ∃ id, v = .str id ∧ fs.lookup id = some r := by
  cases v <;> simp [Features.get]

theorem Features.follow_none (n : Nat) : fs.follow n none = .ok none := by
  cases n <;> rfl

theorem Features.follow_of_moved {r : Json.Fields} (h : kind? r = some "moved") (n : Nat) :
    fs.follow (n + 1) (some r) = fs.get (redirectTarget r) >>= fs.follow n := by
  simp only [Features.follow, h, beq_self_eq_true, if_true]

theorem Features.follow_of_not_moved {r : Json.Fields} (h : kind? r ≠ some "moved") (n : Nat) :
    fs.follow n (some r) = .ok (some r) := by
  cases n with
  | zero => rfl
  | succ n => simp only [Features.follow, beq_eq_false_iff_ne.mpr h, Bool.false_eq_true, if_false]

/-! ## Whole chains -/

/-- What a chain comes to is the record it starts at, or something behind its first hop. -/
theorem Features.exists_chain_succ_iff {n : Nat} {r : Json.Fields} {P : Json.Fields → Prop} :
    (∃ k r', k < n + 1 ∧ fs.Chain k r r' ∧ P r')
      ↔ P r ∨ ∃ r₁, fs.Hop r r₁ ∧ ∃ k r', k < n ∧ fs.Chain k r₁ r' ∧ P r' := by
  constructor
  · rintro ⟨k, r', hk, hchain, hP⟩
    cases hchain with
    | refl => exact .inl hP
    | @hop k _ r₁ _ hhop hrest => exact .inr ⟨r₁, hhop, k, r', by omega, hrest, hP⟩
  · rintro (hP | ⟨r₁, hhop, k, r', hk, hchain, hP⟩)
    · exact ⟨0, r, by omega, .refl r, hP⟩
    · exact ⟨k + 1, r', by omega, .hop hhop hchain, hP⟩

theorem Features.follow_eq_error_iff {n : Nat} {r : Json.Fields} {e : Fault} :
    fs.follow n (some r) = .error e
      ↔ e = .badKey ∧ ∃ k r', k < n ∧ fs.Chain k r r' ∧ Misdirected r' := by
  induction n generalizing r with
  | zero => simp [Features.follow]
  | succ n ih =>
    rw [exists_chain_succ_iff]
    by_cases hmoved : kind? r = some "moved"
    · rw [follow_of_moved hmoved, bind_eq_error_iff, get_eq_error_iff]
      constructor
      · rintro (⟨rfl, hcompound⟩ | ⟨found, hget, hfollow⟩)
        · exact ⟨rfl, .inl ⟨hmoved, hcompound⟩⟩
        · cases found with
          | none => rw [follow_none] at hfollow; cases hfollow
          | some r₁ =>
            obtain ⟨rfl, hrest⟩ := ih.mp hfollow
            exact ⟨rfl, .inr ⟨r₁, ⟨hmoved, get_eq_some_iff.mp hget⟩, hrest⟩⟩
      · rintro ⟨rfl, hbad | ⟨r₁, hhop, hrest⟩⟩
        · exact .inl ⟨rfl, hbad.2⟩
        · exact .inr ⟨some r₁, get_eq_some_iff.mpr hhop.2, ih.mpr ⟨rfl, hrest⟩⟩
    · rw [follow_of_not_moved hmoved]
      constructor
      · intro h
        cases h
      · rintro ⟨-, hbad | ⟨r₁, hhop, -⟩⟩
        · exact absurd hbad.1 hmoved
        · exact absurd hhop.1 hmoved

/-- **Looking up fails just where a chain goes astray.** -/
theorem Features.feature_eq_error_iff {id : String} {e : Fault} :
    fs.feature id = .error e ↔ e = .badKey ∧ fs.Astray id := by
  have hfeature : fs.feature id = .error e ↔ fs.follow maxRedirects (fs.lookup id) = .error e := by
    unfold Features.feature
    rw [bind_eq_error_iff]
    constructor
    · rintro (h | ⟨found, -, h⟩)
      · exact h
      · split at h
        · split at h <;> cases h
        · cases h
    · exact .inl
  rw [hfeature, Astray]
  cases hr : fs.lookup id with
  | none => simp [follow_none]
  | some r => simp [follow_eq_error_iff]

end WebAudit.Dataset
