import WebAudit.Dataset.Resolution
import WebAudit.Proofs.Redirects

/-!
# Where moved features lead

A lookup follows moved records for a few hops and gives the record at which they end. `ComesTo` says
which record that is, without the loop, and `Lost` lists the ways in which there is none; for a
dataset whose targets can all be keys, each id comes to one record or is lost. An id that points to
another shares its record, as long as one hop is left for it.
-/

namespace WebAudit.Dataset

/-- A record that is neither moved nor split. -/
def Final (r : Json.Fields) : Prop :=
  kind? r ≠ some "moved" ∧ kind? r ≠ some "split"

namespace Features

/-- An id comes to a final record by at most a number of hops. -/
def ComesTo (fs : Features) (n : Nat) (id : String) (r : Json.Fields) : Prop :=
  ∃ r₀ k, fs.lookup id = some r₀ ∧ k ≤ n ∧ fs.Chain k r₀ r ∧ Final r

/-- An id that comes to nothing: no record has it, or its records lead to a moved one whose target no
record has, to a split one, into a cycle, or further than they are followed. -/
inductive Lost (fs : Features) (id : String) : Prop where
  | unknown (h : fs.lookup id = none)
  | dangling {r r' : Json.Fields} {k : Nat} (h : fs.lookup id = some r) (hchain : fs.Chain k r r')
      (hmoved : kind? r' = some "moved")
      (hnone : ∀ id', redirectTarget r' = .str id' → fs.lookup id' = none)
  | split {r r' : Json.Fields} {k : Nat} (h : fs.lookup id = some r) (hchain : fs.Chain k r r')
      (hsplit : kind? r' = some "split")
  | cyclic {r r' : Json.Fields} {k m : Nat} (h : fs.lookup id = some r) (hchain : fs.Chain k r r')
      (hcycle : fs.Chain (m + 1) r' r')
  | tooLong {r r' : Json.Fields} (h : fs.lookup id = some r) (hchain : fs.Chain 6 r r')

variable {fs : Features} {id : String}

/-! ## The loop -/

/-- The loop ends at the first record that is not moved, or when its hops are used up. -/
theorem follow_eq_some_iff {n : Nat} {r r' : Json.Fields} :
    fs.follow n (some r) = .ok (some r')
      ↔ ∃ k, k ≤ n ∧ fs.Chain k r r' ∧ (kind? r' = some "moved" → k = n) := by
  induction n generalizing r with
  | zero =>
    rw [follow]
    constructor
    · intro h
      obtain rfl := Option.some.inj (Except.ok.inj h)
      exact ⟨0, Nat.le_refl 0, .refl r, fun _ => rfl⟩
    · rintro ⟨k, hk, hchain, -⟩
      obtain rfl := Nat.le_zero.mp hk
      cases hchain
      rfl
  | succ n ih =>
    by_cases hmoved : kind? r = some "moved"
    · rw [follow_of_moved hmoved, bind_eq_ok_iff]
      constructor
      · rintro ⟨found, hget, hfollow⟩
        cases found with
        | none =>
          rw [follow_none] at hfollow
          cases hfollow
        | some r₁ =>
          obtain ⟨k, hk, hchain, hlast⟩ := ih.mp hfollow
          exact ⟨k + 1, by omega, .hop ⟨hmoved, get_eq_some_iff.mp hget⟩ hchain,
            fun h => congrArg (· + 1) (hlast h)⟩
      · rintro ⟨k, hk, hchain, hlast⟩
        cases hchain with
        -- the loop does not stop at a moved record with hops left
        | refl => exact absurd (hlast hmoved) (by omega)
        | @hop k _ r₁ _ hhop hrest =>
          refine ⟨some r₁, get_eq_some_iff.mpr hhop.2, ih.mpr ⟨k, by omega, hrest, fun h => ?_⟩⟩
          have := hlast h
          omega
    · rw [follow_of_not_moved hmoved]
      constructor
      · intro h
        obtain rfl := Option.some.inj (Except.ok.inj h)
        exact ⟨0, Nat.zero_le _, .refl r, fun h => absurd h hmoved⟩
      · rintro ⟨k, -, hchain, -⟩
        cases hchain with
        | refl => rfl
        | hop hhop _ => exact absurd hhop.1 hmoved

/-- **A lookup gives the record to which the id comes.** -/
theorem feature_eq_some_iff {r : Json.Fields} : fs.feature id = .ok (some r) ↔ fs.ComesTo 5 id r := by
  have hfeature : fs.feature id = .ok (some r)
      ↔ fs.follow maxRedirects (fs.lookup id) = .ok (some r) ∧ Final r := by
    unfold feature
    rw [bind_eq_ok_iff]
    constructor
    · rintro ⟨found, hfollow, h⟩
      split at h
      · split at h
        · cases h
        next hkind =>
          obtain rfl := Option.some.inj (Except.ok.inj h)
          exact ⟨hfollow, by simpa [Final] using hkind⟩
      · cases h
    · rintro ⟨hfollow, hmoved, hsplit⟩
      exact ⟨some r, hfollow, by simp [hmoved, hsplit]⟩
  rw [hfeature, ComesTo]
  cases hr : fs.lookup id with
  | none => simp [follow_none]
  | some r₀ =>
    rw [follow_eq_some_iff]
    constructor
    · rintro ⟨⟨k, hk, hchain, -⟩, hfinal⟩
      exact ⟨r₀, k, rfl, hk, hchain, hfinal⟩
    · rintro ⟨r₁, k, hr₁, hk, hchain, hfinal⟩
      obtain rfl := Option.some.inj hr₁
      exact ⟨⟨k, hk, hchain, fun h => absurd h hfinal.1⟩, hfinal⟩

/-! ## Chains and their ends -/

/-- A moved record leads to one record at most. -/
theorem Hop.unique {r a b : Json.Fields} (h : fs.Hop r a) (h' : fs.Hop r b) : a = b := by
  obtain ⟨-, id, htarget, ha⟩ := h
  obtain ⟨-, id', htarget', hb⟩ := h'
  obtain rfl : id = id' := Json.str.inj (htarget.symm.trans htarget')
  exact Option.some.inj (ha.symm.trans hb)

/-- Every record on the way to one that is not moved leads on to it. -/
theorem Chain.rest {j k : Nat} {r a b : Json.Fields} (ha : fs.Chain j r a) (hb : fs.Chain k r b)
    (hend : kind? b ≠ some "moved") : ∃ i, j + i = k ∧ fs.Chain i a b := by
  induction ha generalizing k with
  | refl r => exact ⟨k, by omega, hb⟩
  | hop hhop _ ih =>
    cases hb with
    | refl => exact absurd hhop.1 hend
    | hop hhop' hb =>
      obtain rfl := hhop.unique hhop'
      obtain ⟨i, hi, hrest⟩ := ih hb
      exact ⟨i, by omega, hrest⟩

/-- Nothing on a cycle leads to a record that is not moved. -/
theorem Chain.not_of_cycle {m k : Nat} {r b : Json.Fields} (hcycle : fs.Chain (m + 1) r r)
    (hend : kind? b ≠ some "moved") : ¬ fs.Chain k r b := by
  induction k using Nat.strongRecOn with
  | ind k ih =>
    intro h
    -- once around the cycle, the same record is nearer by its length
    obtain ⟨i, hi, hrest⟩ := hcycle.rest h hend
    exact ih i (by omega) hrest

/-- A record is not moved, is moved to nowhere, or leads to another. -/
theorem hop_cases (fs : Features) (r : Json.Fields) :
    kind? r ≠ some "moved" ∨ (kind? r = some "moved" ∧ ∀ id, redirectTarget r = .str id →
      fs.lookup id = none) ∨ ∃ r', fs.Hop r r' := by
  by_cases hmoved : kind? r = some "moved"
  · by_cases hnone : ∀ id, redirectTarget r = .str id → fs.lookup id = none
    · exact .inr (.inl ⟨hmoved, hnone⟩)
    · obtain ⟨id, hid⟩ := Classical.not_forall.mp hnone
      obtain ⟨htarget, hsome⟩ := Classical.not_imp.mp hid
      obtain ⟨r', hr'⟩ := Option.ne_none_iff_exists'.mp hsome
      exact .inr (.inr ⟨r', hmoved, id, htarget, hr'⟩)
  · exact .inl hmoved

/-- Within a number of hops a chain ends at a record that is not moved, or it breaks off at one that
is moved to nowhere, or it goes on. -/
theorem chain_cases (fs : Features) (n : Nat) (r : Json.Fields) :
    (∃ k r', k ≤ n ∧ fs.Chain k r r' ∧ kind? r' ≠ some "moved")
      ∨ (∃ k r', fs.Chain k r r' ∧ kind? r' = some "moved"
        ∧ ∀ id, redirectTarget r' = .str id → fs.lookup id = none)
      ∨ ∃ r', fs.Chain (n + 1) r r' := by
  obtain hend | hend | ⟨r₁, hhop⟩ := fs.hop_cases r
  · exact .inl ⟨0, r, Nat.zero_le n, .refl r, hend⟩
  · exact .inr (.inl ⟨0, r, .refl r, hend⟩)
  cases n with
  | zero => exact .inr (.inr ⟨r₁, .hop hhop (.refl r₁)⟩)
  | succ n =>
    obtain ⟨k, r', hk, hchain, hend⟩ | ⟨k, r', hchain, hend⟩ | ⟨r', hchain⟩ := fs.chain_cases n r₁
    · exact .inl ⟨k + 1, r', by omega, .hop hhop hchain, hend⟩
    · exact .inr (.inl ⟨k + 1, r', .hop hhop hchain, hend⟩)
    · exact .inr (.inr ⟨r', .hop hhop hchain⟩)

/-! ## Ids that come to nothing -/

/-- What an id comes to lies behind every record on its way. -/
theorem ComesTo.rest {n j : Nat} {r₀ a r : Json.Fields} (h : fs.ComesTo n id r)
    (hr₀ : fs.lookup id = some r₀) (ha : fs.Chain j r₀ a) : ∃ i, j + i ≤ n ∧ fs.Chain i a r := by
  obtain ⟨r₁, k, hr₁, hk, hchain, hfinal⟩ := h
  obtain rfl := Option.some.inj (hr₀.symm.trans hr₁)
  obtain ⟨i, hi, hrest⟩ := ha.rest hchain hfinal.1
  exact ⟨i, by omega, hrest⟩

theorem ComesTo.final {n : Nat} {r : Json.Fields} (h : fs.ComesTo n id r) : Final r := by
  obtain ⟨-, -, -, -, -, hfinal⟩ := h
  exact hfinal

theorem Lost.not_comesTo (h : fs.Lost id) (r : Json.Fields) : ¬ fs.ComesTo 5 id r := by
  intro hcomes
  have hfinal := hcomes.final
  cases h with
  | unknown h =>
    obtain ⟨r₀, -, hr₀, -⟩ := hcomes
    cases h.symm.trans hr₀
  | dangling h hchain hmoved hnone =>
    obtain ⟨i, -, hrest⟩ := hcomes.rest h hchain
    cases hrest with
    | refl => exact hfinal.1 hmoved
    | hop hhop _ =>
      obtain ⟨-, id', htarget, hsome⟩ := hhop
      cases (hnone id' htarget).symm.trans hsome
  | split h hchain hsplit =>
    obtain ⟨i, -, hrest⟩ := hcomes.rest h hchain
    cases hrest with
    | refl => exact hfinal.2 hsplit
    | hop hhop _ => exact absurd (hsplit.symm.trans hhop.1) (by decide)
  | cyclic h hchain hcycle =>
    obtain ⟨i, -, hrest⟩ := hcomes.rest h hchain
    exact hcycle.not_of_cycle hfinal.1 hrest
  | tooLong h hchain =>
    obtain ⟨i, hi, -⟩ := hcomes.rest h hchain
    omega

/-- **Every id comes to a record or is lost.** -/
theorem comesTo_or_lost (fs : Features) (id : String) : (∃ r, fs.ComesTo 5 id r) ∨ fs.Lost id := by
  cases hr : fs.lookup id with
  | none => exact .inr (.unknown hr)
  | some r₀ =>
    obtain ⟨k, r, hk, hchain, hend⟩ | ⟨k, r, hchain, hmoved, hnone⟩ | ⟨r, hchain⟩ :=
      fs.chain_cases 5 r₀
    · by_cases hsplit : kind? r = some "split"
      · exact .inr (.split hr hchain hsplit)
      · exact .inl ⟨r, r₀, k, hr, hk, hchain, hend, hsplit⟩
    · exact .inr (.dangling hr hchain hmoved hnone)
    · exact .inr (.tooLong hr hchain)

/-- The target of every record can be a key: it is no list and no object. -/
def Directed (fs : Features) : Prop :=
  ∀ id r, fs.lookup id = some r → ¬ IsCompound (redirectTarget r)

/-- A chain from a recorded feature stays among the records. -/
theorem Chain.exists_lookup {k : Nat} {r r' : Json.Fields} (h : fs.Chain k r r')
    (hr : fs.lookup id = some r) : ∃ id', fs.lookup id' = some r' := by
  induction h generalizing id with
  | refl r => exact ⟨id, hr⟩
  | hop hhop _ ih =>
    obtain ⟨-, id', -, hr'⟩ := hhop
    exact ih hr'

theorem Directed.not_astray (h : fs.Directed) (id : String) : ¬ fs.Astray id := by
  rintro ⟨r, hr, k, r', -, hchain, -, hcompound⟩
  obtain ⟨id', hr'⟩ := hchain.exists_lookup hr
  exact h id' r' hr' hcompound

theorem Directed.feature_eq_none_iff (h : fs.Directed) :
    fs.feature id = .ok none ↔ ¬ ∃ r, fs.ComesTo 5 id r := by
  cases hfeature : fs.feature id with
  | error e => exact absurd (feature_eq_error_iff.mp hfeature).2 (h.not_astray id)
  | ok found =>
    simp only [← feature_eq_some_iff, hfeature]
    cases found with
    | none => simp
    | some r => simp

end Features

/-! ## Ids that share a record -/

/-- A fault about a feature as one about another feature. -/
def Fault.naming (id : String) : Fault → Fault
  | .unknownFeature _ => .unknownFeature id
  | .noStatus key _ => .noStatus key id
  | e => e

theorem eq_noFields_of_field {key : String} {v : Json} {e : Fault} (h : field key v = .error e) :
    e = .noFields := by
  unfold field at h
  split at h
  · cases h
  · exact (Except.error.inj h).symm

/-- Resolving asks only what is found. -/
theorem resolve_congr {s : Sources} {a b : String} (hfeature : s.feature a = s.feature b)
    (hstatus : ∀ k, found (s.status a k) = found (s.status b k)) (key : Option String) :
    resolve s a key = resolve s b key := by
  have hkey : keyStatus s a key = keyStatus s b key := by
    cases key with
    | none => rfl
    | some k => simp only [keyStatus, hstatus k]
  simp only [resolve, hfeature, hkey]

namespace Features

variable {fs : Features} {a b : String} {r : Json.Fields}

theorem record_of_feature (ha : fs.feature a = .ok (some r)) : fs.record a = .ok (.obj r) := by
  rw [record, ha]
  rfl

/-- Two ids with the same record have the same statuses, but for the name in a fault. -/
theorem status_of_feature (ha : fs.feature a = .ok (some r)) (hb : fs.feature b = .ok (some r))
    (key : String) : fs.status b key = (fs.status a key).mapError (Fault.naming b) := by
  simp only [status, ha, hb, ok_bind]
  cases hstatus : field "status" (.obj r) with
  | error e => cases hstatus
  | ok status =>
    simp only [ok_bind]
    cases hbyKey : field "by_compat_key" (orEmpty status) with
    | error e =>
      obtain rfl := eq_noFields_of_field hbyKey
      rfl
    | ok byKey =>
      simp only [ok_bind]
      cases huse : field key (orEmpty byKey) with
      | error e =>
        obtain rfl := eq_noFields_of_field huse
        rfl
      | ok use => cases use <;> rfl

theorem found_mapError (e : Except Fault Json) (f : Fault → Fault) : found (e.mapError f) = found e := by
  cases e <;> rfl

theorem resolve_of_feature (ha : fs.feature a = .ok (some r)) (hb : fs.feature b = .ok (some r))
    (key : Option String) : resolve fs.sources a key = resolve fs.sources b key := by
  refine resolve_congr ?_ ?_ key
  · exact (record_of_feature ha).trans (record_of_feature hb).symm
  · intro k
    have hk : fs.sources.status b k = (fs.sources.status a k).mapError (Fault.naming b) :=
      status_of_feature ha hb k
    rw [hk, found_mapError]

/-- An id that points to another needs one hop more. -/
theorem ComesTo.of_moved {n : Nat} {moved : Json.Fields} (ha : fs.lookup a = some moved)
    (hkind : kind? moved = some "moved") (htarget : redirectTarget moved = .str b)
    (h : fs.ComesTo n b r) : fs.ComesTo (n + 1) a r := by
  obtain ⟨r₀, k, hr₀, hk, hchain, hfinal⟩ := h
  exact ⟨moved, k + 1, ha, by omega, .hop ⟨hkind, b, htarget, hr₀⟩ hchain, hfinal⟩

theorem ComesTo.mono {m n : Nat} (h : fs.ComesTo m a r) (hmn : m ≤ n) : fs.ComesTo n a r := by
  obtain ⟨r₀, k, hr₀, hk, hchain, hfinal⟩ := h
  exact ⟨r₀, k, hr₀, by omega, hchain, hfinal⟩

/-! ## Lookups as a whole -/

/-- A lookup gives the final record at the end of at most five hops, and nothing where there is none:
on an id that is not recorded, at a target that is not, at a split record, on a cycle, and at the end
of a longer chain. So an id that has moved to another shares its record, its statuses and what they
are resolved to, if the other comes to a record by at most four hops. -/
theorem feature_at_end_of_chain (fs : Features) (hfs : fs.Directed) :
    (∀ id r, fs.feature id = .ok (some r) ↔ fs.ComesTo 5 id r)
      ∧ (∀ id, fs.feature id = .ok none ↔ ¬ ∃ r, fs.ComesTo 5 id r)
      ∧ (∀ id, fs.feature id = .ok none ↔ fs.Lost id)
      ∧ ∀ a b moved, fs.lookup a = some moved → kind? moved = some "moved" →
          redirectTarget moved = .str b → (∃ r, fs.ComesTo 4 b r) →
            fs.feature a = fs.feature b ∧ fs.record a = fs.record b
              ∧ (∀ key, fs.status b key = (fs.status a key).mapError (Fault.naming b))
              ∧ ∀ key, resolve fs.sources a key = resolve fs.sources b key := by
  refine ⟨fun id r => feature_eq_some_iff, fun id => hfs.feature_eq_none_iff, fun id => ?_, ?_⟩
  · rw [hfs.feature_eq_none_iff]
    constructor
    · exact (fs.comesTo_or_lost id).resolve_left
    · rintro hlost ⟨r, hr⟩
      exact hlost.not_comesTo r hr
  · rintro a b moved ha hkind htarget ⟨r, hr⟩
    have hfa : fs.feature a = .ok (some r) := feature_eq_some_iff.mpr (hr.of_moved ha hkind htarget)
    have hfb : fs.feature b = .ok (some r) := feature_eq_some_iff.mpr (hr.mono (by decide))
    exact ⟨hfa.trans hfb.symm, (record_of_feature hfa).trans (record_of_feature hfb).symm,
      status_of_feature hfa hfb, resolve_of_feature hfa hfb⟩

/-- Six records that have moved one after the other, and two that have moved to each other. The second
of the six shares the record of the third; the first is one hop too far away. -/
theorem feature_at_end_of_chain_of_six :
    let gone (id : String) : Json.Fields := [("kind", .str "moved"), ("redirect_target", .str id)]
    let grid : Json.Fields := [("name", .str "Grid")]
    let fs : Features := [("a", gone "b"), ("b", gone "c"), ("c", gone "d"), ("d", gone "e"),
      ("e", gone "f"), ("f", gone "grid"), ("grid", grid), ("x", gone "y"), ("y", gone "x")]
    fs.Directed ∧ fs.feature "b" = .ok (some grid) ∧ fs.feature "a" = .ok none
      ∧ fs.feature "x" = .ok none
      ∧ ∀ key, resolve fs.sources "b" key = resolve fs.sources "c" key := by
  intro gone grid fs
  have hfs : fs.Directed := by
    intro id r hr
    obtain ⟨before, after, hsplit, -⟩ := List.lookup_eq_some_iff.mp hr
    have hmem : (id, r) ∈ fs := by simp [hsplit]
    simp only [fs, List.mem_cons, List.not_mem_nil, or_false, Prod.mk.injEq] at hmem
    have htarget : ∃ target, redirectTarget r = .str target := by
      rcases hmem with ⟨-, rfl⟩ | ⟨-, rfl⟩ | ⟨-, rfl⟩ | ⟨-, rfl⟩ | ⟨-, rfl⟩ | ⟨-, rfl⟩ | ⟨-, rfl⟩
        | ⟨-, rfl⟩ | ⟨-, rfl⟩
      all_goals exact ⟨_, rfl⟩
    obtain ⟨target, htarget⟩ := htarget
    rw [htarget]
    rintro (⟨vs, h⟩ | ⟨gs, h⟩)
    · cases h
    · cases h
  have hop {id : String} {r : Json.Fields} (h : fs.lookup id = some r) : fs.Hop (gone id) r :=
    ⟨rfl, id, rfl, h⟩
  have hfour : fs.Chain 4 (gone "d") grid :=
    .hop (hop rfl) (.hop (hop rfl) (.hop (hop rfl) (.hop (hop rfl) (.refl grid))))
  have hsix : fs.Chain 6 (gone "b") grid := .hop (hop rfl) (.hop (hop rfl) hfour)
  have hcycle : fs.Chain 2 (gone "y") (gone "y") := .hop (hop rfl) (.hop (hop rfl) (.refl (gone "y")))
  have hc : fs.ComesTo 4 "c" grid := ⟨gone "d", 4, rfl, by decide, hfour, by decide, by decide⟩
  obtain ⟨hsome, -, hnone, hmoved⟩ := feature_at_end_of_chain fs hfs
  obtain ⟨hfeature, -, -, hresolve⟩ := hmoved "b" "c" (gone "c") rfl rfl rfl ⟨grid, hc⟩
  refine ⟨hfs, ?_, ?_, ?_, hresolve⟩
  · rw [hfeature]
    exact (hsome "c" grid).mpr (hc.mono (by decide))
  · exact (hnone "a").mpr (.tooLong rfl hsix)
  · exact (hnone "x").mpr (.cyclic rfl (.refl (gone "y")) hcycle)

end Features

end WebAudit.Dataset
