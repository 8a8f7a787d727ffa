import WebAudit.Proofs.Breakdowns
import WebAudit.Proofs.MovedFeatures

/-!
# Datasets of the right shape

A record has the right shape if its status is an object or missing, and so are the support maps in
it. Whatever is looked up comes from a single record of the dataset, at the end of a chain of moved
ones, so in a dataset of such records every feature and every use of it resolves.
-/

namespace WebAudit.Dataset

/-- The value under the keys of a record, one inside the other. -/
def within (r : Json.Fields) (keys : List String) : Json :=
  keys.foldl (fun v key => v.member key) (.obj r)

/-- The status of a record is null or an object, and so are the support maps in it. -/
structure Shaped (r : Json.Fields) : Prop where
  status : (within r ["status"]).IsRecord
  support : (within r ["status", "support"]).IsRecord
  keySupport : ∀ key, (within r ["status", "by_compat_key", key, "support"]).IsRecord

namespace Features

/-- Every record has the right shape. -/
def WellShaped (fs : Features) : Prop :=
  ∀ id r, fs.lookup id = some r → Shaped r

variable {fs : Features} {id : String}

theorem exists_lookup_of_feature {r : Json.Fields} (h : fs.feature id = .ok (some r)) :
    ∃ id', fs.lookup id' = some r := by
  obtain ⟨r₀, k, hr₀, -, hchain, -⟩ := feature_eq_some_iff.mp h
  exact hchain.exists_lookup hr₀

/-- What is found of a feature is nothing or a record of the dataset. -/
theorem featureRecord_cases (fs : Features) (id : String) :
    fs.sources.featureRecord id = .null
      ∨ ∃ id' r, fs.lookup id' = some r ∧ fs.sources.featureRecord id = .obj r := by
  show found (fs.record id) = .null ∨ ∃ id' r, _ ∧ found (fs.record id) = .obj r
  cases h : fs.feature id with
  | error e =>
    rw [record, h]
    exact .inl rfl
  | ok found =>
    cases found with
    | none =>
      rw [record, h]
      exact .inl rfl
    | some r =>
      obtain ⟨id', hr⟩ := exists_lookup_of_feature h
      rw [record_of_feature h]
      exact .inr ⟨id', r, hr, rfl⟩

/-- The status of a use stands in a record of the dataset. -/
theorem exists_within_of_status {key : String} {v : Json} (h : fs.status id key = .ok v) :
    ∃ id' r, fs.lookup id' = some r ∧ v = within r ["status", "by_compat_key", key] := by
  unfold status at h
  obtain ⟨found, hfeature, h⟩ := bind_eq_ok_iff.mp h
  cases found with
  | none => cases h
  | some r =>
    obtain ⟨status, hstatus, h⟩ := bind_eq_ok_iff.mp h
    obtain ⟨byKey, hbyKey, h⟩ := bind_eq_ok_iff.mp h
    obtain ⟨use, huse, h⟩ := bind_eq_ok_iff.mp h
    obtain ⟨id', hr⟩ := exists_lookup_of_feature hfeature
    rw [field_obj] at hstatus
    obtain rfl := Except.ok.inj hstatus
    -- what answered could be asked, so its fields are its members
    rw [field_orEmpty (readable_of_field_orEmpty hbyKey)] at hbyKey
    obtain rfl := Except.ok.inj hbyKey
    rw [field_orEmpty (readable_of_field_orEmpty huse)] at huse
    obtain rfl := Except.ok.inj huse
    refine ⟨id', r, hr, ?_⟩
    split at h
    next s hs =>
      obtain rfl := Except.ok.inj h
      exact hs.symm
    · cases h

theorem keyRecord_cases (fs : Features) (id : String) (key : Option String) :
    fs.sources.keyRecord id key = .null
      ∨ ∃ id' r k, fs.lookup id' = some r
        ∧ fs.sources.keyRecord id key = within r ["status", "by_compat_key", k] := by
  cases key with
  | none => exact .inl rfl
  | some k =>
    by_cases hk : k = ""
    · exact .inl (if_pos hk)
    · rw [show fs.sources.keyRecord id (some k) = found (fs.status id k) from if_neg hk]
      cases hstatus : fs.status id k with
      | error e => exact .inl rfl
      | ok v =>
        obtain ⟨id', r, hr, rfl⟩ := exists_within_of_status hstatus
        exact .inr ⟨id', r, k, hr, rfl⟩

/-- The sources of a well-shaped dataset are well-shaped wherever they are asked. -/
theorem WellShaped.sources (h : fs.WellShaped) (id : String) (key : Option String) :
    fs.sources.WellShaped id key := by
  have hfeature : (fs.sources.featureStatus id).IsRecord
      ∧ ((fs.sources.featureStatus id).member "support").IsRecord := by
    unfold Sources.featureStatus
    rcases featureRecord_cases fs id with hnull | ⟨id', r, hr, hrecord⟩
    · rw [hnull]
      exact ⟨.inl rfl, .inl rfl⟩
    · rw [hrecord]
      exact ⟨(h id' r hr).status, (h id' r hr).support⟩
  have hkey : ((fs.sources.keyRecord id key).member "support").IsRecord := by
    rcases keyRecord_cases fs id key with hnull | ⟨id', r, k, hr, hrecord⟩
    · rw [hnull]
      exact .inl rfl
    · rw [hrecord]
      exact (h id' r hr).keySupport k
  exact ⟨isRecord_featureRecord fs id, hfeature.1, hfeature.2, isRecord_keyRecord fs id key, hkey⟩

/-- **A well-shaped dataset resolves everything.** -/
theorem WellShaped.resolve_eq (h : fs.WellShaped) (id : String) (key : Option String) :
    resolve fs.sources id key = .ok (fs.sources.resolution id key) :=
  (h.sources id key).resolve_eq

end Features

end WebAudit.Dataset
