import WebAudit.Dataset.Resolution
import WebAudit.Proofs.Outcome

/-!
# Where a status comes from

A status is taken from the record of the use, else from the record of the feature, else it is
limited. `resolution` says so field by field in terms of the two records that were found, without
any lookup that may fail, and `resolve_eq_resolution` says when looking up gives just that: as long
as a value that is asked for a field can be asked.
-/

namespace WebAudit

namespace Json

/-- The value under a key; null if there is none, or if the value is no object. -/
def member (key : String) (v : Json) : Json :=
  (v.field? key).getD .null

/-- The value is null or an object. -/
def IsRecord (v : Json) : Prop :=
  v = .null ∨ ∃ fs, v = .obj fs

@[simp] theorem member_null (key : String) : Json.null.member key = .null := rfl

theorem isNull_iff {v : Json} : v.isNull = true ↔ v = .null := by
  cases v <;> simp [isNull]

end Json

namespace Dataset

open Json (IsRecord member)

/-! ## Asking for fields -/

/-- The value can be asked for fields: it is an object, or it counts as an empty one. -/
def Readable (v : Json) : Prop :=
  v.isTruthy = true → ∃ fs, v = .obj fs

theorem readable_of_isRecord {v : Json} (h : v.IsRecord) : Readable v := by
  intro ht
  rcases h with rfl | h
  · cases ht
  · exact h

/-- A value that counts as empty has no fields. -/
theorem member_of_not_truthy {v : Json} (h : v.isTruthy = false) (key : String) :
    v.member key = .null := by
  cases v with
  | obj fs =>
    have hnil : fs = [] := by simpa [Json.isTruthy] using h
    rw [hnil]
    rfl
  | _ => rfl

theorem field_obj (fs : Json.Fields) (key : String) :
    field key (.obj fs) = .ok ((Json.obj fs).member key) := rfl

theorem field_orEmpty {v : Json} (h : Readable v) (key : String) :
    field key (orEmpty v) = .ok (v.member key) := by
  cases ht : v.isTruthy with
  | true =>
    obtain ⟨fs, rfl⟩ := h ht
    simp only [orEmpty, ht, if_true]
    rfl
  | false =>
    rw [member_of_not_truthy ht]
    simp only [orEmpty, ht, Bool.false_eq_true, if_false]
    rfl

/-- Only a readable value answers. -/
theorem readable_of_field_orEmpty {v w : Json} {key : String}
    (h : field key (orEmpty v) = .ok w) : Readable v := by
  intro ht
  simp only [orEmpty, ht, if_true] at h
  unfold field at h
  split at h
  · exact ⟨_, rfl⟩
  · cases h

/-! ## Support maps -/

/-- The versions that a value states, by browser. -/
def Support.stated (v : Json) : Support where
  chrome := v.member "chrome"
  firefox := v.member "firefox"
  safari := v.member "safari"
  edge := v.member "edge"

theorem Support.ofJson_eq {v : Json} (h : Readable v) : Support.ofJson v = .ok (stated v) := by
  unfold Support.ofJson
  cases ht : v.isTruthy with
  | true =>
    obtain ⟨fs, rfl⟩ := h ht
    rfl
  | false =>
    simp only [stated, member_of_not_truthy ht]
    rfl

theorem Support.readable_of_ofJson {v : Json} {m : Support} (h : Support.ofJson v = .ok m) :
    Readable v := by
  intro ht
  simp only [Support.ofJson, ht, if_true] at h
  obtain ⟨chrome, hchrome, -⟩ := bind_eq_ok_iff.mp h
  unfold field at hchrome
  split at hchrome
  · exact ⟨_, rfl⟩
  · cases hchrome

/-! ## Statuses -/

theorem Baseline.ofJson?_eq_some_iff {v : Json} {b : Baseline} :
    Baseline.ofJson? v = some b ↔ v = b.toJson := by
  constructor
  · intro h
    unfold Baseline.ofJson? at h
    split at h <;> cases h <;> rfl
  · rintro rfl
    exact Baseline.ofJson?_toJson b

/-! ## The two records -/

namespace Sources

/-- What is found of a feature: null if there is no record or looking it up fails. -/
def featureRecord (s : Sources) (id : String) : Json :=
  found (s.feature id)

/-- The status in the record of a feature. -/
def featureStatus (s : Sources) (id : String) : Json :=
  (s.featureRecord id).member "status"

/-- What is found of a use by its key: null if the key is empty, or as with features. -/
def keyRecord (s : Sources) (id : String) : Option String → Json
  | none => .null
  | some k => if k = "" then .null else found (s.status id k)

/-- The definite status that the record of the use states. -/
def keyBaseline (s : Sources) (id : String) (key : Option String) : Option Baseline :=
  Baseline.ofJson? ((s.keyRecord id key).member "baseline")

/-- The definite status that the record of the feature states. -/
def featureBaseline (s : Sources) (id : String) : Option Baseline :=
  Baseline.ofJson? ((s.featureStatus id).member "baseline")

/-- The support map that counts: that of the use if its status does and there is one, and else that
of the feature. -/
def supportRecord (s : Sources) (id : String) (key : Option String) : Json :=
  if (s.keyBaseline id key).isSome && !((s.keyRecord id key).member "support").isNull then
    (s.keyRecord id key).member "support"
  else (s.featureStatus id).member "support"

/-- What the two records come to. -/
def resolution (s : Sources) (id : String) (key : Option String) : Resolution where
  baseline := ((s.keyBaseline id key).or (s.featureBaseline id)).getD .limited
  support := .stated (s.supportRecord id key)
  source := if (s.keyBaseline id key).isSome then .supportKey
    else if (s.featureBaseline id).isSome then .feature else .default
  name := (s.featureRecord id).member "name"
  spec := first ((s.featureRecord id).member "spec")
  mdn := first ((s.featureRecord id).member "mdn_url")
  lowDate := (s.featureStatus id).member "baseline_low_date"
  highDate := (s.featureStatus id).member "baseline_high_date"

end Sources

variable {s : Sources} {id : String} {key : Option String}

theorem keyStatus_eq (h : (s.keyRecord id key).IsRecord) :
    keyStatus s id key
      = .ok ((s.keyBaseline id key).map fun b => (b, (s.keyRecord id key).member "support")) := by
  unfold Sources.keyBaseline
  cases key with
  | none => rfl
  | some k =>
    by_cases hk : k = ""
    · subst hk
      rfl
    · have hrecord : s.keyRecord id (some k) = found (s.status id k) := if_neg hk
      rw [hrecord] at h ⊢
      simp only [keyStatus, beq_iff_eq, hk, if_false]
      rcases h with hnull | ⟨fs, hobj⟩
      · rw [hnull]
        rfl
      · rw [hobj]
        simp only [field_obj, ok_bind]
        cases Baseline.ofJson? ((Json.obj fs).member "baseline") with
        | none => rfl
        | some b => rfl

/-- What is picked from the records. -/
theorem pick_eq (hstatus : Readable (s.featureStatus id)) :
    pick (orEmpty (s.featureStatus id))
        ((s.keyBaseline id key).map fun b => (b, (s.keyRecord id key).member "support"))
      = .ok ((s.resolution id key).baseline, (s.resolution id key).source,
          if (s.keyBaseline id key).isSome then (s.keyRecord id key).member "support"
          else .null) := by
  unfold Sources.resolution
  cases s.keyBaseline id key with
  | some b => rfl
  | none =>
    simp only [pick, Option.map_none, field_orEmpty hstatus, ok_bind]
    have hstated : Baseline.ofJson? ((s.featureStatus id).member "baseline")
        = s.featureBaseline id := rfl
    rw [hstated]
    cases s.featureBaseline id with
    | some b => rfl
    | none => rfl

theorem supportOr_eq (hstatus : Readable (s.featureStatus id)) :
    supportOr (orEmpty (s.featureStatus id))
        (if (s.keyBaseline id key).isSome then (s.keyRecord id key).member "support" else .null)
      = .ok (s.supportRecord id key) := by
  unfold supportOr Sources.supportRecord
  cases (s.keyBaseline id key).isSome with
  | false => simp [Json.isNull, field_orEmpty hstatus]
  | true =>
    cases hnull : ((s.keyRecord id key).member "support").isNull with
    | true => simp [hnull, field_orEmpty hstatus]
    | false => simp [hnull]

/-- **Looking up gives what the records come to,** as long as all that is asked for a field is
readable. -/
theorem resolve_eq_resolution (hfeature : Readable (s.featureRecord id))
    (hstatus : Readable (s.featureStatus id)) (hkey : (s.keyRecord id key).IsRecord)
    (hsupport : Readable (s.supportRecord id key)) :
    resolve s id key = .ok (s.resolution id key) := by
  have hF := field_orEmpty hfeature
  have hS := field_orEmpty hstatus
  have hrecord : found (s.feature id) = s.featureRecord id := rfl
  have hstatusRecord : (s.featureRecord id).member "status" = s.featureStatus id := rfl
  simp only [resolve, hrecord, hF, ok_bind, hstatusRecord, keyStatus_eq hkey, pick_eq hstatus,
    supportOr_eq hstatus, Support.ofJson_eq hsupport, hS, pure_eq_ok]
  rfl

/-- Nothing else can be resolved. -/
theorem readable_of_resolve {r : Resolution} (hkey : (s.keyRecord id key).IsRecord)
    (h : resolve s id key = .ok r) :
    Readable (s.featureRecord id) ∧ Readable (s.featureStatus id)
      ∧ Readable (s.supportRecord id key) := by
  simp only [resolve, keyStatus_eq hkey, ok_bind, bind_eq_ok_iff] at h
  obtain ⟨status, hst, picked, hpick, support, hsup, m, hm, _, -, _, -, _, -, low, hlow, -⟩ := h
  have hfeature : Readable (s.featureRecord id) := readable_of_field_orEmpty hst
  obtain rfl : s.featureStatus id = status :=
    Except.ok.inj ((field_orEmpty hfeature "status").symm.trans hst)
  have hstatus : Readable (s.featureStatus id) := readable_of_field_orEmpty hlow
  rw [pick_eq hstatus] at hpick
  obtain rfl := Except.ok.inj hpick
  rw [supportOr_eq hstatus] at hsup
  obtain rfl := Except.ok.inj hsup
  exact ⟨hfeature, hstatus, Support.readable_of_ofJson hm⟩

/-- Names and dates come from the record of the feature alone. -/
theorem metadata_of_resolve {r : Resolution} (h : resolve s id key = .ok r) :
    r.name = (s.featureRecord id).member "name"
      ∧ r.spec = first ((s.featureRecord id).member "spec")
      ∧ r.mdn = first ((s.featureRecord id).member "mdn_url")
      ∧ r.lowDate = (s.featureStatus id).member "baseline_low_date"
      ∧ r.highDate = (s.featureStatus id).member "baseline_high_date" := by
  simp only [resolve, bind_eq_ok_iff] at h
  obtain ⟨status, hst, _, -, _, -, _, -, _, -, name, hname, spec, hspec, mdn, hmdn, low, hlow, high,
    hhigh, hr⟩ := h
  have hF := field_orEmpty (readable_of_field_orEmpty hst : Readable (s.featureRecord id))
  obtain rfl : s.featureStatus id = status := Except.ok.inj ((hF "status").symm.trans hst)
  have hS := field_orEmpty (readable_of_field_orEmpty hlow)
  obtain rfl := Except.ok.inj hr
  exact ⟨Except.ok.inj (hname.symm.trans (hF _)),
    congrArg first (Except.ok.inj (hspec.symm.trans (hF _))),
    congrArg first (Except.ok.inj (hmdn.symm.trans (hF _))),
    Except.ok.inj (hlow.symm.trans (hS _)), Except.ok.inj (hhigh.symm.trans (hS _))⟩

/-! ## The tiers -/

/-- The record has a definite status. -/
def States (v : Json) (b : Baseline) : Prop :=
  v.field? "baseline" = some b.toJson

theorem ofJson?_member_eq_some_iff {v : Json} {b : Baseline} :
    Baseline.ofJson? (v.member "baseline") = some b ↔ States v b := by
  rw [Baseline.ofJson?_eq_some_iff]
  unfold Json.member States
  cases v.field? "baseline" with
  | none => cases b <;> simp [Baseline.toJson]
  | some w => simp

namespace Sources

/-- The key is not empty, and a record is found under it that has the definite status. -/
def KeyStates (s : Sources) (id : String) (key : Option String) (b : Baseline) : Prop :=
  ∃ k v, key = some k ∧ k ≠ "" ∧ s.status id k = .ok v ∧ States v b

/-- A record of the feature is found whose status is the definite one. -/
def FeatureStates (s : Sources) (id : String) (b : Baseline) : Prop :=
  ∃ v, s.feature id = .ok v ∧ States (v.member "status") b

theorem not_states_null (b : Baseline) : ¬ States .null b := by
  intro h
  cases h

theorem keyBaseline_eq_some_iff {b : Baseline} :
    s.keyBaseline id key = some b ↔ s.KeyStates id key b := by
  unfold keyBaseline KeyStates
  rw [ofJson?_member_eq_some_iff]
  cases key with
  | none => simpa [keyRecord] using not_states_null b
  | some k =>
    by_cases hk : k = ""
    · simpa [keyRecord, hk] using not_states_null b
    · cases hv : s.status id k with
      | error e => simpa [keyRecord, hk, hv, found] using not_states_null b
      | ok v => simp [keyRecord, hk, hv, found]

theorem featureBaseline_eq_some_iff {b : Baseline} :
    s.featureBaseline id = some b ↔ s.FeatureStates id b := by
  unfold featureBaseline FeatureStates
  rw [ofJson?_member_eq_some_iff]
  cases hv : s.feature id with
  | error e => simpa [featureStatus, featureRecord, hv, found] using not_states_null b
  | ok v => simp [featureStatus, featureRecord, hv, found]

theorem resolution_supportKey_iff {b : Baseline} :
    (s.resolution id key).source = .supportKey ∧ (s.resolution id key).baseline = b
      ↔ s.KeyStates id key b := by
  rw [← keyBaseline_eq_some_iff]
  unfold resolution
  cases s.keyBaseline id key with
  | some b' => simp
  | none => cases s.featureBaseline id <;> simp

theorem resolution_feature_iff {b : Baseline} :
    (s.resolution id key).source = .feature ∧ (s.resolution id key).baseline = b
      ↔ (¬ ∃ b', s.KeyStates id key b') ∧ s.FeatureStates id b := by
  simp only [← keyBaseline_eq_some_iff, ← featureBaseline_eq_some_iff]
  unfold resolution
  cases s.keyBaseline id key with
  | some b' => simp
  | none => cases s.featureBaseline id <;> simp

theorem resolution_default_iff :
    (s.resolution id key).source = .default ∧ (s.resolution id key).baseline = .limited
      ↔ (¬ ∃ b, s.KeyStates id key b) ∧ ¬ ∃ b, s.FeatureStates id b := by
  simp only [← keyBaseline_eq_some_iff, ← featureBaseline_eq_some_iff]
  unfold resolution
  cases s.keyBaseline id key with
  | some b' => simp
  | none => cases s.featureBaseline id <;> simp

theorem support_resolution_of_key (hsource : (s.resolution id key).source = .supportKey)
    (hsupport : (s.keyRecord id key).member "support" ≠ .null) :
    (s.resolution id key).support = .stated ((s.keyRecord id key).member "support") := by
  obtain ⟨b, hb⟩ : ∃ b, s.keyBaseline id key = some b :=
    ⟨_, keyBaseline_eq_some_iff.mpr (resolution_supportKey_iff.mp ⟨hsource, rfl⟩)⟩
  have hnull : ((s.keyRecord id key).member "support").isNull = false :=
    Bool.eq_false_iff.mpr (mt Json.isNull_iff.mp hsupport)
  simp [resolution, supportRecord, hb, hnull]

theorem support_resolution_of_feature (h : (s.resolution id key).source ≠ .supportKey
      ∨ (s.keyRecord id key).member "support" = .null) :
    (s.resolution id key).support = .stated ((s.featureStatus id).member "support") := by
  rcases h with hsource | hnull
  · have hnone : s.keyBaseline id key = none := by
      rw [Option.eq_none_iff_forall_ne_some]
      intro b hb
      exact hsource (resolution_supportKey_iff.mpr (keyBaseline_eq_some_iff.mp hb)).1
    simp [resolution, supportRecord, hnone]
  · simp [resolution, supportRecord, hnull, Json.isNull]

/-- The records are null or objects, and so are the status and the support maps in them. -/
structure WellShaped (s : Sources) (id : String) (key : Option String) : Prop where
  feature : (s.featureRecord id).IsRecord
  status : (s.featureStatus id).IsRecord
  support : ((s.featureStatus id).member "support").IsRecord
  keyRecord : (s.keyRecord id key).IsRecord
  keySupport : ((s.keyRecord id key).member "support").IsRecord

/-- The same sources with nothing found where looking up fails. -/
def mended (s : Sources) : Sources where
  feature id := .ok (found (s.feature id))
  status id key := .ok (found (s.status id key))

theorem WellShaped.supportRecord (h : s.WellShaped id key) : (s.supportRecord id key).IsRecord := by
  unfold Sources.supportRecord
  split
  · exact h.keySupport
  · exact h.support

end Sources

theorem resolve_mended (s : Sources) (id : String) (key : Option String) :
    resolve s.mended id key = resolve s id key := rfl

theorem Sources.WellShaped.resolve_eq (h : s.WellShaped id key) :
    resolve s id key = .ok (s.resolution id key) :=
  resolve_eq_resolution (readable_of_isRecord h.feature) (readable_of_isRecord h.status) h.keyRecord
    (readable_of_isRecord h.supportRecord)

/-- **A status comes from the most precise record that states one.** The support map falls back to
that of the feature also where only the map is missing, and what else is known about a feature is
the same for all its uses. Failing to look up a record is the same as finding none. -/
theorem resolve_by_precedence (s : Sources) (id : String) (key : Option String)
    (h : s.WellShaped id key) :
    ∃ r, resolve s id key = .ok r
      ∧ (∀ b, r.source = .supportKey ∧ r.baseline = b ↔ s.KeyStates id key b)
      ∧ (∀ b, r.source = .feature ∧ r.baseline = b
          ↔ (¬ ∃ b', s.KeyStates id key b') ∧ s.FeatureStates id b)
      ∧ (r.source = .default ∧ r.baseline = .limited
          ↔ (¬ ∃ b, s.KeyStates id key b) ∧ ¬ ∃ b, s.FeatureStates id b)
      ∧ (r.source = .supportKey → (s.keyRecord id key).member "support" ≠ .null →
          r.support = .stated ((s.keyRecord id key).member "support"))
      ∧ (r.source ≠ .supportKey ∨ (s.keyRecord id key).member "support" = .null →
          r.support = .stated ((s.featureStatus id).member "support"))
      ∧ (∀ s' key' r', s'.featureRecord id = s.featureRecord id → resolve s' id key' = .ok r' →
          r'.name = r.name ∧ r'.spec = r.spec ∧ r'.mdn = r.mdn ∧ r'.lowDate = r.lowDate
            ∧ r'.highDate = r.highDate)
      ∧ resolve s.mended id key = .ok r := by
  refine ⟨s.resolution id key, h.resolve_eq, ?_, ?_, ?_, ?_, ?_, ?_,
    (resolve_mended s id key).trans h.resolve_eq⟩
  · exact fun b => Sources.resolution_supportKey_iff
  · exact fun b => Sources.resolution_feature_iff
  · exact Sources.resolution_default_iff
  · exact Sources.support_resolution_of_key
  · exact Sources.support_resolution_of_feature
  · intro s' key' r' hrecord hr'
    have hstatus : s'.featureStatus id = s.featureStatus id :=
      congrArg (Json.member "status") hrecord
    have hmeta := metadata_of_resolve hr'
    rw [hrecord, hstatus] at hmeta
    exact hmeta

/-- The use is limited where the feature is not, and only the feature has a support map. -/
theorem resolve_by_precedence_limited_use :
    let s : Sources :=
      { feature := fun _ => .ok (.obj [("status", .obj [("baseline", .str "high"),
          ("support", .obj [("chrome", .str "57")])])])
        status := fun _ _ => .ok (.obj [("baseline", .bool false), ("support", .null)]) }
    s.WellShaped "grid" (some "css.grid") ∧ ∃ r, resolve s "grid" (some "css.grid") = .ok r
      ∧ r.source = .supportKey ∧ r.baseline = .limited
      ∧ r.support = .stated (.obj [("chrome", .str "57")]) := by
  intro s
  have h : s.WellShaped "grid" (some "css.grid") :=
    ⟨.inr ⟨_, rfl⟩, .inr ⟨_, rfl⟩, .inr ⟨_, rfl⟩, .inr ⟨_, rfl⟩, .inl rfl⟩
  obtain ⟨r, hr, hkey, -, -, -, hsupport, -, -⟩ :=
    resolve_by_precedence s "grid" (some "css.grid") h
  have hstates : s.KeyStates "grid" (some "css.grid") .limited :=
    ⟨_, _, rfl, by decide, rfl, rfl⟩
  obtain ⟨hsource, hbaseline⟩ := (hkey .limited).mpr hstates
  exact ⟨h, r, hr, hsource, hbaseline, hsupport (.inr rfl)⟩

end Dataset

end WebAudit
