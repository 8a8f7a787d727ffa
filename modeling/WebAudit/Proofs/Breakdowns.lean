import WebAudit.Proofs.Redirects
import WebAudit.Proofs.Resolution
import WebAudit.Service.Handle

/-!
# What a dataset can break

Any object counts as a record, so a payload can hold records that cannot be resolved. `Resolvable`
says which can: those whose status can be asked for fields, and the support map that counts as well.
Reports, analyses and the service break down just where a record they need is not resolvable; the
service moreover where a chain of moved records goes astray, and where a number it has to write is
not finite.
-/

namespace WebAudit

namespace Dataset

/-! ## Records of a dataset -/

namespace Features

variable {fs : Features} {id : String} {key : Option String}

/-- The status of the feature can be asked for fields, and so can the support map that counts. -/
def Resolvable (fs : Features) (id : String) (key : Option String) : Prop :=
  Readable (fs.sources.featureStatus id) ∧ Readable (fs.sources.supportRecord id key)

theorem isRecord_record {v : Json} (h : fs.record id = .ok v) : v.IsRecord := by
  unfold record at h
  obtain ⟨r, -, hv⟩ := bind_eq_ok_iff.mp h
  obtain rfl := Except.ok.inj hv
  cases r with
  | none => exact .inl rfl
  | some r => exact .inr ⟨r, rfl⟩

theorem isRecord_status {k : String} {v : Json} (h : fs.status id k = .ok v) : v.IsRecord := by
  unfold status at h
  obtain ⟨r, -, h⟩ := bind_eq_ok_iff.mp h
  cases r with
  | none => cases h
  | some r =>
    obtain ⟨status, -, h⟩ := bind_eq_ok_iff.mp h
    obtain ⟨byKey, -, h⟩ := bind_eq_ok_iff.mp h
    obtain ⟨use, -, h⟩ := bind_eq_ok_iff.mp h
    -- Only an object is given back; all else is no status.
    split at h
    · obtain rfl := Except.ok.inj h
      exact .inr ⟨_, rfl⟩
    · cases h

theorem isRecord_found {r : Except Fault Json} (h : ∀ v, r = .ok v → v.IsRecord) :
    (found r).IsRecord := by
  cases r with
  | ok v => exact h v rfl
  | error e => exact .inl rfl

theorem isRecord_featureRecord (fs : Features) (id : String) :
    (fs.sources.featureRecord id).IsRecord :=
  isRecord_found fun _ => isRecord_record

theorem isRecord_keyRecord (fs : Features) (id : String) (key : Option String) :
    (fs.sources.keyRecord id key).IsRecord := by
  cases key with
  | none => exact .inl rfl
  | some k =>
    by_cases hk : k = ""
    · exact .inl (if_pos hk)
    · rw [show fs.sources.keyRecord id (some k) = found (fs.status id k) from if_neg hk]
      exact isRecord_found fun _ => isRecord_status

theorem Resolvable.resolve_eq (h : fs.Resolvable id key) :
    resolve fs.sources id key = .ok (fs.sources.resolution id key) :=
  resolve_eq_resolution (readable_of_isRecord (isRecord_featureRecord fs id)) h.1
    (isRecord_keyRecord fs id key) h.2

theorem exists_resolve_iff :
    (∃ r, resolve fs.sources id key = .ok r) ↔ fs.Resolvable id key := by
  constructor
  · rintro ⟨r, hr⟩
    exact (readable_of_resolve (isRecord_keyRecord fs id key) hr).2
  · intro h
    exact ⟨_, h.resolve_eq⟩

end Features

end Dataset

/-! ## Reports -/

open Dataset (Features Resolver Store)

theorem Report.exists_create_iff (c : Config) (resolve : Resolver) (ds : List Detection) :
    (∃ r, Report.create c resolve ds = .ok r)
      ↔ ∀ d ∈ ds, d.featureId ∉ c.ignored →
          ∃ res, resolve d.featureId d.supportKey = .ok res := by
  induction ds with
  | nil => simp [Report.create]
  | cons d ds ih =>
    rw [List.forall_mem_cons, ← ih]
    by_cases hd : d.featureId ∈ c.ignored
    · simp [Report.create, hd]
    · simp only [Report.create, List.contains_iff_mem, hd, if_false, not_false_eq_true,
        true_implies, bind_eq_ok_iff]
      constructor
      · rintro ⟨r, res, hres, q, hq, -⟩
        exact ⟨⟨res, hres⟩, q, hq⟩
      · rintro ⟨⟨res, hres⟩, q, hq⟩
        exact ⟨_, res, hres, q, hq, rfl⟩

/-! ## The service -/

namespace Service

/-- The feature is resolvable, and what is known of it can be written. -/
def Presentable (fs : Features) (id : String) (key : Option String) : Prop :=
  fs.Resolvable id key ∧ isFinite (resolutionJson id (fs.sources.resolution id key)) = true

/-- A request for a feature is answered by what is known of the feature. -/
theorem value_handle_feature {s : Session} {r : Request} {id : String}
    (hroute : route? r.path = some (.feature id)) (hmethod : r.method = "GET") :
    (handle s r).value = feature s id (r.query.lookup "support_key") := by
  simp only [handle, hroute, hmethod, Route.method, beq_self_eq_true, if_true]
  rfl

variable {s : Session} {id : String} {key : Option String}

theorem sources_feature (s : Session) (id : String) :
    s.sources.feature id
      = (s.store.features.feature id).map fun f => (f.map Json.obj).getD .null := by
  show s.store.features.record id = _
  unfold Features.record
  cases s.store.features.feature id with
  | error e => rfl
  | ok f => rfl

theorem feature_of_error {e : Dataset.Fault} (h : s.store.features.feature id = .error e) :
    feature s id key = brokenDown := by
  simp only [feature, sources_feature, h, Except.map]

theorem status_feature_of_none (h : s.store.features.feature id = .ok none) :
    (feature s id key).status = 404 := by
  simp only [feature, sources_feature, h, Except.map]
  rfl

theorem status_feature_of_presentable {f : Json.Fields}
    (h : s.store.features.feature id = .ok (some f))
    (hpresent : Presentable s.store.features id key) : (feature s id key).status = 200 := by
  have hresolve : s.resolver id key = .ok _ := hpresent.1.resolve_eq
  simp only [feature, sources_feature, h, Except.map, Option.map_some, Option.getD_some, hresolve,
    respond, hpresent.2, if_true]

theorem feature_of_not_presentable {f : Json.Fields}
    (h : s.store.features.feature id = .ok (some f))
    (hpresent : ¬ Presentable s.store.features id key) : feature s id key = brokenDown := by
  cases hr : s.resolver id key with
  | error e =>
    simp only [feature, sources_feature, h, Except.map, Option.map_some, Option.getD_some, hr]
  | ok r =>
    -- What resolves is resolvable, so it is the writing that fails.
    have hres : s.store.features.Resolvable id key := Features.exists_resolve_iff.mp ⟨r, hr⟩
    obtain rfl : s.store.features.sources.resolution id key = r :=
      Except.ok.inj (hres.resolve_eq.symm.trans hr)
    have hinfinite := mt (And.intro hres) hpresent
    simp only [feature, sources_feature, h, Except.map, Option.map_some, Option.getD_some, hr,
      respond, hinfinite, Bool.false_eq_true, if_false]

/-- Which of the three answers on a feature is given. -/
theorem status_feature_iff (s : Session) (id : String) (key : Option String) :
    ((feature s id key).status = 404 ↔ s.store.features.feature id = .ok none)
      ∧ ((feature s id key).status = 500
        ↔ s.store.features.Astray id
          ∨ (∃ f, s.store.features.feature id = .ok (some f))
            ∧ ¬ Presentable s.store.features id key)
      ∧ ((feature s id key).status = 200
        ↔ (∃ f, s.store.features.feature id = .ok (some f))
          ∧ Presentable s.store.features id key) := by
  have hastray : s.store.features.Astray id ↔ ∃ e, s.store.features.feature id = .error e := by
    simp only [Features.feature_eq_error_iff, exists_and_right, exists_eq, true_and]
  rw [hastray]
  cases h : s.store.features.feature id with
  | error e => simp [feature_of_error h, brokenDown]
  | ok f =>
    cases f with
    | none => simp [status_feature_of_none h]
    | some f =>
      by_cases hpresent : Presentable s.store.features id key
      · simp [status_feature_of_presentable h hpresent, hpresent]
      · simp [feature_of_not_presentable h hpresent, hpresent, brokenDown]

end Service

/-! ## All payloads -/

open Service (Presentable Request)

/-- **A payload breaks what needs a record that is not resolvable, and nothing else.** The service
also breaks down over a chain that goes astray, which a report passes over as a feature that is not
known, and over a number that it cannot write. -/
theorem breakdowns_of_payload (store : Store) (payload : Json) :
    let fs := (store.load payload).1.features
    (∀ id key, (∃ r, Dataset.resolve fs.sources id key = .ok r) ↔ fs.Resolvable id key)
      ∧ (∀ c ds, (∃ r, Report.create c (Dataset.resolve fs.sources) ds = .ok r)
          ↔ ∀ d ∈ ds, d.featureId ∉ c.ignored → fs.Resolvable d.featureId d.supportKey)
      ∧ (∀ override content type path,
          (∃ r, (analyzeWith (Dataset.resolve fs.sources) override content type path).value = .ok r)
            ↔ ∀ d ∈ (detect content type path).detections,
                d.featureId ∉ (Config.merge override .default).1.ignored →
                  fs.Resolvable d.featureId d.supportKey)
      ∧ (∀ (s : Session) (r : Request) id, s.store = (store.load payload).1 →
          Service.route? r.path = some (.feature id) → r.method = "GET" →
            let key := r.query.lookup "support_key"
            let status := (Service.handle s r).value.status
            (status = 404 ↔ fs.feature id = .ok none)
              ∧ (status = 500 ↔ fs.Astray id
                  ∨ (∃ f, fs.feature id = .ok (some f)) ∧ ¬ Presentable fs id key)
              ∧ (status = 200 ↔ (∃ f, fs.feature id = .ok (some f)) ∧ Presentable fs id key)) := by
  intro fs
  have hcreate (c : Config) (ds : List Detection) :
      (∃ r, Report.create c (Dataset.resolve fs.sources) ds = .ok r)
        ↔ ∀ d ∈ ds, d.featureId ∉ c.ignored → fs.Resolvable d.featureId d.supportKey := by
    simp only [Report.exists_create_iff, Features.exists_resolve_iff]
  refine ⟨fun id key => Features.exists_resolve_iff, hcreate, ?_, ?_⟩
  · intro override content type path
    exact hcreate _ _
  · intro s r id hs hroute hmethod key status
    have hstatus := Service.status_feature_iff s id key
    rw [hs, ← Service.value_handle_feature hroute hmethod] at hstatus
    exact hstatus

/-- A status that is a text cannot be resolved, and a record that has moved to a list cannot even be
looked up. -/
theorem breakdowns_of_payload_without_shape :
    let payload : Json := .obj [("features", .obj [("grid", .obj [("status", .str "high")]),
      ("flex", .obj [("kind", .str "moved"), ("redirect_target", .arr [])])])]
    let store := ((Store.empty {} none none).load payload).1
    let s : Session := ⟨⟨[]⟩, [], store, .failed, { year := 2025, month := 1, day := 1 }⟩
    (¬ ∃ r, Dataset.resolve store.features.sources "grid" none = .ok r)
      ∧ (Service.handle s { method := "GET", path := "/features/flex" }).value.status = 500 := by
  intro payload store s
  obtain ⟨hresolve, -, -, hhandle⟩ := breakdowns_of_payload (Store.empty {} none none) payload
  constructor
  · rw [hresolve]
    rintro ⟨hstatus, -⟩
    obtain ⟨gs, hgs⟩ := hstatus rfl
    cases hgs
  · have hroute : Service.route? "/features/flex" = some (.feature "flex") := by decide +kernel
    obtain ⟨-, hbroken, -⟩ :=
      hhandle s { method := "GET", path := "/features/flex" } "flex" rfl hroute rfl
    exact hbroken.mpr (.inl ⟨_, rfl, 0, _, by decide, .refl _, rfl, .inl ⟨[], rfl⟩⟩)

end WebAudit
