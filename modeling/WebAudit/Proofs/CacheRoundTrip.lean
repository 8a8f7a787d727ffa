import WebAudit.Proofs.FileWrites
import WebAudit.Proofs.JsonReadBack
import WebAudit.Proofs.StoreRuns
import WebAudit.Proofs.Timestamps

/-!
# Opening undoes saving

A proper store writes a cache file from which a new store on the same path takes the same features in
the same order and the same time, without a warning. The content of the file is well-formed, so it
is read back as it was written; under `features` the ids of the records may be any texts, the names
of the two fields of the file among them.
-/

namespace WebAudit.Dataset

open Files (Tree)
open Json (Fields WellFormed HasFloat Survives)

variable {s : Store} {files t : Tree} {working : List String}

/-! ## The content of a cache file -/

theorem Store.Proper.wellFormed_asFields (h : s.Proper) : WellFormed (.obj s.features.asFields) := by
  refine .obj ?_ fun f hf => ?_
  · rw [keys_asFields]
    exact h.ids
  · obtain ⟨g, hg, rfl⟩ := List.mem_map.mp hf
    exact h.records g hg

theorem Store.Proper.wellFormed_cacheContent (h : s.Proper) : WellFormed s.cacheContent := by
  refine .obj (by simp) fun f hf => ?_
  obtain rfl | rfl : f = _ ∨ f = _ := by simpa using hf
  · cases s.lastUpdate with
    | none => exact .null
    | some t => exact .str t.text
  · exact h.wellFormed_asFields

/-- The floats of a cache file are those of its records. -/
theorem exists_mem_of_hasFloat_cacheContent {x : Double} (h : HasFloat x s.cacheContent) :
    ∃ f ∈ s.features, HasFloat x (.obj f.2) := by
  obtain ⟨f, hf, hx⟩ := Json.hasFloat_obj_iff.mp h
  obtain rfl | rfl : f = _ ∨ f = _ := by simpa using hf
  · -- a time is written as a text, or as null
    cases hu : s.lastUpdate with
    | none => rw [hu] at hx; cases hx
    | some u => rw [hu] at hx; cases hx
  · obtain ⟨_, hmem, hx⟩ := Json.hasFloat_obj_iff.mp hx
    obtain ⟨g, hg, rfl⟩ := List.mem_map.mp hmem
    exact ⟨g, hg, hx⟩

/-! ## Reading it back -/

theorem lastUpdateOf_text {u : Time.Timestamp} (h : ∃ text, Time.parse? text = some u) :
    lastUpdateOf (.str u.text) = (some u, 0) := by
  have hparse : Time.parse? u.text = some u := (Time.exists_parse?_iff.mp h).parse?_text
  have hempty : u.text ≠ "" := by
    intro h
    rw [h] at hparse
    cases hparse
  have htruthy : (Json.str u.text).isTruthy = true := by simpa [Json.isTruthy] using hempty
  simp [lastUpdateOf, htruthy, hparse]

/-- A store filled from the content of another one's cache file holds what the other one holds. -/
theorem restore_cacheContent (h : s.Proper) (s' : Store) :
    s'.restore s.cacheContent =
      ({ s' with features := s.features, lastUpdate := s.lastUpdate }, 0) := by
  -- ids stand one level below the names of the two fields, and are never taken for them
  have hload : s'.load s.cacheContent = ({ s' with features := s.features }, 0) := by
    have hfeatures : featuresOf s.cacheContent = (objectEntries s.features.asFields, 0) := rfl
    rw [Store.load, hfeatures, objectEntries_asFields]
  have htime : lastUpdateOf ((s.lastUpdate.map fun t => Json.str t.text).getD .null)
      = (s.lastUpdate, 0) := by
    cases hu : s.lastUpdate with
    | none => rfl
    | some u => exact lastUpdateOf_text (h.time u hu)
  have hget : ∀ v w : Json,
      Json.Fields.get? [("last_update", v), ("features", w)] "last_update" = some v :=
    fun _ _ => rfl
  rw [Store.cacheContent] at hload ⊢
  rw [restore_obj, hload, hget, Option.getD_some, htime]
  rfl

theorem openCache_of_read {bytes : List UInt8} {content : Json}
    (hread : files.read working s.cachePath = .ok bytes)
    (hcontent : Json.ofBytes bytes = .ok (.ok content)) :
    s.openCache files working = .ok (s.restore content) := by
  rw [Store.openCache, hread]
  dsimp only
  rw [hcontent, ok_bind]

theorem write_of_save (h : s.save files working = (t, 0)) :
    files.write working s.cachePath s.cacheContent.compact = .ok t := by
  cases hwrite : files.write working s.cachePath s.cacheContent.compact with
  | ok t' =>
    rw [save_of_ok hwrite] at h
    rw [(Prod.mk.inj h).1]
  | error e =>
    rw [save_of_error hwrite] at h
    cases (Prod.mk.inj h).2

/-- Nothing is written to a path without a name. -/
theorem cachePath_ne_empty (h : files.write working s.cachePath s.cacheContent.compact = .ok t) :
    s.cachePath ≠ "" := by
  intro hempty
  rw [hempty] at h
  cases h

theorem cachePath_empty (env : Environment) {path : String} (h : path ≠ "") (dataUrl : Option String) :
    (Store.empty env (some path) dataUrl).cachePath = path := by
  simp [Store.empty, orElse, h]

theorem openCache_of_save (h : s.Proper)
    (hfloat : ∀ f ∈ s.features, ∀ x, HasFloat x (.obj f.2) → Survives x)
    (hsave : s.save files working = (t, 0)) {s' : Store} (hpath : s'.cachePath = s.cachePath) :
    s'.openCache t working =
      .ok ({ s' with features := s.features, lastUpdate := s.lastUpdate }, 0) := by
  have hread : t.read working s'.cachePath = .ok (Text.encode s.cacheContent.compact) := by
    rw [hpath]
    exact Tree.read_of_write (write_of_save hsave)
  have hcontent : Json.ofBytes (Text.encode s.cacheContent.compact) = .ok (.ok s.cacheContent) := by
    refine Json.ofBytes_encode_compact h.wellFormed_cacheContent fun x hx => ?_
    obtain ⟨f, hf, hx⟩ := exists_mem_of_hasFloat_cacheContent hx
    exact hfloat f hf x hx
  rw [openCache_of_read hread hcontent, restore_cacheContent h]

/-- A store after any run, once saved, is what a new store on its path opens, without a warning. -/
theorem opening_undoes_saving (working : List String) {start : Situation} {events : List Event}
    (hstart : start.store.Proper) (hevents : ∀ e ∈ events, e.Proper)
    (hfloat : ∀ f ∈ (start.run working events).store.features,
      ∀ x, HasFloat x (.obj f.2) → Survives x)
    {files : Tree} (hsave : (start.run working events).store.save (start.run working events).files
      working = (files, 0)) (env : Environment) (dataUrl : Option String) :
    let s := (start.run working events).store
    ∃ s', (Store.empty env (some s.cachePath) dataUrl).openCache files working = .ok (s', 0)
      ∧ s'.cachePath = s.cachePath ∧ s'.features = s.features ∧ s'.lastUpdate = s.lastUpdate := by
  intro s
  have hproper : s.Proper := hstart.run hevents working
  -- an empty path would stand for the default one
  have hpath : (Store.empty env (some s.cachePath) dataUrl).cachePath = s.cachePath :=
    cachePath_empty env (cachePath_ne_empty (write_of_save hsave)) dataUrl
  exact ⟨_, openCache_of_save hproper hfloat hsave hpath, hpath, rfl, rfl⟩

/-- Ids that are the names of the fields of the file, a fraction, and a time with an offset. -/
theorem opening_undoes_saving_of_field_names :
    let half : Double := .finite false 4503599627370496 (-53)
    let now : Time.Timestamp := ⟨2025, 1, 2, 3, 4, 5, 600, some (-19800000001)⟩
    let start : Situation := ⟨{ cachePath := "c.json", dataUrl := "", lastUpdate := some now },
      ⟨[(["w"], .directory)]⟩⟩
    let payload : Json := .obj [("features", .obj [("features", .obj [("x", .float half)]),
      ("last_update", .obj [("n", .null)])])]
    let s := (start.run ["w"] [.loaded payload]).store
    ∃ files s', s.save start.files ["w"] = (files, 0)
      ∧ (Store.empty {} (some "c.json") none).openCache files ["w"] = .ok (s', 0)
      ∧ s'.features = [("features", [("x", .float half)]), ("last_update", [("n", .null)])]
      ∧ s'.lastUpdate = some now := by
  intro half now start payload s
  have htime : Time.parse? "2025-01-02T03:04:05.000600-05:30:00.000001" = some now := by
    decide +kernel
  have hhalf : Survives half := by
    have htext : Json.floatText half = "0.5" := by decide +kernel
    rw [Survives, htext]
    rfl
  have hpayload : WellFormed payload := by
    have hfraction : WellFormed (.obj [("x", .float half)]) :=
      .obj (by simp) (by simp [WellFormed.float])
    have hnull : WellFormed (.obj [("n", .null)]) := .obj (by simp) (by simp [WellFormed.null])
    have hfeatures : WellFormed (.obj [("features", .obj [("x", .float half)]),
        ("last_update", .obj [("n", .null)])]) :=
      .obj (by simp) (by simp [hfraction, hnull])
    exact .obj (by simp) (by simpa using hfeatures)
  have hfloat : ∀ f ∈ s.features, ∀ x, HasFloat x (.obj f.2) → Survives x := by
    intro f hf x hx
    obtain ⟨g, hg, hx⟩ := Json.hasFloat_obj_iff.mp hx
    have hs : s.features = [("features", [("x", .float half)]), ("last_update", [("n", .null)])] := rfl
    obtain rfl | rfl : f = _ ∨ f = _ := by simpa [hs] using hf
    · obtain rfl := List.mem_singleton.mp hg
      cases hx
      exact hhalf
    · obtain rfl := List.mem_singleton.mp hg
      cases hx
  obtain ⟨t, hwrite⟩ : ∃ t, start.files.write ["w"] s.cachePath s.cacheContent.compact = .ok t := by
    have htarget : (start.files.target ["w"] "c.json").map (fun g => (g.place, g.wantsDirectory))
        = .ok (["w", "c.json"], false) := by
      decide +kernel
    obtain ⟨⟨place, wants⟩, hg, hpair⟩ := map_eq_ok_iff.mp htarget
    obtain ⟨rfl, rfl⟩ := Prod.mk.inj hpair
    refine ⟨start.files.set ["w", "c.json"] (Text.encode s.cacheContent.compact), ?_⟩
    have hcachePath : s.cachePath = "c.json" := rfl
    rw [Tree.write, hcachePath, hg, ok_bind]
    rfl
  have hstart : start.store.Proper :=
    ⟨List.nodup_nil, by simp [start], fun u hu => ⟨_, htime.trans hu⟩⟩
  obtain ⟨s', hopen, -, hfeatures, hlast⟩ :=
    opening_undoes_saving ["w"] hstart (by simpa [Event.Proper] using hpayload) hfloat
      (save_of_ok hwrite) {} none
  exact ⟨t, s', save_of_ok hwrite, hopen, hfeatures, hlast⟩

end WebAudit.Dataset
