import WebAudit.Proofs.CacheRoundTrip

/-!
# Payloads that list nothing

A payload whose `features` is no object lists no features, and loading it raises a warning. It is an
object all the same, so a refresh does not refuse it: the store is renewed with nothing, the time is
set, and an empty dataset is written over the cache file, where the next store finds it.
-/

namespace WebAudit.Dataset

open Files (Tree)

/-- An object whose `features` is there and is no object. -/
inductive Listless : Json → Prop where
  | intro {fs : Json.Fields} {v : Json} (h : Json.Fields.get? fs "features" = some v)
      (hv : v.fields? = none) : Listless (.obj fs)

/-- A listless payload has no features, and this is noticed. -/
theorem Listless.featuresOf_eq {payload : Json} (h : Listless payload) :
    featuresOf payload = ([], 1) := by
  cases h with
  | intro h hv =>
    rw [featuresOf.eq_def]
    dsimp only
    split
    next hnone => cases h.symm.trans hnone
    next hobj =>
      obtain rfl := Option.some.inj (h.symm.trans hobj)
      cases hv
    next => rfl

/-- Loading raises a warning for the listless payloads alone, and one at most. -/
theorem warnings_load_ne_zero_iff (s : Store) (payload : Json) :
    (s.load payload).2 ≠ 0 ↔ Listless payload := by
  change (featuresOf payload).2 ≠ 0 ↔ _
  constructor
  · intro h
    rw [featuresOf.eq_def] at h
    split at h
    next fs =>
      split at h
      · exact absurd rfl h
      · exact absurd rfl h
      next v hobj hv =>
        refine .intro hv ?_
        cases v with
        | obj gs => exact absurd rfl (hobj gs)
        | _ => rfl
    · exact absurd rfl h
  · intro h
    rw [h.featuresOf_eq]
    exact Nat.one_ne_zero

/-- A store with no features, as of a point in time. -/
def Store.emptied (s : Store) (now : Time.Timestamp) : Store :=
  { s with features := [], lastUpdate := some now }

theorem Listless.renewed_eq {payload : Json} (h : Listless payload) (s : Store)
    (now : Time.Timestamp) : s.renewed payload now = s.emptied now := by
  rw [Store.renewed, Store.load, h.featuresOf_eq, Store.emptied]

theorem Listless.refresh_eq {d : Download} {payload : Json} (h : Listless payload)
    (hd : d.payload = .ok payload) (s : Store) (files : Tree) (working : List String)
    (now : Time.Timestamp) :
    s.refresh files working now d =
      ⟨s.emptied now, ((s.emptied now).save files working).1, none,
        1 + ((s.emptied now).save files working).2⟩ := by
  rw [refresh_of_ok hd, h.renewed_eq, h.featuresOf_eq]

theorem Store.proper_emptied (s : Store) {now : Time.Timestamp}
    (hnow : ∃ text, Time.parse? text = some now) : (s.emptied now).Proper := by
  refine proper_of_features Json.wellFormed_obj_nil fun t ht => ?_
  obtain rfl := Option.some.inj ht
  exact hnow

/-- What an emptied store saves is what the next store on its path opens. -/
theorem openCache_of_write_emptied {s : Store} {files t : Tree} {working : List String}
    {now : Time.Timestamp} (hnow : ∃ text, Time.parse? text = some now)
    (h : files.write working s.cachePath (s.emptied now).cacheContent.compact = .ok t)
    (env : Environment) (dataUrl : Option String) :
    (Store.empty env (some s.cachePath) dataUrl).openCache t working =
      .ok ((Store.empty env (some s.cachePath) dataUrl).emptied now, 0) := by
  have hpath : (Store.empty env (some s.cachePath) dataUrl).cachePath = (s.emptied now).cachePath :=
    cachePath_empty env (cachePath_ne_empty (s := s.emptied now) h) dataUrl
  refine openCache_of_save (s.proper_emptied hnow) ?_ (save_of_ok (s := s.emptied now) h) hpath
  intro f hf
  cases hf

/-- A downloaded object whose `features` is no object is noticed when it is loaded, and is taken all
the same: the refresh succeeds, the store loses its features and is as of now, and unless it cannot
be written the cache file holds the empty dataset. -/
theorem listless_download_empties (s : Store) (files : Tree) (working : List String)
    (now : Time.Timestamp) {body : List UInt8} {decode : Decoder} {fs : Json.Fields}
    (hbody : decode.Reads body (.obj fs)) :
    let r := s.refresh files working now (.answered 200 body decode)
    let content := (s.emptied now).cacheContent.compact
    r.refusal = none ∧ ((s.load (.obj fs)).2 ≠ 0 ↔ Listless (.obj fs))
      ∧ (Listless (.obj fs) → r.store = s.emptied now
        ∧ (∀ t, files.write working s.cachePath content = .ok t →
          r.files = t ∧ r.warnings = 1 ∧ t.read working s.cachePath = .ok (Text.encode content)
            ∧ ∀ env dataUrl, (∃ text, Time.parse? text = some now) →
              (Store.empty env (some s.cachePath) dataUrl).openCache t working =
                .ok ((Store.empty env (some s.cachePath) dataUrl).emptied now, 0))
        ∧ ∀ e, files.write working s.cachePath content = .error e →
          r.files = files ∧ r.warnings = 2) := by
  intro r content
  have hd : (Download.answered 200 body decode).payload = .ok (.obj fs) :=
    payload_eq_ok_iff.mpr ⟨body, decode, fs, rfl, hbody, rfl⟩
  refine ⟨?_, warnings_load_ne_zero_iff s _, fun hlist => ?_⟩
  · simp only [r, refresh_of_ok hd]
  have hr : r = _ := hlist.refresh_eq hd s files working now
  refine ⟨congrArg Refreshed.store hr, fun t ht => ?_, fun e he => ?_⟩
  · rw [save_of_ok (s := s.emptied now) ht] at hr
    exact ⟨congrArg Refreshed.files hr, congrArg Refreshed.warnings hr, Tree.read_of_write ht,
      fun env dataUrl hnow => openCache_of_write_emptied hnow ht env dataUrl⟩
  · rw [save_of_error (s := s.emptied now) he] at hr
    exact ⟨congrArg Refreshed.files hr, congrArg Refreshed.warnings hr⟩

/-- A good dataset is lost to a list in place of features. -/
theorem listless_download_empties_good_store :
    let now : Time.Timestamp := { year := 2025, month := 6, day := 7 }
    let s : Store := { cachePath := "c.json", dataUrl := "", features := [("grid", [("name", .null)])],
                       lastUpdate := some { year := 2025, month := 1, day := 2 } }
    let files : Tree := ⟨[(["w", "c.json"], .file (Text.encode s.cacheContent.compact))]⟩
    let body := Text.encode "\x7b\"features\": [1]\x7d"
    let r := s.refresh files ["w"] now (.answered 200 body .trimming)
    r.refusal = none ∧ r.store.features = [] ∧ r.store.lastUpdate = some now ∧ r.warnings = 1
      ∧ r.files.read ["w"] "c.json" = .ok (Text.encode (s.emptied now).cacheContent.compact)
      ∧ ∃ s', (Store.empty {} (some "c.json") none).openCache r.files ["w"] = .ok (s', 0)
        ∧ s'.features = [] ∧ s'.lastUpdate = some now := by
  intro now s files body r
  have hbody : Decoder.trimming.Reads body (.obj [("features", .arr [.int 1])]) := by
    refine Decoder.trims_trimming.reads_obj_iff.mpr (spells_encode ?_)
    simp only [Json.parse, String.toList_ofList, String.reduceToList]
    rfl
  have hwrite : files.write ["w"] s.cachePath (s.emptied now).cacheContent.compact = .ok _ :=
    Tree.write_eq_ok_iff.mpr ⟨["w", "c.json"],
      Tree.takes_of_map (by decide +kernel) (by decide +kernel), rfl⟩
  have hnow : Time.parse? "2025-06-07" = some now := by decide +kernel
  obtain ⟨hrefusal, -, hlist⟩ := listless_download_empties s files ["w"] now hbody
  obtain ⟨hstore, hwritten, -⟩ := hlist (.intro (v := .arr [.int 1]) rfl rfl)
  obtain ⟨hfiles, hwarnings, hread, hopen⟩ := hwritten _ hwrite
  have hfiles : r.files = _ := hfiles
  have hstore : r.store = s.emptied now := hstore
  rw [hfiles, hstore]
  exact ⟨hrefusal, rfl, rfl, hwarnings, hread, _, hopen {} none ⟨_, hnow⟩, rfl, rfl⟩

end WebAudit.Dataset
