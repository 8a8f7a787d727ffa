import WebAudit.Proofs.ListlessPayloads

/-!
# Cache files of the wrong shape

A cache file can hold JSON that is no dataset: no object, or an object whose `features` is none. A
store opened on it has no features, and a warning is raised. The time of the last update is read from
the same file on its own. So the store is left as a missing file leaves it just if the file states no
time, and otherwise it holds nothing as of the time stated.
-/

namespace WebAudit.Dataset

open Files (Tree)

/-- JSON that is no dataset: no object, or one whose `features` is none. -/
def Misshapen (content : Json) : Prop :=
  content.fields? = none ∨ Listless content

/-- An object states the time of its last update. -/
inductive Dated : Json → Time.Timestamp → Prop where
  | intro {fs : Json.Fields} {text : String} {t : Time.Timestamp}
      (h : Json.Fields.get? fs "last_update" = some (.str text)) (ht : Time.parse? text = some t) :
      Dated (.obj fs) t

theorem dated_obj_iff {fs : Json.Fields} {t : Time.Timestamp} :
    Dated (.obj fs) t
      ↔ (lastUpdateOf ((Json.Fields.get? fs "last_update").getD .null)).1 = some t := by
  rw [lastUpdateOf_eq_some_iff]
  constructor
  · rintro ⟨h, ht⟩
    exact ⟨_, by rw [h, Option.getD_some], ht⟩
  · rintro ⟨text, h, ht⟩
    cases hget : Json.Fields.get? fs "last_update" with
    | none =>
      rw [hget] at h
      cases h
    | some v =>
      rw [hget] at h
      exact .intro (hget.trans (congrArg some h)) ht

/-- What is no dataset gives a store without data nothing but the time that it states. -/
theorem Misshapen.restore {content : Json} (h : Misshapen content) {s : Store}
    (hfeatures : s.features = []) (hupdate : s.lastUpdate = none) :
    ∃ u n, s.restore content = ({ s with lastUpdate := u }, n) ∧ 0 < n
      ∧ ∀ t, u = some t ↔ Dated content t := by
  rcases h with hfields | hlist
  · refine ⟨none, 1, ?_, Nat.one_pos, fun t => ?_⟩
    · rw [← hupdate]
      cases content with
      | obj fs => cases hfields
      | _ => rfl
    · constructor
      · intro ht
        cases ht
      · rintro ⟨-, -⟩
        cases hfields
  · cases hlist with
    | @intro fs v hv hnone =>
      have hload : s.load (.obj fs) = (s, 1) := by
        rw [Store.load, (Listless.intro hv hnone).featuresOf_eq, ← hfeatures]
      rw [restore_obj, hload]
      exact ⟨_, _, rfl, Nat.lt_of_lt_of_le Nat.one_pos (Nat.le_add_right _ _),
        fun t => dated_obj_iff.symm⟩

theorem openCache_of_missing {s : Store} {files : Tree} {working : List String}
    (h : files.read working s.cachePath = .error .notFound) :
    s.openCache files working = .ok (s, 0) := by
  simp only [Store.openCache, h]

/-- A store opened on JSON that is no dataset has no features, and its last update is the time that
the file states. So it is the store that a missing file gives just if no time is stated. -/
theorem misshapen_cache_keeps_time (env : Environment) (cachePath dataUrl : Option String)
    {files : Tree} {working : List String} {bytes : List UInt8} {content : Json}
    (hread : files.read working (Store.empty env cachePath dataUrl).cachePath = .ok bytes)
    (hcontent : Json.ofBytes bytes = .ok (.ok content)) (hshape : Misshapen content) :
    let s := Store.empty env cachePath dataUrl
    ∃ opened n, s.openCache files working = .ok (opened, n) ∧ 0 < n ∧ opened.features = []
      ∧ (∀ t, opened.lastUpdate = some t ↔ Dated content t)
      ∧ ∀ bare : Tree, bare.read working s.cachePath = .error .notFound →
          ∃ missing, s.openCache bare working = .ok (missing, 0) ∧ missing.features = []
            ∧ missing.lastUpdate = none ∧ (opened = missing ↔ ∀ t, ¬ Dated content t) := by
  intro s
  obtain ⟨u, n, hrestore, hn, hdated⟩ := hshape.restore (s := s) rfl rfl
  refine ⟨{ s with lastUpdate := u }, n, ?_, hn, rfl, hdated, fun bare hbare => ?_⟩
  · rw [openCache_of_read hread hcontent, hrestore]
  refine ⟨s, openCache_of_missing hbare, rfl, rfl, ?_⟩
  constructor
  · intro h t ht
    have hnone : u = none := congrArg Store.lastUpdate h
    rw [← hdated t, hnone] at ht
    cases ht
  · intro h
    cases u with
    | none => rfl
    | some t => exact absurd ((hdated t).mp rfl) (h t)

/-- A list in place of features loses the features and not the time. -/
theorem misshapen_cache_keeps_time_of_list :
    let time : Time.Timestamp := { year := 2025, month := 1, day := 2 }
    let text := "\x7b\"last_update\": \"2025-01-02T00:00:00\", \"features\": [1]\x7d"
    let s := Store.empty {} (some "c.json") none
    let files : Tree := ⟨[(["w", "c.json"], .file (Text.encode text))]⟩
    let bare : Tree := ⟨[(["w"], .directory)]⟩
    ∃ opened n, s.openCache files ["w"] = .ok (opened, n) ∧ 0 < n ∧ opened.features = []
      ∧ opened.lastUpdate = some time
      ∧ ∃ missing, s.openCache bare ["w"] = .ok (missing, 0) ∧ missing.lastUpdate = none
        ∧ opened ≠ missing := by
  intro time text s files bare
  have hcontent : Json.ofBytes (Text.encode text)
      = .ok (.ok (.obj [("last_update", .str "2025-01-02T00:00:00"), ("features", .arr [.int 1])])) := by
    rw [Json.ofBytes, Text.decode?_encode]
    simp only [text, Json.parse, String.toList_ofList, String.reduceToList]
    rfl
  have hdated : Dated (.obj [("last_update", .str "2025-01-02T00:00:00"), ("features", .arr [.int 1])])
      time := .intro rfl (by decide +kernel)
  have hread : files.read ["w"] s.cachePath = .ok (Text.encode text) :=
    eq_ok_of_toOption (by decide +kernel)
  have hbare : bare.read ["w"] s.cachePath = .error .notFound := by
    have htarget : (bare.target ["w"] s.cachePath).map Tree.Target.place = .ok ["w", "c.json"] :=
      eq_ok_of_toOption (by decide +kernel)
    obtain ⟨g, hg, hplace⟩ := map_eq_ok_iff.mp htarget
    rw [Tree.read, hg, ok_bind, hplace]
    rfl
  obtain ⟨opened, n, hopen, hn, hfeatures, htime, hmissing⟩ :=
    misshapen_cache_keeps_time {} (some "c.json") none hread hcontent
      (.inr (.intro (v := .arr [.int 1]) rfl rfl))
  obtain ⟨missing, hopen', -, hnone, hiff⟩ := hmissing bare hbare
  exact ⟨opened, n, hopen, hn, hfeatures, (htime time).mpr hdated, missing, hopen', hnone,
    fun h => hiff.mp h time hdated⟩

end WebAudit.Dataset
