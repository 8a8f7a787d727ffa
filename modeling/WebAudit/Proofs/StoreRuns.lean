import WebAudit.Proofs.Downloads
import WebAudit.Proofs.Outcome

/-!
# Runs of a store

A store is opened, filled, refreshed and saved in any order, while anyone may change the files around
it. Whatever happens, what it holds is proper (`Store.Proper`): no id twice, well-formed records, and
a time that can be read from a text. One lemma says what each event keeps, and a run keeps what its
events keep. A refresh is all or nothing: it replaces the features and the time, or it leaves the
store and the files alone.
-/

namespace WebAudit.Dataset

open Files (Tree)
open Json (Fields WellFormed)

/-! ## Features as fields -/

/-- Features as the fields of an object. -/
def Features.asFields (features : Features) : Fields :=
  features.map fun f => (f.1, .obj f.2)

/-- Whether a field holds an object. -/
def holdsObject (f : String × Json) : Bool :=
  f.2.fields?.isSome

/-- The entries that are objects are those that hold one, in their order. -/
theorem asFields_objectEntries (fs : Fields) :
    Features.asFields (objectEntries fs) = fs.filter holdsObject := by
  induction fs with
  | nil => rfl
  | cons f fs ih =>
    obtain ⟨k, v⟩ := f
    cases hv : v.fields? with
    | none =>
      have hhead : holdsObject (k, v) = false := by simp [holdsObject, hv]
      rw [List.filter_cons_of_neg (by simp [hhead]), ← ih]
      simp [objectEntries, hv]
    | some r =>
      obtain rfl : v = .obj r := Json.eq_obj_of_fields? hv
      rw [List.filter_cons_of_pos rfl, ← ih]
      rfl

theorem objectEntries_asFields (features : Features) : objectEntries features.asFields = features := by
  rw [objectEntries, Features.asFields, List.filterMap_map]
  exact List.filterMap_some

theorem keys_asFields (features : Features) :
    features.asFields.map Prod.fst = features.map Prod.fst := by
  simp [Features.asFields]

/-! ## Features of a payload -/

/-- A payload lists fields as its features: those of its `features`, or its own if it has no such key,
and none if it or its `features` is no object. -/
inductive Lists : Json → Fields → Prop where
  | own {fs : Fields} (h : Json.Fields.get? fs "features" = none) : Lists (.obj fs) fs
  | under {fs gs : Fields} (h : Json.Fields.get? fs "features" = some (.obj gs)) : Lists (.obj fs) gs
  | nothing {fs : Fields} {v : Json} (h : Json.Fields.get? fs "features" = some v)
      (hv : v.fields? = none) : Lists (.obj fs) []
  | noObject {v : Json} (h : v.fields? = none) : Lists v []

theorem exists_lists (payload : Json) : ∃ gs, Lists payload gs := by
  cases hp : payload.fields? with
  | none => exact ⟨[], .noObject hp⟩
  | some fs =>
    obtain rfl := Json.eq_obj_of_fields? hp
    cases hget : Json.Fields.get? fs "features" with
    | none => exact ⟨fs, .own hget⟩
    | some v =>
      cases hv : v.fields? with
      | none => exact ⟨[], .nothing hget hv⟩
      | some gs =>
        obtain rfl := Json.eq_obj_of_fields? hv
        exact ⟨gs, .under hget⟩

/-- The features of a payload are the objects among the fields that it lists. -/
theorem Lists.asFields_featuresOf {payload : Json} {gs : Fields} (h : Lists payload gs) :
    (featuresOf payload).1.asFields = gs.filter holdsObject := by
  cases h with
  | own h => simp only [featuresOf, h, asFields_objectEntries]
  | under h => simp only [featuresOf, h, asFields_objectEntries]
  | nothing h hv =>
    rw [featuresOf.eq_def]
    dsimp only
    split
    next hnone => simp [h] at hnone
    next hobj =>
      obtain rfl := Option.some.inj (h.symm.trans hobj)
      cases hv
    next => rfl
  | noObject h =>
    rw [featuresOf.eq_def]
    split
    next => cases h
    next => rfl

/-! ## Proper stores -/

/-- What a store may hold: no id twice, well-formed records, and a time that can be read. -/
structure Store.Proper (s : Store) : Prop where
  ids : (s.features.map Prod.fst).Nodup
  records : ∀ f ∈ s.features, WellFormed (.obj f.2)
  time : ∀ t ∈ s.lastUpdate, ∃ text, Time.parse? text = some t

theorem proper_of_features {s : Store} (hfeatures : WellFormed (.obj s.features.asFields))
    (htime : ∀ t ∈ s.lastUpdate, ∃ text, Time.parse? text = some t) : s.Proper where
  ids := by
    rw [← keys_asFields]
    exact hfeatures.keys
  records _ hf := hfeatures.of_mem (List.mem_map_of_mem hf)
  time := htime

theorem wellFormed_filter {fs : Fields} (h : WellFormed (.obj fs)) (p : String × Json → Bool) :
    WellFormed (.obj (fs.filter p)) :=
  .obj (h.keys.sublist (List.filter_sublist.map _)) fun _ hf => h.of_mem (List.mem_filter.mp hf).1

theorem wellFormed_of_get? {fs : Fields} {k : String} {v : Json} (h : WellFormed (.obj fs))
    (hv : Json.Fields.get? fs k = some v) : WellFormed v := by
  obtain ⟨before, after, rfl, -⟩ := List.lookup_eq_some_iff.mp hv
  exact h.of_mem (f := (k, v)) (by simp)

theorem Lists.wellFormed {payload : Json} {gs : Fields} (h : Lists payload gs)
    (hp : WellFormed payload) : WellFormed (.obj gs) := by
  cases h with
  | own h => exact hp
  | under h => exact wellFormed_of_get? hp h
  | nothing h hv => exact Json.wellFormed_obj_nil
  | noObject h => exact Json.wellFormed_obj_nil

theorem wellFormed_featuresOf {payload : Json} (h : WellFormed payload) :
    WellFormed (.obj (featuresOf payload).1.asFields) := by
  obtain ⟨gs, hgs⟩ := exists_lists payload
  rw [hgs.asFields_featuresOf]
  exact wellFormed_filter (hgs.wellFormed h) holdsObject

theorem wellFormed_of_ofBytes {bytes : List UInt8} {v : Json} (h : Json.ofBytes bytes = .ok (.ok v)) :
    WellFormed v := by
  rw [Json.ofBytes] at h
  split at h
  next => cases h
  next cs _ =>
    split at h
    next u hu =>
      cases h
      exact Json.wellFormed_of_parse hu
    next e _ => split at h <;> cases h

/-- A time of update is a text that can be read as one; the empty text cannot. -/
theorem lastUpdateOf_eq_some_iff {v : Json} {t : Time.Timestamp} :
    (lastUpdateOf v).1 = some t ↔ ∃ text, v = .str text ∧ Time.parse? text = some t := by
  rw [lastUpdateOf.eq_def]
  constructor
  · intro h
    split at h
    next =>
      split at h
      next text _ =>
        split at h
        next u hu =>
          obtain rfl := Option.some.inj h
          exact ⟨text, rfl, hu⟩
        next => cases h
      next => cases h
    next => cases h
  · rintro ⟨text, rfl, ht⟩
    have htruthy : (Json.str text).isTruthy = true := by
      rw [Json.isTruthy, Bool.not_eq_true', String.isEmpty_eq_false_iff]
      rintro rfl
      cases ht
    simp only [htruthy, if_true, ht]

/-! ## What each operation keeps -/

theorem Store.Proper.load {s : Store} (h : s.Proper) {payload : Json} (hp : WellFormed payload) :
    (s.load payload).1.Proper :=
  proper_of_features (wellFormed_featuresOf hp) h.time

theorem restore_obj (s : Store) (fs : Fields) :
    s.restore (.obj fs) =
      ({ (s.load (.obj fs)).1 with
          lastUpdate := (lastUpdateOf ((Json.Fields.get? fs "last_update").getD .null)).1 },
        (s.load (.obj fs)).2
          + (lastUpdateOf ((Json.Fields.get? fs "last_update").getD .null)).2) := rfl

theorem restore_of_fields?_eq_none {content : Json} (h : content.fields? = none) (s : Store) :
    (s.restore content).1 = s := by
  rw [Store.restore.eq_def]
  split
  next => cases h
  next => rfl

theorem Store.Proper.restore {s : Store} (h : s.Proper) {content : Json}
    (hc : WellFormed content) : (s.restore content).1.Proper := by
  cases hfields : content.fields? with
  | none =>
    rw [restore_of_fields?_eq_none hfields]
    exact h
  | some fs =>
    obtain rfl := Json.eq_obj_of_fields? hfields
    rw [restore_obj]
    exact proper_of_features (wellFormed_featuresOf hc) fun t ht =>
      (lastUpdateOf_eq_some_iff.mp ht).imp fun _ h => h.2

theorem Store.proper_empty (env : Environment) (cachePath dataUrl : Option String) :
    (Store.empty env cachePath dataUrl).Proper where
  ids := List.nodup_nil
  records f hf := by cases hf
  time t ht := by cases ht

/-- Opening gives the store as it was, or the store filled from what its cache file holds. -/
theorem openCache_cases {s s' : Store} {files : Tree} {working : List String} {n : Nat}
    (h : s.openCache files working = .ok (s', n)) :
    s' = s ∨ ∃ bytes content, files.read working s.cachePath = .ok bytes
      ∧ Json.ofBytes bytes = .ok (.ok content) ∧ s' = (s.restore content).1 := by
  rw [Store.openCache] at h
  split at h
  next => cases h; exact .inl rfl
  next => cases h; exact .inl rfl
  next bytes hread =>
    obtain ⟨r, hr, h⟩ := bind_eq_ok_iff.mp h
    split at h
    next => cases h; exact .inl rfl
    next content => exact .inr ⟨bytes, content, hread, hr, by rw [Except.ok.inj h]⟩

theorem Store.Proper.openCache {s s' : Store} (h : s.Proper) {files : Tree} {working : List String}
    {n : Nat} (ho : s.openCache files working = .ok (s', n)) : s'.Proper := by
  obtain rfl | ⟨bytes, content, -, hcontent, rfl⟩ := openCache_cases ho
  · exact h
  · exact h.restore (wellFormed_of_ofBytes hcontent)

/-! ## Refreshing -/

theorem save_of_ok {s : Store} {files t : Tree} {working : List String}
    (h : files.write working s.cachePath s.cacheContent.compact = .ok t) :
    s.save files working = (t, 0) := by
  simp only [Store.save, h]

theorem save_of_error {s : Store} {files : Tree} {working : List String} {e : Tree.OpenError}
    (h : files.write working s.cachePath s.cacheContent.compact = .error e) :
    s.save files working = (files, 1) := by
  simp only [Store.save, h]

theorem refresh_of_error {s : Store} {d : Download} {e : Refusal} (h : d.payload = .error e)
    (files : Tree) (working : List String) (now : Time.Timestamp) :
    s.refresh files working now d = ⟨s, files, some e, 1⟩ := by
  simp only [Store.refresh, h]

/-- A store with the features of a payload, at a point in time. -/
def Store.renewed (s : Store) (payload : Json) (now : Time.Timestamp) : Store :=
  { (s.load payload).1 with lastUpdate := some now }

theorem refresh_of_ok {s : Store} {d : Download} {payload : Json} (h : d.payload = .ok payload)
    (files : Tree) (working : List String) (now : Time.Timestamp) :
    s.refresh files working now d =
      ⟨s.renewed payload now, ((s.renewed payload now).save files working).1, none,
        (featuresOf payload).2 + ((s.renewed payload now).save files working).2⟩ := by
  simp only [Store.refresh, h]
  rfl

/-- A store and the files around it. -/
structure Situation where
  store : Store
  files : Tree

/-- What can happen to a store. -/
inductive Event where
  /-- A new store is opened in place of the old one. -/
  | opened (env : Environment) (cachePath dataUrl : Option String)
  | loaded (payload : Json)
  | refreshed (now : Time.Timestamp) (d : Download)
  | saved
  /-- Someone else changes the files. -/
  | rewritten (files : Tree)

/-- The situation after an event. A store that cannot be opened leaves the old one. -/
def Situation.after (working : List String) (s : Situation) : Event → Situation
  | .opened env cachePath dataUrl =>
    match (Store.empty env cachePath dataUrl).openCache s.files working with
    | .ok (store, _) => { s with store := store }
    | .error _ => s
  | .loaded payload => { s with store := (s.store.load payload).1 }
  | .refreshed now d =>
    let r := s.store.refresh s.files working now d
    ⟨r.store, r.files⟩
  | .saved => { s with files := (s.store.save s.files working).1 }
  | .rewritten files => { s with files := files }

/-- The situation after events in their order. -/
def Situation.run (working : List String) (s : Situation) (events : List Event) : Situation :=
  events.foldl (Situation.after working) s

/-- What happens is proper: payloads are such as reading gives, and times such as can be read. -/
def Event.Proper : Event → Prop
  | .loaded payload => WellFormed payload
  | .refreshed now _ => ∃ text, Time.parse? text = some now
  | .opened .. | .saved | .rewritten _ => True

theorem refresh_proper {s : Store} (h : s.Proper) {now : Time.Timestamp}
    (hnow : ∃ text, Time.parse? text = some now) (files : Tree) (working : List String)
    (d : Download) : (s.refresh files working now d).store.Proper := by
  cases hd : d.payload with
  | error e =>
    rw [refresh_of_error hd]
    exact h
  | ok payload =>
    obtain ⟨body, decode, fs, rfl, hbody, rfl⟩ := payload_eq_ok_iff.mp hd
    rw [refresh_of_ok hd]
    refine proper_of_features (wellFormed_featuresOf hbody.wellFormed) fun t ht => ?_
    obtain rfl := Option.some.inj ht
    exact hnow

theorem Store.Proper.after {s : Situation} (h : s.store.Proper) {e : Event} (he : e.Proper)
    (working : List String) : (s.after working e).store.Proper := by
  cases e with
  | opened env cachePath dataUrl =>
    rw [Situation.after]
    split
    next store n ho => exact (Store.proper_empty env cachePath dataUrl).openCache ho
    next => exact h
  | loaded payload => exact h.load he
  | refreshed now d => exact refresh_proper h he s.files working d
  | saved => exact h
  | rewritten files => exact h

/-- A run of proper events keeps a store proper. -/
theorem Store.Proper.run {s : Situation} (h : s.store.Proper) {events : List Event}
    (hevents : ∀ e ∈ events, e.Proper) (working : List String) :
    (s.run working events).store.Proper := by
  induction events generalizing s with
  | nil => exact h
  | cons e events ih =>
    exact ih (h.after (hevents e (by simp)) working) fun e he => hevents e (by simp [he])

end WebAudit.Dataset
