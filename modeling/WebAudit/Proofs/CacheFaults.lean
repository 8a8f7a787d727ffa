import WebAudit.Proofs.Breakdowns
import WebAudit.Proofs.DigitLimit

/-!
# Where the cache file breaks off an analysis

Opening a store passes over a cache file that is missing, that cannot be opened, or that is text but
no JSON, and leaves the store without data. Bytes that cannot be read are not passed over: they are
the one way in which opening fails. An analysis by the cached dataset fails there, and over records
of the cache file that cannot be resolved.
-/

namespace WebAudit

open Files (Tree)

namespace Dataset

/-! ## Opening -/

section Opening

variable {s : Store} {files : Tree} {working : List String} {bytes : List UInt8}

/-- Opening fails just over a cache file that cannot be read. -/
theorem openCache_eq_error_iff {u : Json.Unreadable} :
    s.openCache files working = .error u
      ↔ ∃ bytes, files.read working s.cachePath = .ok bytes ∧ Json.Breaks bytes u := by
  simp only [← Json.ofBytes_eq_error_iff]
  rw [Store.openCache.eq_def]
  constructor
  · intro h
    split at h
    · cases h
    · cases h
    next bytes hread =>
      obtain h | ⟨r, -, h⟩ := bind_eq_error_iff.mp h
      · exact ⟨bytes, hread, h⟩
      · split at h <;> cases h
  · rintro ⟨bytes, hread, hu⟩
    simp only [hread, hu, error_bind]

theorem exists_openCache_iff :
    (∃ r, s.openCache files working = .ok r)
      ↔ ∀ bytes, files.read working s.cachePath = .ok bytes → Json.Legible bytes := by
  simp only [Json.legible_iff]
  constructor
  · rintro ⟨r, hr⟩ bytes hread u hu
    rw [openCache_eq_error_iff.mpr ⟨bytes, hread, hu⟩] at hr
    cases hr
  · intro h
    cases hopen : s.openCache files working with
    | ok r => exact ⟨r, rfl⟩
    | error u =>
      obtain ⟨bytes, hread, hu⟩ := openCache_eq_error_iff.mp hopen
      exact absurd hu (h bytes hread u)

/-- A cache file that cannot be opened leaves the store as it is. -/
theorem openCache_of_not_read {e : Tree.OpenError} (hread : files.read working s.cachePath = .error e) :
    ∃ n, s.openCache files working = .ok (s, n) := by
  cases e with
  | notFound => exact ⟨0, by simp only [Store.openCache, hread]⟩
  | isDirectory => exact ⟨1, by simp only [Store.openCache, hread]⟩
  | notDirectory => exact ⟨1, by simp only [Store.openCache, hread]⟩

/-- So does one that is text but no JSON. -/
theorem openCache_of_not_json (hread : files.read working s.cachePath = .ok bytes)
    (hlegible : Json.Legible bytes) (hjson : ∀ v, Json.ofBytes bytes ≠ .ok (.ok v)) :
    s.openCache files working = .ok (s, 1) := by
  obtain ⟨r, hr⟩ := hlegible.exists_ofBytes
  cases r with
  | error e => simp only [Store.openCache, hread, hr, ok_bind]
  | ok v => exact absurd hr (hjson v)

end Opening

/-! ## Features that are not recorded -/

theorem Features.resolvable_of_none {fs : Features} {id : String} (h : fs.feature id = .ok none)
    (key : Option String) : fs.Resolvable id key := by
  have hrecord : fs.sources.featureRecord id = .null := by
    show found (fs.record id) = .null
    rw [Features.record, h, ok_bind]
    rfl
  have hkey : fs.sources.keyRecord id key = .null := by
    cases key with
    | none => rfl
    | some k =>
      show (if k = "" then Json.null else found (fs.status id k)) = .null
      rw [Features.status, h, ok_bind]
      exact ite_self _
  have hstatus : fs.sources.featureStatus id = .null := by
    rw [Sources.featureStatus, hrecord, Json.member_null]
  have hsupport : fs.sources.supportRecord id key = .null := by
    simp [Sources.supportRecord, hkey, hstatus]
  rw [Features.Resolvable, hstatus, hsupport]
  exact ⟨readable_of_isRecord (.inl rfl), readable_of_isRecord (.inl rfl)⟩

end Dataset

/-! ## Analyses by the cached dataset -/

open Dataset (Environment Store cachedResolver)

section Analyses

variable {files : Tree} {working : List String} {env : Environment}

theorem exists_cachedResolver_iff :
    (∃ r, cachedResolver files working env = .ok r)
      ↔ ∃ r, (Store.empty env none none).openCache files working = .ok r := by
  simp only [cachedResolver, map_eq_ok_iff]
  constructor
  · rintro ⟨-, r, hr, -⟩
    exact ⟨r, hr⟩
  · rintro ⟨r, hr⟩
    exact ⟨_, r, hr, rfl⟩

theorem value_analyzeText {s : Store} {n : Nat}
    (h : (Store.empty env none none).openCache files working = .ok (s, n)) (content : String)
    (type : ContentType) :
    (analyzeText files working env content type).value
      = (Report.create .default (Dataset.resolve s.features.sources)
          (detect content type none).detections).mapError .lookup := by
  simp only [analyzeText, cachedResolver, h, Except.map]
  rfl

/-- An analysis gives a report just if the cache file can be opened and what the text uses can be
resolved by it. -/
theorem exists_analyzeText_iff (content : String) (type : ContentType) :
    (∃ r, (analyzeText files working env content type).value = .ok r)
      ↔ ∃ s n, (Store.empty env none none).openCache files working = .ok (s, n)
        ∧ ∀ d ∈ (detect content type none).detections,
            s.features.Resolvable d.featureId d.supportKey := by
  cases hopen : (Store.empty env none none).openCache files working with
  | error u => simp [analyzeText, cachedResolver, hopen, Except.map]
  | ok p =>
    obtain ⟨s, n⟩ := p
    -- the default configuration ignores nothing
    have hignored : ∀ id, id ∉ Config.default.ignored := fun id => List.not_mem_nil
    simp only [value_analyzeText hopen, mapError_eq_ok_iff, Report.exists_create_iff,
      Dataset.Features.exists_resolve_iff, hignored, not_false_eq_true, true_implies]
    simp

/-- Without JSON in the cache file an analysis gives a report, if only the file can be read. -/
theorem exists_analyzeText_of_not_json
    (hlegible : ∀ bytes, files.read working (Store.empty env none none).cachePath = .ok bytes →
      Json.Legible bytes ∧ ∀ v, Json.ofBytes bytes ≠ .ok (.ok v))
    (content : String) (type : ContentType) :
    ∃ r, (analyzeText files working env content type).value = .ok r := by
  have hopen : ∃ n, (Store.empty env none none).openCache files working
      = .ok (Store.empty env none none, n) := by
    cases hread : files.read working (Store.empty env none none).cachePath with
    | error e => exact Dataset.openCache_of_not_read hread
    | ok bytes =>
      obtain ⟨hlegible, hjson⟩ := hlegible bytes hread
      exact ⟨1, Dataset.openCache_of_not_json hread hlegible hjson⟩
  obtain ⟨n, hn⟩ := hopen
  refine (exists_analyzeText_iff content type).mpr ⟨_, n, hn, fun d _ => ?_⟩
  exact Dataset.Features.resolvable_of_none rfl d.supportKey

end Analyses

/-- Opening a store breaks off just over a cache file that cannot be read, and over nothing else that
is no JSON. The cached dataset then resolves nothing and no analysis gives a report; any other cache
file can break an analysis by its records only. -/
theorem opening_breaks_off_iff (files : Tree) (working : List String) (env : Environment) :
    (∀ cachePath dataUrl,
      let s := Store.empty env cachePath dataUrl
      (∀ u, s.openCache files working = .error u
          ↔ ∃ bytes, files.read working s.cachePath = .ok bytes ∧ Json.Breaks bytes u)
        ∧ ∀ bytes, files.read working s.cachePath = .ok bytes → Json.Legible bytes →
            (∀ v, Json.ofBytes bytes ≠ .ok (.ok v)) →
              s.openCache files working = .ok (s, 1) ∧ s.features = [] ∧ s.lastUpdate = none)
      ∧ ((∃ r, cachedResolver files working env = .ok r)
        ↔ ∀ bytes, files.read working (Store.empty env none none).cachePath = .ok bytes →
            Json.Legible bytes)
      ∧ ∀ content type,
          ((∃ r, (analyzeText files working env content type).value = .ok r)
            ↔ ∃ s n, (Store.empty env none none).openCache files working = .ok (s, n)
              ∧ ∀ d ∈ (detect content type none).detections,
                  s.features.Resolvable d.featureId d.supportKey)
          ∧ ((∀ bytes, files.read working (Store.empty env none none).cachePath = .ok bytes →
                Json.Legible bytes ∧ ∀ v, Json.ofBytes bytes ≠ .ok (.ok v)) →
              ∃ r, (analyzeText files working env content type).value = .ok r) := by
  refine ⟨fun cachePath dataUrl => ⟨fun u => Dataset.openCache_eq_error_iff, ?_⟩, ?_, ?_⟩
  · intro bytes hread hlegible hjson
    exact ⟨Dataset.openCache_of_not_json hread hlegible hjson, rfl, rfl⟩
  · rw [exists_cachedResolver_iff, Dataset.exists_openCache_iff]
  · intro content type
    exact ⟨exists_analyzeText_iff content type,
      fun h => exists_analyzeText_of_not_json h content type⟩

/-- A cache file of one byte that is no text stops every analysis; one that is text but no JSON stops
none. -/
theorem opening_breaks_off_iff_of_one_byte :
    let env : Environment := ⟨some "c.json", none⟩
    let s := Store.empty env none none
    let broken : Tree := ⟨[(["w", "c.json"], .file [0xFF])]⟩
    let garbled : Tree := ⟨[(["w", "c.json"], .file (Text.encode "nope"))]⟩
    s.openCache broken ["w"] = .error .notText
      ∧ (¬ ∃ r, cachedResolver broken ["w"] env = .ok r)
      ∧ (∀ content type, ¬ ∃ r, (analyzeText broken ["w"] env content type).value = .ok r)
      ∧ s.openCache garbled ["w"] = .ok (s, 1)
      ∧ ∀ content type, ∃ r, (analyzeText garbled ["w"] env content type).value = .ok r := by
  intro env s broken garbled
  have hbreaks : Json.Breaks [0xFF] .notText :=
    .notText (Json.decode?_eq_none_iff.mp (by decide +kernel))
  have hbroken : broken.read ["w"] s.cachePath = .ok [0xFF] :=
    eq_ok_of_toOption (by decide +kernel)
  have hgarbled : garbled.read ["w"] s.cachePath = .ok (Text.encode "nope") :=
    eq_ok_of_toOption (by decide +kernel)
  have hlegible : Json.Legible (Text.encode "nope") := (Json.shortRuns_of_length (by decide)).legible
  have hjson : ∀ v, Json.ofBytes (Text.encode "nope") ≠ .ok (.ok v) := by
    intro v hv
    have hread : ((Json.ofBytes (Text.encode "nope")).toOption.bind Except.toOption).isNone = true := by
      decide +kernel
    rw [hv] at hread
    cases hread
  obtain ⟨hopen, hresolver, hanalyze⟩ := opening_breaks_off_iff broken ["w"] env
  obtain ⟨hopen', -, hanalyze'⟩ := opening_breaks_off_iff garbled ["w"] env
  have herror : s.openCache broken ["w"] = .error .notText :=
    ((hopen none none).1 _).mpr ⟨_, hbroken, hbreaks⟩
  refine ⟨herror, ?_, ?_, ?_, ?_⟩
  · rw [hresolver]
    exact fun h => Json.legible_iff.mp (h _ hbroken) _ hbreaks
  · intro content type
    rw [(hanalyze content type).1]
    rintro ⟨t, n, ht, -⟩
    cases herror.symm.trans ht
  · exact ((hopen' none none).2 _ hgarbled hlegible hjson).1
  · intro content type
    refine (hanalyze' content type).2 fun bytes hread => ?_
    obtain rfl := Except.ok.inj (hgarbled.symm.trans hread)
    exact ⟨hlegible, hjson⟩

end WebAudit
