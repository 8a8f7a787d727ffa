import Mathlib.Data.List.Basic
import WebAudit.Proofs.Score

/-!
# What a report says

A report is made in one pass that drops ignored detections, counts safe ones and lists risky ones.
`Report.classified` says what comes out without any pass: the counted detections are filtered twice,
once for the list and once for the number. `create_eq_classified` joins the two, and the facts about
reports are then facts about filters.
-/

namespace WebAudit

open Dataset (Baseline Fault Resolution Resolver)

/-! ## Risky statuses -/

theorem Config.isRisky_iff (c : Config) (b : Baseline) :
    c.isRisky b = true
      ↔ (b = .limited ∧ c.blocksFalse = true) ∨ (b = .low ∧ c.allowsLow = false) := by
  cases b <;> simp [Config.isRisky]

/-- A risky status is written as it is: the one that would be lost is never risky. -/
theorem RiskyFeature.baseline_of {c : Config} {res : Resolution} (d : Detection)
    (h : c.isRisky res.baseline = true) : (RiskyFeature.of d res).baseline = res.baseline := by
  rcases (c.isRisky_iff _).mp h with ⟨hb, -⟩ | ⟨hb, -⟩ <;> simp [RiskyFeature.of, hb]

/-! ## The classified report -/

/-- The detections that count: those whose feature is not ignored. -/
def Config.counted (c : Config) (ds : List Detection) : List Detection :=
  ds.filter fun d => d.featureId ∉ c.ignored

/-- The same configuration with nothing ignored. -/
def Config.ignoringNothing (c : Config) : Config :=
  { c with ignore := .given [] }

/-- The counted detections whose status is risky. -/
def Config.flagged (c : Config) (known : Detection → Resolution) (ds : List Detection) :
    List Detection :=
  (c.counted ds).filter fun d => c.isRisky (known d).baseline

/-- The counted detections whose status is not risky. -/
def Config.passed (c : Config) (known : Detection → Resolution) (ds : List Detection) :
    List Detection :=
  (c.counted ds).filter fun d => !c.isRisky (known d).baseline

/-- The report on detections whose statuses are known. -/
def Report.classified (c : Config) (known : Detection → Resolution) (ds : List Detection) :
    Report where
  safe := (c.passed known ds).length
  risky := (c.flagged known ds).map fun d => .of d (known d)

namespace Report

variable {c : Config} {known : Detection → Resolution}

@[simp] theorem classified_nil : classified c known [] = ⟨0, []⟩ := rfl

/-- An ignored detection in front changes nothing. -/
theorem classified_cons_of_ignored {d : Detection} (h : d.featureId ∈ c.ignored)
    (ds : List Detection) : classified c known (d :: ds) = classified c known ds := by
  simp [classified, Config.passed, Config.flagged, Config.counted, h]

/-- A counted detection in front is added to the report on the others. -/
theorem classified_cons_of_counted {d : Detection} (h : d.featureId ∉ c.ignored)
    (ds : List Detection) :
    classified c known (d :: ds) = (classified c known ds).add c d (known d) := by
  unfold add
  cases hr : c.isRisky (known d).baseline <;>
    simp [classified, Config.passed, Config.flagged, Config.counted, h, hr]

/-- **The pass gives the classified report.** Only counted detections have to be resolved. -/
theorem create_eq_classified {resolve : Resolver} {ds : List Detection}
    (h : ∀ d ∈ c.counted ds, resolve d.featureId d.supportKey = .ok (known d)) :
    create c resolve ds = .ok (classified c known ds) := by
  induction ds with
  | nil => rfl
  | cons d ds ih =>
    by_cases hd : d.featureId ∈ c.ignored
    · have hrest : create c resolve ds = .ok (classified c known ds) :=
        ih fun e he => h e (by simpa [Config.counted, hd] using he)
      rw [create, if_pos (by simpa using hd), hrest, classified_cons_of_ignored hd]
    · have hrest : create c resolve ds = .ok (classified c known ds) :=
        ih fun e he => h e (by simp [Config.counted, hd] at he ⊢; exact Or.inr he)
      have hres := h d (by simp [Config.counted, hd])
      rw [create, if_neg (by simpa using hd), hres, hrest, classified_cons_of_counted hd]
      rfl

/-! ## What the report covers -/

theorem length_passed_add_length_flagged (ds : List Detection) :
    (c.passed known ds).length + (c.flagged known ds).length = (c.counted ds).length := by
  have h := List.length_eq_length_filter_add (l := c.counted ds)
    fun d => c.isRisky (known d).baseline
  simp only [Config.passed, Config.flagged]
  omega

/-- Every counted detection is either safe or risky. -/
theorem total_classified (ds : List Detection) :
    (classified c known ds).total = (c.counted ds).length := by
  simp only [total, classified, List.length_map]
  exact length_passed_add_length_flagged ds

/-- A report lists nothing if and only if no detection that counts is risky. -/
theorem risky_classified_eq_nil_iff (ds : List Detection) :
    (classified c known ds).risky = []
      ↔ ∀ d ∈ ds, d.featureId ∉ c.ignored → c.isRisky (known d).baseline = false := by
  simp only [classified, List.map_eq_nil_iff, Config.flagged, List.filter_eq_nil_iff,
    Config.counted, List.mem_filter, decide_eq_true_eq, and_imp, Bool.not_eq_true]

/-- The entries of a report, in order, say what the risky detections and their statuses say. -/
theorem entries_classified (ds : List Detection) :
    ((classified c known ds).risky.map fun e => (e.id, e.location, e.value, e.baseline))
      = (c.flagged known ds).map fun d =>
        (d.featureId, d.location, d.value, (known d).baseline) := by
  simp only [classified, List.map_map]
  refine List.map_congr_left fun d hd => ?_
  have hrisky : c.isRisky (known d).baseline = true := (List.mem_filter.mp hd).2
  simp only [Function.comp_apply, RiskyFeature.baseline_of d hrisky]
  rfl

/-- What the status of an entry says about the rules. -/
theorem baseline_of_mem_classified {ds : List Detection} {e : RiskyFeature}
    (he : e ∈ (classified c known ds).risky) :
    (e.baseline = .limited ∧ c.blocksFalse = true) ∨ (e.baseline = .low ∧ c.allowsLow = false) := by
  obtain ⟨d, hd, rfl⟩ := List.mem_map.mp he
  have hrisky : c.isRisky (known d).baseline = true := (List.mem_filter.mp hd).2
  rw [RiskyFeature.baseline_of d hrisky]
  exact (c.isRisky_iff _).mp hrisky

/-! ## Ignoring beforehand -/

/-- With ignored detections dropped beforehand nothing is left to ignore. -/
theorem classified_counted (ds : List Detection) :
    classified c.ignoringNothing known (c.counted ds) = classified c known ds := by
  have hcounted : c.ignoringNothing.counted (c.counted ds) = c.counted ds := by
    simp [Config.counted, Config.ignoringNothing, Config.ignored, Setting.given]
  have hrisky : c.ignoringNothing.isRisky = c.isRisky := by
    funext b
    cases b <;> rfl
  simp only [classified, Config.passed, Config.flagged, hcounted, hrisky]

/-! ## Reports as a whole -/

/-- **A report is made whenever the counted detections can be resolved, and it says this.** The list
has the risky detections in their order with the status that was resolved, the number counts the
others, and it makes no difference whether ignored detections are dropped before or on the way. -/
theorem create_classifies (c : Config) (resolve : Resolver) (known : Detection → Resolution)
    (ds : List Detection)
    (h : ∀ d ∈ c.counted ds, resolve d.featureId d.supportKey = .ok (known d)) :
    ∃ r, create c resolve ds = .ok r
      ∧ r.risky = (c.flagged known ds).map (fun d => RiskyFeature.of d (known d))
      ∧ r.safe = (c.passed known ds).length
      ∧ r.total = r.safe + r.risky.length
      ∧ r.total = (c.counted ds).length
      ∧ (0 ≤ r.score ∧ r.score ≤ 100)
      ∧ ((r.risky.map fun e => (e.id, e.location, e.value, e.baseline))
        = (c.flagged known ds).map fun d =>
          (d.featureId, d.location, d.value, (known d).baseline))
      ∧ (∀ e ∈ r.risky, (e.baseline = .limited ∧ c.blocksFalse = true)
        ∨ (e.baseline = .low ∧ c.allowsLow = false))
      ∧ create c.ignoringNothing resolve (c.counted ds) = .ok r := by
  refine ⟨classified c known ds, create_eq_classified h, rfl, rfl, rfl, total_classified ds,
    score_mem _, entries_classified ds, fun e he => baseline_of_mem_classified he, ?_⟩
  have hrest : ∀ d ∈ c.ignoringNothing.counted (c.counted ds),
      resolve d.featureId d.supportKey = .ok (known d) :=
    fun d hd => h d (List.mem_of_mem_filter hd)
  rw [create_eq_classified hrest, classified_counted]

/-- One detection of each kind, with an ignored one that cannot be resolved. -/
theorem create_classifies_each_kind :
    let c : Config := { ignore := .given ["old"] }
    let status (id : String) : Resolution :=
      { baseline := if id = "new" then .low else if id = "wide" then .high else .limited }
    let resolve : Resolver := fun id _ =>
      if id = "old" then .error .unavailable else .ok (status id)
    let ds : List Detection := [⟨"old", ⟨1, 1, none, none⟩, "o", none⟩,
      ⟨"new", ⟨2, 1, none, none⟩, "n", some "k"⟩, ⟨"wide", ⟨3, 1, none, none⟩, "w", none⟩,
      ⟨"rare", ⟨4, 1, none, none⟩, "r", none⟩]
    ∃ r, create c resolve ds = .ok r
      ∧ r.risky.map (·.id) = ["new", "rare"] ∧ r.safe = 1 ∧ r.total = 3 := by
  intro c status resolve ds
  have h : ∀ d ∈ c.counted ds, resolve d.featureId d.supportKey = .ok (status d.featureId) := by
    intro d hd
    refine if_neg fun he => ?_
    have hd := (List.mem_filter.mp hd).2
    simp [he, c, Config.ignored, Setting.given] at hd
  obtain ⟨r, hr, hrisky, hsafe, -, htotal, -⟩ :=
    create_classifies c resolve (fun d => status d.featureId) ds h
  exact ⟨r, hr, by rw [hrisky]; rfl, by rw [hsafe]; rfl, by rw [htotal]; rfl⟩

end Report

end WebAudit
