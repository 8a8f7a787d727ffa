import WebAudit.Proofs.Classification
import WebAudit.Proofs.ScoreRounding

/-!
# Looser rules

The two rules pull in opposite directions: one accepts a status when it is on, the other refuses one. A
configuration is looser than another (`Config.Looser`) if neither rule got stricter. Of two reports on the
same detections, the one under looser rules

* counts the same detections (`Report.total_of_looser`);
* lists just those entries of the other that are still refused (`Report.risky_of_looser`);
* counts as safe what the other does and the entries that are let through (`Report.safe_of_looser`), so
  that it never scores less (`Report.score_le_of_looser`).
-/

namespace WebAudit

open Dataset (Baseline Resolution Resolver)

/-! ## The order of rules -/

/-- A configuration that ignores the same features and has no stricter rule: what is new stays accepted,
and what is limited is refused only if it was refused. -/
structure Config.Looser (b a : Config) : Prop where
  ignored : b.ignored = a.ignored
  allowsLow : a.allowsLow = true → b.allowsLow = true
  blocksFalse : b.blocksFalse = true → a.blocksFalse = true

namespace Config.Looser

variable {a b : Config} {known : Detection → Resolution}

/-- What looser rules refuse was refused before. -/
theorem isRisky (h : b.Looser a) {s : Baseline} (hs : b.isRisky s = true) : a.isRisky s = true := by
  rw [isRisky_iff] at hs ⊢
  rcases hs with ⟨hlimited, hblocks⟩ | ⟨hlow, hallows⟩
  · exact .inl ⟨hlimited, h.blocksFalse hblocks⟩
  · refine .inr ⟨hlow, Bool.eq_false_iff.mpr fun hallowed => ?_⟩
    rw [h.allowsLow hallowed] at hallows
    cases hallows

/-- A status is refused by the one and not by the other only if the rule for this status differs. -/
theorem isRisky_imp_iff (h : b.Looser a) (s : Baseline) :
    (a.isRisky s = true → b.isRisky s = true)
      ↔ (s = .low → a.allowsLow = b.allowsLow) ∧ (s = .limited → a.blocksFalse = b.blocksFalse) := by
  have hallows := h.allowsLow
  have hblocks := h.blocksFalse
  cases s with
  | high => simp [Config.isRisky]
  | low =>
    simp only [Config.isRisky, Bool.not_eq_true', true_implies, reduceCtorEq, false_implies, and_true]
    cases ha : a.allowsLow <;> cases hb : b.allowsLow <;> simp_all
  | limited =>
    simp only [Config.isRisky, true_implies, reduceCtorEq, false_implies, true_and]
    cases ha : a.blocksFalse <;> cases hb : b.blocksFalse <;> simp_all

theorem counted (h : b.Looser a) (ds : List Detection) : b.counted ds = a.counted ds := by
  rw [Config.counted, Config.counted, h.ignored]

theorem flagged (h : b.Looser a) (ds : List Detection) :
    b.flagged known ds = (a.flagged known ds).filter fun d => b.isRisky (known d).baseline := by
  rw [Config.flagged, Config.flagged, h.counted, List.filter_filter]
  refine List.filter_congr fun d _ => ?_
  cases hd : b.isRisky (known d).baseline with
  | false => rfl
  | true => rw [h.isRisky hd, Bool.and_true]

end Config.Looser

/-! ## Two reports on the same detections -/

namespace Report

variable {a b : Config} {known : Detection → Resolution}

theorem total_of_looser (h : b.Looser a) (ds : List Detection) :
    (classified b known ds).total = (classified a known ds).total := by
  rw [total_classified, total_classified, h.counted]

/-- **Looser rules list what they refuse of the entries that were listed.** -/
theorem risky_of_looser (h : b.Looser a) (ds : List Detection) :
    (classified b known ds).risky
      = (classified a known ds).risky.filter fun e => b.isRisky e.baseline := by
  simp only [classified, h.flagged, List.filter_map]
  congr 1
  refine List.filter_congr fun d hd => ?_
  have hrisky : a.isRisky (known d).baseline = true := (List.mem_filter.mp hd).2
  rw [Function.comp_apply, RiskyFeature.baseline_of d hrisky]

/-- What is not listed any more is safe. -/
theorem safe_of_looser (h : b.Looser a) (ds : List Detection) :
    (classified b known ds).safe = (classified a known ds).safe
      + ((classified a known ds).risky.filter fun e => !b.isRisky e.baseline).length := by
  have htotal : (classified b known ds).safe + (classified b known ds).risky.length
      = (classified a known ds).safe + (classified a known ds).risky.length := total_of_looser h ds
  have hsplit := (classified a known ds).risky.length_eq_length_filter_add fun e => b.isRisky e.baseline
  rw [risky_of_looser h] at htotal
  omega

theorem safe_le_of_looser (h : b.Looser a) (ds : List Detection) :
    (classified a known ds).safe ≤ (classified b known ds).safe := by
  rw [safe_of_looser h]
  exact Nat.le_add_right _ _

/-- Of two reports on as many detections, the one with more safe ones has the better score. -/
theorem score_le_score {r q : Report} (htotal : q.total = r.total) (hsafe : r.safe ≤ q.safe) :
    r.score ≤ q.score := by
  rw [score, score, htotal]
  by_cases hpos : 0 < r.total
  · exact safetyScore_mono (Int.natCast_pos.mpr hpos) (Int.ofNat_le.mpr hsafe)
  · have hnone : (r.total : Int) ≤ 0 := by omega
    rw [safetyScore_of_nonpos hnone, safetyScore_of_nonpos hnone]

theorem score_le_of_looser (h : b.Looser a) (ds : List Detection) :
    (classified a known ds).score ≤ (classified b known ds).score :=
  score_le_score (total_of_looser h ds) (safe_le_of_looser h ds)

/-- All entries stay if and only if no detection that counts has a status whose rule got looser. -/
theorem risky_eq_iff_of_looser (h : b.Looser a) (ds : List Detection) :
    (classified b known ds).risky = (classified a known ds).risky
      ↔ ∀ d ∈ a.counted ds, ((known d).baseline = .low → a.allowsLow = b.allowsLow)
        ∧ ((known d).baseline = .limited → a.blocksFalse = b.blocksFalse) := by
  rw [risky_of_looser h, List.filter_eq_self]
  simp only [← h.isRisky_imp_iff]
  constructor
  · intro hall d hd hrisky
    have hmem : RiskyFeature.of d (known d) ∈ (classified a known ds).risky :=
      List.mem_map_of_mem (List.mem_filter.mpr ⟨hd, hrisky⟩)
    have hstays := hall _ hmem
    rwa [RiskyFeature.baseline_of d hrisky] at hstays
  · intro hall e he
    obtain ⟨d, hd, rfl⟩ := List.mem_map.mp he
    obtain ⟨hcounted, hrisky⟩ := List.mem_filter.mp hd
    rw [RiskyFeature.baseline_of d hrisky]
    exact hall d hcounted hrisky

/-- **Looser rules make a report better, and change nothing else about it.** Both reports are made, and
they count the same detections. The one under looser rules lists, in the same order, the entries of the
other that are still refused; the entries it leaves out are those that are new and now accepted or limited
and not refused any more, and it counts them as safe. So it has at least as many safe detections and at
least the score. It lists all that the other does if and only if each status that was met has the same rule
under both. -/
theorem create_under_looser_rules (a b : Config) (h : b.Looser a) (resolve : Resolver)
    (known : Detection → Resolution) (ds : List Detection)
    (hknown : ∀ d ∈ a.counted ds, resolve d.featureId d.supportKey = .ok (known d)) :
    ∃ r q, create a resolve ds = .ok r ∧ create b resolve ds = .ok q
      ∧ q.total = r.total
      ∧ q.risky.Sublist r.risky
      ∧ r.safe ≤ q.safe
      ∧ r.score ≤ q.score
      ∧ q.risky = r.risky.filter (fun e => b.isRisky e.baseline)
      ∧ q.safe = r.safe + (r.risky.filter fun e => !b.isRisky e.baseline).length
      ∧ (∀ e ∈ r.risky, b.isRisky e.baseline = false
        ↔ (e.baseline = .low ∧ b.allowsLow = true) ∨ (e.baseline = .limited ∧ b.blocksFalse = false))
      ∧ (q.risky = r.risky
        ↔ ∀ d ∈ a.counted ds, ((known d).baseline = .low → a.allowsLow = b.allowsLow)
          ∧ ((known d).baseline = .limited → a.blocksFalse = b.blocksFalse)) := by
  have hknown' : ∀ d ∈ b.counted ds, resolve d.featureId d.supportKey = .ok (known d) := by
    rw [h.counted]
    exact hknown
  refine ⟨classified a known ds, classified b known ds, create_eq_classified hknown,
    create_eq_classified hknown', total_of_looser h ds, ?_, safe_le_of_looser h ds,
    score_le_of_looser h ds, risky_of_looser h ds, safe_of_looser h ds, fun e he => ?_,
    risky_eq_iff_of_looser h ds⟩
  · rw [risky_of_looser h]
    exact List.filter_sublist
  · -- an entry is new or limited, so one of the two rules decides on it
    rcases baseline_of_mem_classified he with ⟨hs, -⟩ | ⟨hs, -⟩ <;> simp [hs, Config.isRisky]

/-- What is new is accepted by the second configuration, and an ignored detection cannot be resolved. -/
theorem create_under_looser_rules_for_new_features :
    let a : Config := { ignore := .given ["old"] }
    let b : Config := { a with rules := .given { allowLow := .given true } }
    let status (id : String) : Resolution :=
      { baseline := if id = "new" then .low else if id = "wide" then .high else .limited }
    let resolve : Resolver := fun id _ =>
      if id = "old" then .error .unavailable else .ok (status id)
    let ds : List Detection := [⟨"old", ⟨1, 1, none, none⟩, "o", none⟩,
      ⟨"new", ⟨2, 1, none, none⟩, "n", some "k"⟩, ⟨"wide", ⟨3, 1, none, none⟩, "w", none⟩,
      ⟨"rare", ⟨4, 1, none, none⟩, "r", none⟩]
    b.Looser a ∧ ∃ r q, create a resolve ds = .ok r ∧ create b resolve ds = .ok q
      ∧ q.risky.Sublist r.risky ∧ q.risky ≠ r.risky
      ∧ r.risky.map (·.id) = ["new", "rare"] ∧ q.risky.map (·.id) = ["rare"]
      ∧ q.total = r.total ∧ r.score = 33 ∧ q.score = 67 := by
  intro a b status resolve ds
  have hlooser : b.Looser a := ⟨rfl, fun _ => rfl, fun _ => rfl⟩
  have hknown : ∀ d ∈ a.counted ds,
      resolve d.featureId d.supportKey = .ok (status d.featureId) := by
    intro d hd
    refine if_neg fun he => ?_
    have hd := (List.mem_filter.mp hd).2
    simp [he, a, Config.ignored, Setting.given] at hd
  obtain ⟨r, q, hr, hq, htotal, hsub, -, -, -, -, -, hsame⟩ :=
    create_under_looser_rules a b hlooser resolve (fun d => status d.featureId) ds hknown
  obtain rfl : r = _ := (Except.ok.inj hr).symm
  obtain rfl : q = _ := (Except.ok.inj hq).symm
  refine ⟨hlooser, _, _, hr, hq, hsub, fun he => ?_, rfl, rfl, htotal, by decide, by decide⟩
  have hrule := (hsame.mp he _ (List.mem_cons_self (a := ds[1]))).1 rfl
  cases hrule

end Report

end WebAudit
