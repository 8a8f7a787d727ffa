import WebAudit.Report

/-!
# The safety score

The score is a quotient rounded to the nearest whole number. `le_safetyScore_iff` says which numbers
it reaches, and whatever else is said of a score follows from this: the two products that enclose it,
its range, that it grows with what is safe, and where it ends.
-/

namespace WebAudit

/-- With something to count, the rounded quotient is a plain one. -/
theorem safetyScore_of_pos {safe total : Int} (h : 0 < total) :
    safetyScore safe total = (safe * 200 + total) / (2 * total) := by
  rw [safetyScore, if_neg (by omega), Int.fdiv_eq_ediv_of_nonneg _ (by omega)]

theorem safetyScore_of_nonpos {safe total : Int} (h : total ≤ 0) :
    safetyScore safe total = 100 := by
  rw [safetyScore, if_pos h]

/-- **A score reaches a number if the share in percent comes within a half of it.** -/
theorem le_safetyScore_iff {safe total q : Int} (h : 0 < total) :
    q ≤ safetyScore safe total ↔ 2 * total * q ≤ 200 * safe + total := by
  rw [safetyScore_of_pos h, Int.le_ediv_iff_mul_le (by omega), Int.mul_comm q, Int.mul_comm safe]

theorem safetyScore_le_iff {safe total q : Int} (h : 0 < total) :
    safetyScore safe total ≤ q ↔ 200 * safe + total < 2 * total * (q + 1) := by
  rw [← Int.not_le, ← le_safetyScore_iff h]
  omega

theorem mul_safetyScore_le {total : Int} (safe : Int) (h : 0 < total) :
    2 * total * safetyScore safe total ≤ 200 * safe + total :=
  (le_safetyScore_iff h).mp (Int.le_refl _)

theorem lt_mul_safetyScore_succ {total : Int} (safe : Int) (h : 0 < total) :
    200 * safe + total < 2 * total * (safetyScore safe total + 1) :=
  (safetyScore_le_iff h).mp (Int.le_refl _)

/-! ## The range of scores -/

theorem safetyScore_nonneg {safe total : Int} (hs : 0 ≤ safe) : 0 ≤ safetyScore safe total := by
  by_cases ht : 0 < total
  · exact (le_safetyScore_iff ht).mpr (by omega)
  · rw [safetyScore_of_nonpos (by omega)]
    decide

theorem safetyScore_le_hundred {safe total : Int} (hs : safe ≤ total) :
    safetyScore safe total ≤ 100 := by
  by_cases ht : 0 < total
  · exact (safetyScore_le_iff ht).mpr (by omega)
  · exact Int.le_of_eq (safetyScore_of_nonpos (by omega))

/-- Where everything is safe the score is a hundred. -/
theorem safetyScore_self (total : Int) : safetyScore total total = 100 := by
  by_cases ht : 0 < total
  · have hle : safetyScore total total ≤ 100 := safetyScore_le_hundred (Int.le_refl total)
    have hge : 100 ≤ safetyScore total total := (le_safetyScore_iff ht).mpr (by omega)
    omega
  · exact safetyScore_of_nonpos (by omega)

/-- The score of every report lies between nought and a hundred. -/
theorem Report.score_mem (r : Report) : 0 ≤ r.score ∧ r.score ≤ 100 := by
  have hle : r.safe ≤ r.total := Nat.le_add_right _ _
  exact ⟨safetyScore_nonneg (by omega), safetyScore_le_hundred (by omega)⟩

end WebAudit
