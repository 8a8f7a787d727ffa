import Mathlib.Algebra.Order.Field.Rat
import Mathlib.Tactic.Positivity
import WebAudit.Proofs.Aggregation
import WebAudit.Scan.Gate

/-!
# What passes a gate

A threshold that is a number is compared as what it is, a fraction (`Double.value?`), however large or
small; so a gate passes if and only if the score reaches the fraction and, where that is asked for,
nothing is risky. What has nothing risky in it scores a hundred, and then a threshold of a hundred
or less decides nothing.
-/

namespace WebAudit

/-! ## Numbers as fractions -/

namespace Double

/-- The exact value of a finite number. -/
def value? : Double → Option ℚ
  | finite negative mantissa power =>
    some (((if negative then -1 else 1 : Int) * mantissa : Int) * 2 ^ power)
  | infinite _ | nan => none

/-- A whole number times a power of two is at most another one: the power is multiplied to the side
where it is whole. -/
theorem mul_zpow_le_iff (a n power : Int) :
    (a : ℚ) * 2 ^ power ≤ n ↔
      if power < 0 then a ≤ n * Nat.pow 2 power.natAbs else a * Nat.pow 2 power.natAbs ≤ n := by
  cases power with
  | ofNat k =>
    rw [Int.ofNat_eq_natCast, if_neg (by simp), Int.natAbs_natCast, zpow_natCast, Nat.pow_eq]
    exact_mod_cast Iff.rfl
  | negSucc k =>
    have hpos : (0 : ℚ) < 2 ^ (k + 1) := by positivity
    rw [if_pos (Int.negSucc_lt_zero k), Int.natAbs_negSucc, zpow_negSucc, ← div_eq_mul_inv,
      div_le_iff₀ hpos, Nat.pow_eq]
    exact_mod_cast Iff.rfl

/-- A finite number is compared by its exact value. -/
theorem leInt_iff {x : Double} {q : ℚ} (h : x.value? = some q) (n : Int) :
    x.leInt n = true ↔ q ≤ n := by
  cases x with
  | infinite negative => cases h
  | nan => cases h
  | finite negative m power =>
    obtain rfl := Option.some.inj h
    rw [mul_zpow_le_iff, leInt]
    split
    · exact decide_eq_true_iff
    · exact decide_eq_true_iff

end Double

namespace Scan

/-! ## Thresholds -/

/-- The exact value of a threshold that is a number. -/
def Threshold.value? : Threshold → Option ℚ
  | .whole n => some n
  | .float x => x.value?

theorem Threshold.reachedBy_iff {t : Threshold} {q : ℚ} (h : t.value? = some q) (score : Int) :
    t.reachedBy score = true ↔ q ≤ score := by
  cases t with
  | whole n =>
    obtain rfl := Option.some.inj h
    simp [reachedBy]
  | float x => exact x.leInt_iff h score

/-- A gate passes if and only if the score reaches its threshold and it refuses no risky feature. -/
theorem Gate.passes_iff {g : Gate} {q : ℚ} (h : g.minScore.value? = some q) (score risky : Int) :
    g.passes score risky = true ↔ q ≤ score ∧ ¬ (g.failOnRisky = true ∧ 0 < risky) := by
  rw [passes, Bool.and_eq_true, Threshold.reachedBy_iff h, Bool.not_eq_true', ← Bool.not_eq_true,
    blocksRisky, Bool.and_eq_true, decide_eq_true_iff]

/-! ## Nothing risky -/

/-- A summary without risky features scores a hundred. -/
theorem Summary.Agrees.score_eq_hundred {s : Summary} {r : Report} (h : s.Agrees r)
    (hrisky : s.risky = 0) : s.score = 100 := by
  have htotal : s.total = s.safe := by
    rw [h.total, h.safe, Report.total, ← h.risky, hrisky, Nat.add_zero]
  rw [Summary.score, htotal, safetyScore_self]

/-- With a threshold of a hundred or less, a gate that refuses risky features asks for nothing else. -/
theorem Summary.Agrees.passes_iff {s : Summary} {r : Report} (h : s.Agrees r) {g : Gate} {q : ℚ}
    (hvalue : g.minScore.value? = some q) (hq : q ≤ 100) (hfail : g.failOnRisky = true) :
    g.passes s.score s.risky = true ↔ r.risky = [] := by
  rw [Gate.passes_iff hvalue, ← List.length_eq_zero_iff, ← h.risky]
  constructor
  · rintro ⟨-, hnone⟩
    have hnot : ¬ 0 < (s.risky : Int) := fun hpos => hnone ⟨hfail, hpos⟩
    omega
  · intro hrisky
    rw [h.score_eq_hundred hrisky, hrisky]
    exact ⟨by exact_mod_cast hq, by simp⟩

end Scan

end WebAudit
