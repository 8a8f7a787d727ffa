import Mathlib.Algebra.Order.Round
import Mathlib.Algebra.Ring.Int.Parity
import Mathlib.Data.Rat.Floor
import Mathlib.Tactic.FieldSimp
import Mathlib.Tactic.Linarith
import WebAudit.Proofs.Score

/-!
# How the score is rounded

The score is the whole number nearest to the share of what is safe, in percent, and of two that are
equally near it is the upper one. So the ends of the scale are reached before the share reaches them: what
is within half a percent of a hundred scores a hundred. The shares of what is safe and of what is not make
up a hundred, and so do their scores, unless both are rounded up.

* `safetyScore_eq_round`: the score as a rounded fraction;
* `safetyScore_eq_hundred_iff`, `safetyScore_eq_zero_iff`: the ends of the scale;
* `safetyScore_compl`, `safetyScore_compl_eq_iff`: the scores of what is safe and of what is not.
-/

namespace WebAudit

variable {safe total : Int}

/-- **The score is the share in percent, rounded.** -/
theorem safetyScore_eq_round (safe : Int) (ht : 0 < total) :
    safetyScore safe total = round (100 * safe / total : ℚ) := by
  have htotal : (0 : ℚ) < 2 * total := by exact_mod_cast (by omega : 0 < 2 * total)
  have hshare : (100 * safe / total : ℚ) + 1 / 2 = (200 * safe + total) / (2 * total) := by
    field_simp
    ring
  rw [round_eq, hshare, eq_comm, Int.floor_eq_iff, le_div_iff₀' htotal, div_lt_iff₀' htotal]
  constructor
  · exact_mod_cast mul_safetyScore_le safe ht
  · exact_mod_cast lt_mul_safetyScore_succ safe ht

/-- The score grows with what is safe. -/
theorem safetyScore_mono (ht : 0 < total) {safe' : Int} (h : safe ≤ safe') :
    safetyScore safe total ≤ safetyScore safe' total := by
  have hle := mul_safetyScore_le safe ht
  exact (le_safetyScore_iff ht).mpr (by omega)

/-! ## The ends of the scale -/

theorem safetyScore_eq_hundred_iff (ht : 0 < total) (hs : safe ≤ total) :
    safetyScore safe total = 100 ↔ 200 * (total - safe) ≤ total := by
  have hle : safetyScore safe total ≤ 100 := safetyScore_le_hundred hs
  have hreach : 100 ≤ safetyScore safe total ↔ 2 * total * 100 ≤ 200 * safe + total :=
    le_safetyScore_iff ht
  omega

theorem safetyScore_eq_zero_iff (ht : 0 < total) (hs : 0 ≤ safe) :
    safetyScore safe total = 0 ↔ 200 * safe < total := by
  have hge : 0 ≤ safetyScore safe total := safetyScore_nonneg hs
  have hreach : 1 ≤ safetyScore safe total ↔ 2 * total * 1 ≤ 200 * safe + total :=
    le_safetyScore_iff ht
  omega

/-! ## What is safe and what is not -/

/-- The share in percent lies halfway between two whole numbers. -/
def IsHalfway (safe total : Int) : Prop :=
  ∃ k, Odd k ∧ 200 * safe = k * total

/-- The scores of what is safe and of what is not, together. -/
theorem safetyScore_compl (safe : Int) (ht : 0 < total) :
    safetyScore safe total + safetyScore (total - safe) total = 100
      ∨ safetyScore safe total + safetyScore (total - safe) total = 101 := by
  have hle := mul_safetyScore_le safe ht
  have hle' := mul_safetyScore_le (total - safe) ht
  have hlt := lt_mul_safetyScore_succ safe ht
  have hlt' := lt_mul_safetyScore_succ (total - safe) ht
  generalize safetyScore safe total = a at *
  generalize safetyScore (total - safe) total = b at *
  have hupper : 2 * total * (a + b) < 2 * total * 102 := by linarith
  have hlower : 2 * total * 99 < 2 * total * (a + b) := by linarith
  have hpos : 0 ≤ 2 * total := by omega
  have := lt_of_mul_lt_mul_left hupper hpos
  have := lt_of_mul_lt_mul_left hlower hpos
  omega

/-- Both are rounded up if and only if the share lies halfway. -/
theorem safetyScore_compl_eq_iff (safe : Int) (ht : 0 < total) :
    safetyScore safe total + safetyScore (total - safe) total = 101 ↔ IsHalfway safe total := by
  have hle := mul_safetyScore_le safe ht
  have hle' := mul_safetyScore_le (total - safe) ht
  constructor
  · intro hsum
    -- the two products come to the whole, so neither is less than what encloses it
    have hb : safetyScore (total - safe) total = 101 - safetyScore safe total := by omega
    rw [hb] at hle'
    refine ⟨2 * safetyScore safe total - 1, ⟨safetyScore safe total - 1, by ring⟩, ?_⟩
    linarith
  · rintro ⟨k, ⟨m, rfl⟩, hk⟩
    have ha : m + 1 ≤ safetyScore safe total := (le_safetyScore_iff ht).mpr (by linarith)
    have hb : 100 - m ≤ safetyScore (total - safe) total := (le_safetyScore_iff ht).mpr (by linarith)
    rcases safetyScore_compl safe ht with h | h
    · omega
    · exact h

/-- **The score is the share in percent, rounded to the nearest whole number with halves going up.** It
lies between nought and a hundred and grows with what is safe. It is a hundred if what is not safe is at
most half a percent, and nought if what is safe is less than half a percent. The scores of what is safe
and of what is not come to 101 if the share lies halfway between two whole numbers, and to 100 if not. -/
theorem safetyScore_rounds_half_up (safe total : Int) (hs : 0 ≤ safe) (hle : safe ≤ total)
    (ht : 0 < total) :
    safetyScore safe total = round (100 * safe / total : ℚ)
    ∧ (∀ n, n = safetyScore safe total
        ↔ 2 * total * n ≤ 200 * safe + total ∧ 200 * safe + total < 2 * total * (n + 1))
    ∧ 0 ≤ safetyScore safe total ∧ safetyScore safe total ≤ 100
    ∧ (∀ safe', safe ≤ safe' → safe' ≤ total → safetyScore safe total ≤ safetyScore safe' total)
    ∧ (safetyScore safe total = 100 ↔ 200 * (total - safe) ≤ total)
    ∧ (safetyScore safe total = 0 ↔ 200 * safe < total)
    ∧ (IsHalfway safe total → safetyScore safe total + safetyScore (total - safe) total = 101)
    ∧ (¬ IsHalfway safe total →
        safetyScore safe total + safetyScore (total - safe) total = 100) := by
  refine ⟨safetyScore_eq_round safe ht, fun n => ?_, safetyScore_nonneg hs,
    safetyScore_le_hundred hle, fun safe' h _ => safetyScore_mono ht h,
    safetyScore_eq_hundred_iff ht hle, safetyScore_eq_zero_iff ht hs,
    (safetyScore_compl_eq_iff safe ht).mpr, fun h => ?_⟩
  · rw [← le_safetyScore_iff ht, ← safetyScore_le_iff ht]
    omega
  · exact (safetyScore_compl safe ht).resolve_right (mt (safetyScore_compl_eq_iff safe ht).mp h)

/-- One risky feature in two hundred still scores a hundred, and one safe feature scores one. -/
theorem safetyScore_rounds_half_up_at_both_ends :
    safetyScore 199 200 = 100 ∧ safetyScore 199 200 + safetyScore 1 200 = 101
      ∧ safetyScore 200 201 = 100 ∧ safetyScore 200 201 + safetyScore 1 201 = 100 := by
  obtain ⟨-, -, -, -, -, hhundred, -, hhalf, -⟩ :=
    safetyScore_rounds_half_up 199 200 (by decide) (by decide) (by decide)
  obtain ⟨-, -, -, -, -, hhundred', -, -, hother⟩ :=
    safetyScore_rounds_half_up 200 201 (by decide) (by decide) (by decide)
  refine ⟨hhundred.mpr (by decide), hhalf ⟨199, by decide, by decide⟩, hhundred'.mpr (by decide),
    hother ?_⟩
  rintro ⟨k, -, hk⟩
  omega

end WebAudit
