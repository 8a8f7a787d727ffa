import WebAudit.Json.Reader
import WebAudit.Time.Timestamp

/-!
# Decimal digits

Whole numbers are written by `Nat.toDigits` and read by two readers, one of JSON and one of points in
time. Both read what was written: they take the same characters for digits, and they give digits the
same value.
-/

namespace WebAudit

theorem Json.isDigit_eq (c : Char) : Json.isDigit c = c.isDigit := rfl

theorem Time.isDigit_eq (c : Char) : Time.isDigit c = c.isDigit := rfl

/-- Digits have the value that is spelled in base ten. -/
theorem Json.digitsValue_eq (ds : List Char) : Json.digitsValue ds = Nat.ofDigitChars 10 ds 0 := by
  simp only [Json.digitsValue, Nat.ofDigitChars_eq_foldl, Nat.mul_comm]

theorem isDigit_of_mem_toDigits {c : Char} {n : Nat} (h : c ∈ Nat.toDigits 10 n) : c.isDigit = true :=
  Nat.isDigit_of_mem_toDigits (by decide) (by decide) h

/-- Digits have a value with no more digits. -/
theorem ofDigitChars_lt {ds : List Char} (h : ∀ c ∈ ds, c.isDigit = true) :
    Nat.ofDigitChars 10 ds 0 < Nat.pow 10 ds.length := by
  induction ds with
  | nil => exact Nat.one_pos
  | cons c ds ih =>
    have hc : c.toNat - '0'.toNat ≤ 9 :=
      Nat.sub_le_sub_right (Char.isDigit_iff_toNat.mp (h c List.mem_cons_self)).2 _
    have ih := ih fun d hd => h d (List.mem_cons_of_mem _ hd)
    rw [Nat.ofDigitChars_cons, Nat.ofDigitChars_eq_ofDigitChars_zero, Nat.mul_zero, Nat.zero_add]
    calc Nat.pow 10 ds.length * (c.toNat - '0'.toNat) + Nat.ofDigitChars 10 ds 0
        < Nat.pow 10 ds.length * (c.toNat - '0'.toNat) + Nat.pow 10 ds.length :=
          Nat.add_lt_add_left ih _
      _ = Nat.pow 10 ds.length * (c.toNat - '0'.toNat + 1) := by rw [Nat.mul_succ]
      _ ≤ Nat.pow 10 ds.length * 10 := Nat.mul_le_mul_left _ (by omega)

/-- A number other than zero does not start with a zero. -/
theorem head?_toDigits_ne_zero {n : Nat} (h : 0 < n) : (Nat.toDigits 10 n).head? ≠ some '0' := by
  induction n using Nat.strongRecOn with
  | _ n ih =>
    rw [Nat.toDigits_eq_if (by decide)]
    split
    · simpa using Nat.ne_of_gt h
    · have hhead : (Nat.toDigits 10 (n / 10)).head? ≠ some '0' := ih (n / 10) (by omega) (by omega)
      rw [List.head?_append]
      intro hzero
      cases hd : (Nat.toDigits 10 (n / 10)).head? with
      | none => simp at hd
      | some d =>
        rw [hd] at hzero hhead
        exact hhead hzero

end WebAudit
