/-!
# Binary floating point numbers

A number of 64-bit binary floating point as exact data: a sign, a whole mantissa below `2 ^ 53` and
a power of two, or an infinity, or not a number. Decimal text is turned into the nearest number (a
tie goes to the even mantissa), and comparison with whole numbers is exact.
-/

namespace WebAudit

/-- A 64-bit binary floating point number. -/
inductive Double where
  /-- The mantissa times two to the power, with the sign. -/
  | finite (negative : Bool) (mantissa : Nat) (power : Int)
  | infinite (negative : Bool)
  | nan
deriving DecidableEq, Repr, Inhabited

namespace Double

/-- The least power of two of a finite number. -/
def leastPower : Int := -1074

/-- The greatest power of two of a finite number. -/
def greatestPower : Int := 971

/-- A fraction rounded to a whole number, ties to the even neighbour. -/
def roundDiv (num den : Nat) : Nat :=
  let q := num / den
  let r := num % den
  if den < 2 * r || (2 * r == den && q % 2 == 1) then q + 1 else q

/-- Two to a power that may be negative, times a fraction. -/
def scaled (num den : Nat) (power : Int) : Nat × Nat :=
  if power < 0 then (num, den * Nat.pow 2 power.natAbs)
  else (num * Nat.pow 2 power.natAbs, den)

/-- The nearest number to a positive fraction. -/
def ofRatio (negative : Bool) (num den : Nat) : Double :=
  let size : Int := (Nat.log2 num : Int) - (Nat.log2 den : Int)
  let low := max leastPower (size - 53)
  let (n, d) := scaled num den (-low)
  let power := if Nat.pow 2 53 ≤ n / d then low + 1 else low
  let (n, d) := scaled num den (-power)
  let m := roundDiv n d
  let (m, power) := if m == Nat.pow 2 53 then (Nat.pow 2 52, power + 1) else (m, power)
  if greatestPower < power then .infinite negative else .finite negative m power

/-- The nearest number to decimal digits times a power of ten. Numbers beyond the range are settled
by their size alone. -/
def ofDecimal (negative : Bool) (digits : Nat) (exponent : Int) : Double :=
  let size : Int := ((Nat.toDigits 10 digits).length : Int) + exponent
  if digits == 0 || size < -400 then .finite negative 0 leastPower
  else if 400 < size then .infinite negative
  else if exponent < 0 then ofRatio negative digits (Nat.pow 10 exponent.natAbs)
  else ofRatio negative (digits * Nat.pow 10 exponent.natAbs) 1

/-- The number of a whole number. -/
def ofInt (n : Int) : Double :=
  ofDecimal (n < 0) n.natAbs 0

/-- Whether a number is at most a whole number; never for what is not a number. -/
def leInt (x : Double) (n : Int) : Bool :=
  match x with
  | nan => false
  | infinite negative => negative
  | finite negative m power =>
    let sign : Int := if negative then -1 else 1
    if power < 0 then sign * m ≤ n * Nat.pow 2 power.natAbs
    else sign * m * Nat.pow 2 power.natAbs ≤ n

/-- The whole number that a number is equal to, if there is one. -/
def toInt? (x : Double) : Option Int :=
  match x with
  | finite negative m power =>
    let sign : Int := if negative then -1 else 1
    if power < 0 then
      if m % Nat.pow 2 power.natAbs == 0 then some (sign * (m / Nat.pow 2 power.natAbs : Nat))
      else none
    else some (sign * m * Nat.pow 2 power.natAbs)
  | _ => none

end Double

end WebAudit
