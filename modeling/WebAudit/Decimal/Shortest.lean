import WebAudit.Decimal.Double

/-!
# Shortest decimal text

The text of a floating point number with the fewest digits that read back as the same number, and
among those the nearest. `shortest` finds the digits; `text` decides how they are written.
-/

namespace WebAudit.Double

/-! ## Digits -/

/-- Digits and the place of the point before them: `0.d₁d₂…` times ten to the power `point`. -/
structure Digits where
  digits : List Char
  point : Int
deriving DecidableEq, Repr

/-- A fraction as numerator and denominator, times a power of ten. -/
def timesTen (num den : Nat) (power : Int) : Nat × Nat :=
  if power < 0 then (num, den * Nat.pow 10 power.natAbs)
  else (num * Nat.pow 10 power.natAbs, den)

/-- The numbers that round to a mantissa and a power, in units of a quarter of its last place:
lower end, upper end, and whether the ends belong to it. -/
structure Interval where
  low : Nat
  high : Nat
  closed : Bool

/-- The interval of a mantissa. Below a power of two the gap to the next number is half as wide. -/
def interval (m : Nat) (power : Int) : Interval where
  low := if m == Nat.pow 2 52 && leastPower < power then 4 * m - 1 else 4 * m - 2
  high := 4 * m + 2
  closed := m % 2 == 0

/-- How far below ten to the power `k` a fraction lies: the least `k` above it, searched downwards
and upwards from a guess. -/
def decimalSize (num den : Nat) : Nat → Int → Int
  | 0, k => k
  | fuel + 1, k =>
    let (a, b) := timesTen 1 1 k
    if a * den ≤ num * b then decimalSize num den fuel (k + 1)
    else
      let (a', b') := timesTen 1 1 (k - 1)
      if num * b' < a' * den then decimalSize num den fuel (k - 1) else k

/-- The digits of a candidate on the grid with `n` digits, if one of the two grid points around the
number lies in its interval. -/
def onGrid? (m : Nat) (power : Int) (size : Int) (n : Nat) : Option Nat :=
  let i := interval m power
  -- Everything is scaled so that one grid step is `g` and the number is `v`.
  let (vn, vd) := scaled (4 * m) 4 power
  let (sn, sd) := timesTen vn vd (n - size)
  let d := sn / sd
  let inside (c : Nat) : Bool :=
    let (ln, ld) := scaled i.low 4 power
    let (ln, ld) := timesTen ln ld (n - size)
    let (hn, hd) := scaled i.high 4 power
    let (hn, hd) := timesTen hn hd (n - size)
    if i.closed then ln ≤ c * ld && c * hd ≤ hn else ln < c * ld && c * hd < hn
  let below := inside d
  let above := inside (d + 1)
  if below && above then
    let twice := 2 * (sn % sd)
    if twice < sd || (twice == sd && d % 2 == 0) then some d else some (d + 1)
  else if below then some d
  else if above then some (d + 1)
  else none

/-- The first grid that has a candidate. -/
def firstGrid (m : Nat) (power : Int) (size : Int) : Nat → Nat → Digits
  | 0, n => ⟨Nat.toDigits 10 m, n⟩
  | fuel + 1, n =>
    match onGrid? m power size n with
    | some d =>
      let ds := Nat.toDigits 10 d
      ⟨(ds.reverse.dropWhile (· == '0')).reverse, size + (ds.length - n : Int)⟩
    | none => firstGrid m power size fuel (n + 1)

/-- The shortest digits of a positive mantissa times a power of two. -/
def shortest (m : Nat) (power : Int) : Digits :=
  let (num, den) := scaled m 1 power
  let guess : Int := ((Nat.toDigits 10 num).length : Int) - (Nat.toDigits 10 den).length
  let size := decimalSize num den 8 guess
  firstGrid m power size 17 1

/-! ## Text -/

/-- Digits with the point inside or zeros around them. -/
def positional (d : Digits) : List Char :=
  if d.point ≤ 0 then "0.".toList ++ List.replicate d.point.natAbs '0' ++ d.digits
  else
    let k := d.point.toNat
    if d.digits.length ≤ k then
      d.digits ++ List.replicate (k - d.digits.length) '0' ++ ".0".toList
    else d.digits.take k ++ '.' :: d.digits.drop k

/-- Digits with a power of ten, which has a sign and at least two places. -/
def scientific (d : Digits) : List Char :=
  let e := d.point - 1
  let mantissa := match d.digits with
    | [] => ['0']
    | [c] => [c]
    | c :: r => c :: '.' :: r
  let places := Nat.toDigits 10 e.natAbs
  let places := if places.length < 2 then '0' :: places else places
  mantissa ++ 'e' :: (if e < 0 then '-' else '+') :: places

/-- Powers of ten from `-4` to `15` are written out; others get an exponent. -/
def isPositional (d : Digits) : Bool :=
  -4 < d.point && d.point ≤ 16

/-- The text of a number. -/
def text : Double → String
  | nan => "nan"
  | infinite negative => if negative then "-inf" else "inf"
  | finite negative m power =>
    let body :=
      if m == 0 then "0.0".toList
      else
        let d := shortest m power
        if isPositional d then positional d else scientific d
    String.ofList (if negative then '-' :: body else body)

end WebAudit.Double
