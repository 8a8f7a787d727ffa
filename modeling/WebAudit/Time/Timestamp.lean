import WebAudit.Text.Lines

/-!
# Points in time

Dates with a time of day and perhaps an offset from universal time, and their ISO 8601 texts. `text`
writes the extended form; `parse?` also reads the basic form, week dates, any separator between date
and time, and shortened times. What `text` writes, `parse?` reads.
-/

namespace WebAudit.Time

/-- A point in time. The offset is in microseconds. -/
structure Timestamp where
  year : Nat
  month : Nat
  day : Nat
  hour : Nat := 0
  minute : Nat := 0
  second : Nat := 0
  microsecond : Nat := 0
  offset : Option Int := none
deriving DecidableEq, Repr

/-! ## The calendar -/

def isLeapYear (y : Nat) : Bool :=
  y % 4 == 0 && (y % 100 != 0 || y % 400 == 0)

/-- How many days a month has. -/
def daysInMonth (y m : Nat) : Nat :=
  if m == 2 then (if isLeapYear y then 29 else 28)
  else if m == 4 || m == 6 || m == 9 || m == 11 then 30
  else 31

def daysInYear (y : Nat) : Nat :=
  if isLeapYear y then 366 else 365

/-- How many days lie before the first day of a year, from the year one. -/
def daysBeforeYear (y : Nat) : Nat :=
  (y - 1) * 365 + (y - 1) / 4 - (y - 1) / 100 + (y - 1) / 400

/-- The day of the week on which a year starts; Monday is zero. -/
def firstWeekday (y : Nat) : Nat :=
  daysBeforeYear y % 7

/-- Whether a year has a week with this number. -/
def hasWeek (y w : Nat) : Bool :=
  (1 ≤ w && w ≤ 52)
    || (w == 53 && (firstWeekday y == 3 || (firstWeekday y == 2 && isLeapYear y)))

/-- The month and day that is `d` days after the first day of month `m`. -/
def monthAndDay (y : Nat) : Nat → Nat → Nat → Nat × Nat
  | 0, m, d => (m, d + 1)
  | k + 1, m, d =>
    if d < daysInMonth y m then (m, d + 1) else monthAndDay y k (m + 1) (d - daysInMonth y m)

/-- The date of a day in a week of a year. -/
def weekDate? (y w d : Nat) : Option (Nat × Nat × Nat) :=
  if 1 ≤ y && hasWeek y w && 1 ≤ d && d ≤ 7 then
    let first := firstWeekday y
    let days := (w - 1) * 7 + (d - 1) + (if first ≤ 3 then 0 else 7)
    if days < first then some (y - 1, 12, 32 + days - first)
    else
      let n := days - first
      if n < daysInYear y then
        let (m, d) := monthAndDay y 12 1 n
        some (y, m, d)
      else some (y + 1, 1, n - daysInYear y + 1)
  else none

/-! ## Digits -/

def isDigit (c : Char) : Bool :=
  '0' ≤ c && c ≤ '9'

/-- The number that `n` digits at the start of a text spell, and what follows. -/
def digits? (n : Nat) (cs : List Char) : Option (Nat × List Char) :=
  let ds := cs.take n
  if ds.length == n && ds.all isDigit then
    some (ds.foldl (fun v c => v * 10 + (c.toNat - 48)) 0, cs.drop n)
  else none

/-- The first character of a text; past the end it is null. -/
def peek (cs : List Char) : Char :=
  cs.headD '\x00'

/-! ## Dates -/

/-- How many characters of a text are its date. -/
def dateLength? (cs : List Char) : Option Nat :=
  let char (i : Nat) : Char := peek (cs.drop i)
  if cs.length < 7 then none
  else if cs.length == 7 then some 7
  else if char 4 == '-' then
    if char 5 == 'W' then
      if char 8 == '-' then
        if cs.length == 9 then none
        else if isDigit (char 10) then some 8
        else some 10
      else some 8
    else some 10
  else if char 4 == 'W' then
    let run := 7 + ((cs.drop 7).takeWhile isDigit).length
    if run < 9 then some run
    else if run % 2 == 0 then some 7
    else some 8
  else some 8

/-- A text without a hyphen at its start, if there has to be one. -/
def afterHyphen? (hyphens : Bool) (cs : List Char) : Option (List Char) :=
  if hyphens then (if peek cs == '-' then some (cs.drop 1) else none) else some cs

/-- Reads a date of `n` characters. -/
def date? (n : Nat) (cs : List Char) : Option (Nat × Nat × Nat) := do
  let (y, r) ← digits? 4 cs
  let hyphens := peek r == '-'
  let r := if hyphens then r.drop 1 else r
  if peek r == 'W' then
    let (w, r) ← digits? 2 (r.drop 1)
    if cs.length - r.length < n then
      let (d, _) ← digits? 1 (← afterHyphen? hyphens r)
      weekDate? y w d
    else weekDate? y w 1
  else
    let (m, r) ← digits? 2 r
    let (d, r) ← digits? 2 (← afterHyphen? hyphens r)
    if cs.length - r.length == n then some (y, m, d) else none

/-! ## Times of day -/

/-- A time of day, or the size of an offset. -/
structure Clock where
  hour : Nat := 0
  minute : Nat := 0
  second : Nat := 0
  microsecond : Nat := 0
deriving DecidableEq, Repr

/-- Sets the first, second or third part of a clock. -/
def Clock.set (c : Clock) (part value : Nat) : Clock :=
  match part with
  | 0 => { c with hour := value }
  | 1 => { c with minute := value }
  | _ => { c with second := value }

/-- Reads a fraction of a second of `n` bytes. Digits after the sixth are passed over. The flag
says whether something is left. -/
def fraction? (c : Clock) (n : Nat) (cs : List Char) : Option (Clock × Bool) := do
  let k := min n 6
  let (v, r) ← digits? k cs
  let r := r.dropWhile isDigit
  some ({ c with microsecond := v * Nat.pow 10 (6 - k) }, peek r != '\x00')

/-- Reads hours, minutes and seconds from `n` bytes, starting with the given part, and then a
fraction. Only two-digit hours are needed. The flag says whether something is left. -/
def clockFrom? (c : Clock) (colons : Bool) (part : Nat) (left : Nat) (n : Nat) (cs : List Char) :
    Option (Clock × Bool) :=
  match left with
  | 0 => fraction? c n cs
  | left + 1 => do
    let (v, r) ← digits? 2 cs
    let c := c.set part v
    let mark := peek r
    let colons := if part == 0 then mark == ':' else colons
    if n ≤ 3 then some (c, mark != '\x00')
    else if colons && mark == ':' then clockFrom? c colons (part + 1) left (n - 3) (r.drop 1)
    else if mark == '.' || mark == ',' then fraction? c (n - 3) (r.drop 1)
    else if !colons then clockFrom? c colons (part + 1) left (n - 2) r
    else none

/-- Reads a time of day of `n` bytes. -/
def clock? (n : Nat) (cs : List Char) : Option (Clock × Bool) :=
  clockFrom? {} false 0 3 n cs

/-- Microseconds of a clock. -/
def Clock.microseconds (c : Clock) : Nat :=
  ((c.hour * 60 + c.minute) * 60 + c.second) * 1000000 + c.microsecond

/-- The offset that a sign and a clock stand for. It is less than a day; less than a second counts
as none. -/
def offset? (negative : Bool) (c : Clock) : Option Int :=
  if c.microseconds < 1000000 then some 0
  else if c.microseconds < 24 * 3600 * 1000000 then
    some (if negative then -(c.microseconds : Int) else c.microseconds)
  else none

/-- Reads a time of day with its offset. -/
def time? (cs : List Char) : Option (Clock × Option Int) := do
  let before := cs.takeWhile fun c => !(c == '+' || c == '-' || c == 'Z')
  let (c, more) ← clock? (Text.byteLength before) cs
  match cs.drop before.length with
  | [] => if more then none else some (c, none)
  | 'Z' :: r => if peek r == '\x00' then some (c, some 0) else none
  | sign :: r =>
    let (o, more) ← clock? (Text.byteLength r) r
    if more then none
    else
      let v ← offset? (sign == '-') o
      some (c, some v)

/-! ## Points in time -/

/-- Whether the parts are within their bounds. -/
def Timestamp.isValid (t : Timestamp) : Bool :=
  1 ≤ t.year && t.year ≤ 9999 && 1 ≤ t.month && t.month ≤ 12 && 1 ≤ t.day
    && t.day ≤ daysInMonth t.year t.month && t.hour < 24 && t.minute < 60 && t.second < 60

/-- Reads a point in time. -/
def parse? (text : String) : Option Timestamp := do
  let cs := text.toList
  let n ← dateLength? cs
  let (y, m, d) ← date? n cs
  let (c, o) ← match cs.drop n with
    | [] => some ({}, none)
    | _ :: r => time? r
  let t : Timestamp := ⟨y, m, d, c.hour, c.minute, c.second, c.microsecond, o⟩
  if t.isValid then some t else none

/-! ## Texts -/

/-- A number with leading zeros. -/
def padded (width n : Nat) : String :=
  let ds := Nat.toDigits 10 n
  String.ofList (List.replicate (width - ds.length) '0' ++ ds)

/-- Microseconds after a point, unless there are none. -/
def fractionText (n : Nat) : String :=
  if n == 0 then "" else "." ++ padded 6 n

/-- The text of an offset. -/
def offsetText (o : Int) : String :=
  let n := o.natAbs
  let seconds := n / 1000000
  (if o < 0 then "-" else "+") ++ padded 2 (seconds / 3600) ++ ":" ++ padded 2 (seconds / 60 % 60)
    ++ (if n % 60000000 == 0 then "" else ":" ++ padded 2 (seconds % 60))
    ++ fractionText (n % 1000000)

/-- The ISO 8601 text of a point in time. -/
def Timestamp.text (t : Timestamp) : String :=
  padded 4 t.year ++ "-" ++ padded 2 t.month ++ "-" ++ padded 2 t.day ++ "T" ++ padded 2 t.hour
    ++ ":" ++ padded 2 t.minute ++ ":" ++ padded 2 t.second ++ fractionText t.microsecond
    ++ (t.offset.map offsetText).getD ""

end WebAudit.Time
