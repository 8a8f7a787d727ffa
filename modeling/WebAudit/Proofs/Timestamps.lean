import WebAudit.Proofs.Digits

/-!
# Points in time are read back

`parse?` reads what `Timestamp.text` writes. A point in time can be read from some text if and only
if its parts are within bounds (`Timestamp.InBounds`), and then it is read from its own text: a clock
is read as far as its seconds and its fraction are written, and the offset is told from the sign in
front of its clock.
-/

namespace WebAudit.Time

/-! ## Digits -/

theorem digits?_eq_some {n v : Nat} {cs r : List Char} (h : digits? n cs = some (v, r)) :
    v < Nat.pow 10 n ∧ r = cs.drop n := by
  unfold digits? at h
  dsimp only at h
  split at h
  · next hdigits =>
    simp only [Bool.and_eq_true, beq_iff_eq, List.all_eq_true] at hdigits
    obtain ⟨rfl, rfl⟩ := Prod.mk.inj (Option.some.inj h)
    have hlt := ofDigitChars_lt hdigits.2
    rw [hdigits.1, ← Json.digitsValue_eq] at hlt
    exact ⟨hlt, rfl⟩
  · cases h

theorem isDigit_of_mem_padded {width n : Nat} {c : Char} (h : c ∈ (padded width n).toList) :
    isDigit c = true := by
  rw [padded, String.toList_ofList, List.mem_append] at h
  rcases h with h | h
  · rw [List.eq_of_mem_replicate h]
    rfl
  · exact isDigit_of_mem_toDigits h

theorem length_padded {width n : Nat} (hw : 0 < width) (hn : n < Nat.pow 10 width) :
    (padded width n).toList.length = width := by
  have hlength : (Nat.toDigits 10 n).length ≤ width :=
    (Nat.length_toDigits_le_iff (by decide) hw).mpr hn
  rw [padded, String.toList_ofList, List.length_append, List.length_replicate]
  omega

theorem length_padded_two {n : Nat} (hn : n < 100) : (padded 2 n).toList.length = 2 :=
  length_padded (by decide) hn

theorem length_padded_four {n : Nat} (hn : n < 10000) : (padded 4 n).toList.length = 4 :=
  length_padded (by decide) hn

theorem digitsValue_padded (width n : Nat) : Json.digitsValue (padded width n).toList = n := by
  rw [padded, String.toList_ofList, Json.digitsValue_eq, Nat.ofDigitChars_append,
    Nat.ofDigitChars_replicate_zero, Nat.mul_zero, Nat.ofDigitChars_ten_toDigits]

/-- A number is read back from its padded digits. -/
theorem digits?_padded {width n : Nat} (hw : 0 < width) (hn : n < Nat.pow 10 width)
    (rest : List Char) : digits? width ((padded width n).toList ++ rest) = some (n, rest) := by
  have hlength := length_padded hw hn
  have htake : ((padded width n).toList ++ rest).take width = (padded width n).toList :=
    List.take_left' hlength
  have hdrop : ((padded width n).toList ++ rest).drop width = rest := List.drop_left' hlength
  have hall : (padded width n).toList.all isDigit = true :=
    List.all_eq_true.mpr fun c => isDigit_of_mem_padded
  rw [digits?, htake, hdrop, if_pos (by simp [hlength, hall])]
  exact congrArg (fun v => some (v, rest)) (digitsValue_padded width n)

/-! ## Clocks -/

section

variable {c : Clock} {colons : Bool} {part left n v : Nat} (hv : v < 100) {r : List Char}

include hv

/-- A part of a clock with a colon after it. -/
theorem clockFrom?_colon (hn : 3 < n) (hcolons : part = 0 ∨ colons = true) :
    clockFrom? c colons part (left + 1) n ((padded 2 v).toList ++ ':' :: r)
      = clockFrom? (c.set part v) true (part + 1) left (n - 3) r := by
  have hpeek : peek (':' :: r) = ':' := rfl
  rw [clockFrom?, digits?_padded (by decide) hv]
  rcases hcolons with rfl | rfl
  all_goals simp [hpeek, Nat.not_le_of_lt hn]

/-- The last part of a clock. -/
theorem clockFrom?_last (hn : n ≤ 3) :
    clockFrom? c colons part (left + 1) n ((padded 2 v).toList ++ r)
      = some (c.set part v, peek r != '\x00') := by
  rw [clockFrom?, digits?_padded (by decide) hv]
  simp [hn]

/-- The last part of a clock with a fraction after it. -/
theorem clockFrom?_point (hn : 3 < n) :
    clockFrom? c colons part (left + 1) n ((padded 2 v).toList ++ '.' :: r)
      = fraction? (c.set part v) (n - 3) r := by
  have hpeek : peek ('.' :: r) = '.' := rfl
  rw [clockFrom?, digits?_padded (by decide) hv]
  simp [hpeek, Nat.not_le_of_lt hn]

end

theorem fraction?_padded {c : Clock} {n : Nat} (hn : n < 1000000) {rest : List Char}
    (hrest : ∀ d ∈ rest.head?, isDigit d = false) :
    fraction? c 6 ((padded 6 n).toList ++ rest)
      = some ({ c with microsecond := n }, peek rest != '\x00') := by
  have hdrop : rest.dropWhile isDigit = rest := by
    cases rest with
    | nil => rfl
    | cons d rest => simp [hrest d rfl]
  rw [fraction?, Nat.min_self, digits?_padded (by decide) hn]
  simp [hdrop]

/-- A clock whose parts have two digits each, with microseconds below a second. -/
structure Clock.InBounds (c : Clock) : Prop where
  hour : c.hour < 100
  minute : c.minute < 100
  second : c.second < 100
  microsecond : c.microsecond < 1000000

/-- Hours, minutes and seconds, with a fraction if there is one. -/
def clockText (c : Clock) : List Char :=
  (padded 2 c.hour).toList ++ ':' :: ((padded 2 c.minute).toList ++ ':' ::
    ((padded 2 c.second).toList ++ (fractionText c.microsecond).toList))

/-- Hours and minutes. -/
def shortText (c : Clock) : List Char :=
  (padded 2 c.hour).toList ++ ':' :: (padded 2 c.minute).toList

theorem toList_fractionText (n : Nat) :
    (fractionText n).toList = if n = 0 then [] else '.' :: (padded 6 n).toList := by
  unfold fractionText
  by_cases h : n = 0
  · simp [h]
  · simp [h]

section

variable {c : Clock} (hc : c.InBounds) {r : List Char}

include hc

theorem length_shortText : (shortText c).length = 5 := by
  simp only [shortText, List.length_append, List.length_cons, length_padded_two hc.hour,
    length_padded_two hc.minute]

theorem length_clockText :
    (clockText c).length = if c.microsecond = 0 then 8 else 15 := by
  simp only [clockText, List.length_append, List.length_cons, length_padded_two hc.hour,
    length_padded_two hc.minute, length_padded_two hc.second, toList_fractionText]
  split
  · rfl
  · rw [List.length_cons, length_padded (by decide) hc.microsecond]

/-- A clock without seconds is read back from its hours and minutes. -/
theorem clock?_shortText (hsecond : c.second = 0) (hmicro : c.microsecond = 0) :
    clock? (shortText c).length (shortText c ++ r) = some (c, peek r != '\x00') := by
  rw [length_shortText hc, shortText, List.append_assoc, List.cons_append, clock?,
    clockFrom?_colon hc.hour (by decide) (.inl rfl), clockFrom?_last hc.minute (by decide)]
  cases c
  simp_all [Clock.set]

/-- A clock is read back from its text before anything but a digit. The flag says whether something
is left. -/
theorem clock?_clockText (hr : ∀ d ∈ r.head?, isDigit d = false) :
    clock? (clockText c).length (clockText c ++ r) = some (c, peek r != '\x00') := by
  rw [length_clockText hc, clockText]
  simp only [List.append_assoc, List.cons_append, toList_fractionText]
  split
  · next hmicro =>
    rw [clock?, clockFrom?_colon hc.hour (by decide) (.inl rfl),
      clockFrom?_colon hc.minute (by decide) (.inr rfl), List.nil_append,
      clockFrom?_last hc.second (by decide)]
    cases c
    simp_all [Clock.set]
  · next hmicro =>
    rw [clock?, clockFrom?_colon hc.hour (by decide) (.inl rfl),
      clockFrom?_colon hc.minute (by decide) (.inr rfl), List.cons_append,
      clockFrom?_point hc.second (by decide), fraction?_padded hc.microsecond hr]
    rfl

end

/-! ## Offsets -/

/-- The clock that stands after the sign of an offset. -/
def offsetClock (o : Int) : Clock where
  hour := o.natAbs / 1000000 / 3600
  minute := o.natAbs / 1000000 / 60 % 60
  second := o.natAbs / 1000000 % 60
  microsecond := o.natAbs % 1000000

/-- Whole minutes are written without seconds. -/
theorem toList_offsetText (o : Int) :
    (offsetText o).toList = (if o < 0 then '-' else '+') ::
      (if o.natAbs % 60000000 = 0 then shortText (offsetClock o) else clockText (offsetClock o)) := by
  have hfraction : o.natAbs % 60000000 = 0 → o.natAbs % 1000000 = 0 := by omega
  have hsign : (if o < 0 then "-" else "+").toList = [if o < 0 then '-' else '+'] := by
    split <;> rfl
  simp only [offsetText, String.toList_append, hsign, toList_fractionText, beq_iff_eq,
    List.append_assoc, List.singleton_append]
  by_cases hminute : o.natAbs % 60000000 = 0
  · simp [hminute, shortText, offsetClock, hfraction hminute]
  · simp [hminute, clockText, offsetClock, toList_fractionText]

theorem microseconds_offsetClock (o : Int) : (offsetClock o).microseconds = o.natAbs := by
  simp only [Clock.microseconds, offsetClock]
  omega

/-- An offset is none at all or at least a second, and less than a day. -/
def OffsetInBounds (o : Int) : Prop :=
  o = 0 ∨ 1000000 ≤ o.natAbs ∧ o.natAbs < 24 * 3600 * 1000000

section

variable {o : Int} (ho : OffsetInBounds o)

include ho

theorem inBounds_offsetClock : (offsetClock o).InBounds := by
  unfold OffsetInBounds at ho
  constructor
  all_goals simp only [offsetClock]; omega

theorem offset?_offsetClock : offset? (decide (o < 0)) (offsetClock o) = some o := by
  unfold OffsetInBounds at ho
  rw [offset?, microseconds_offsetClock]
  split
  · exact congrArg some (by omega)
  · rw [if_pos (by omega)]
    split
    · next hneg =>
      have hneg := of_decide_eq_true hneg
      exact congrArg some (by omega)
    · next hpos =>
      have hpos := of_decide_eq_false (Bool.eq_false_iff.mpr hpos)
      exact congrArg some (by omega)

end

theorem byteLength_of_forall {cs : List Char} (h : ∀ c ∈ cs, c.utf8Size = 1) :
    Text.byteLength cs = cs.length := by
  induction cs with
  | nil => rfl
  | cons c cs ih =>
    obtain ⟨hc, hcs⟩ := List.forall_mem_cons.mp h
    rw [Text.byteLength, hc, ih hcs, List.length_cons, Nat.add_comm]

/-- The characters of a clock: digits and what stands between its parts. -/
def isClockChar (c : Char) : Bool :=
  isDigit c || c == ':' || c == '.'

theorem isClockChar_of_mem_padded {width n : Nat} {d : Char} (h : d ∈ (padded width n).toList) :
    isClockChar d = true := by
  simp [isClockChar, isDigit_of_mem_padded h]

theorem isClockChar_of_mem_shortText {c : Clock} {d : Char} (h : d ∈ shortText c) :
    isClockChar d = true := by
  simp only [shortText, List.mem_append, List.mem_cons] at h
  rcases h with h | rfl | h
  · exact isClockChar_of_mem_padded h
  · rfl
  · exact isClockChar_of_mem_padded h

theorem isClockChar_of_mem_clockText {c : Clock} {d : Char} (h : d ∈ clockText c) :
    isClockChar d = true := by
  simp only [clockText, List.mem_append, List.mem_cons, toList_fractionText] at h
  rcases h with h | rfl | h | rfl | h | h
  · exact isClockChar_of_mem_padded h
  · rfl
  · exact isClockChar_of_mem_padded h
  · rfl
  · exact isClockChar_of_mem_padded h
  · split at h
    · cases h
    · rcases List.mem_cons.mp h with rfl | h
      · rfl
      · exact isClockChar_of_mem_padded h

theorem utf8Size_of_isClockChar {c : Char} (h : isClockChar c = true) : c.utf8Size = 1 := by
  simp only [isClockChar, isDigit_eq, Bool.or_eq_true, beq_iff_eq, or_assoc] at h
  rcases h with h | rfl | rfl
  · rw [Char.isDigit_iff_toNat] at h
    have hascii : c.val.toNat ≤ 127 := Nat.le_trans h.2 (by decide)
    exact Char.utf8Size_eq_one_iff.mpr (UInt32.le_iff_toNat_le.mpr hascii)
  · rfl
  · rfl

/-- A clock text is as many bytes as characters. -/
theorem byteLength_of_isClockChar {cs : List Char} (h : ∀ c ∈ cs, isClockChar c = true) :
    Text.byteLength cs = cs.length :=
  byteLength_of_forall fun c hc => utf8Size_of_isClockChar (h c hc)

/-- The clock of a time of day ends at the sign of its offset. -/
theorem takeWhile_isClockChar {cs r : List Char} (h : ∀ c ∈ cs, isClockChar c = true)
    (hr : ∀ c ∈ r.head?, c = '+' ∨ c = '-') :
    (cs ++ r).takeWhile (fun c => !(c == '+' || c == '-' || c == 'Z')) = cs := by
  have hall : ∀ c ∈ cs, (!(c == '+' || c == '-' || c == 'Z')) = true := by
    intro c hc
    have hclock := h c hc
    simp only [Bool.not_eq_true', Bool.or_eq_false_iff, beq_eq_false_iff_ne]
    refine ⟨⟨?_, ?_⟩, ?_⟩
    all_goals
      rintro rfl
      exact absurd hclock (by decide)
  rw [List.takeWhile_append_of_pos hall]
  cases r with
  | nil => simp
  | cons d r =>
    rcases hr d rfl with rfl | rfl
    all_goals simp

/-! ## Times of day -/

theorem clock?_offsetClock {o : Int} (ho : OffsetInBounds o) {r : List Char}
    (h : r = if o.natAbs % 60000000 = 0 then shortText (offsetClock o)
      else clockText (offsetClock o)) :
    clock? (Text.byteLength r) r = some (offsetClock o, false) := by
  have hc := inBounds_offsetClock ho
  split at h
  · next hminute =>
    have hsecond : (offsetClock o).second = 0 := by
      simp only [offsetClock]
      omega
    have hmicro : (offsetClock o).microsecond = 0 := by
      simp only [offsetClock]
      omega
    have hclock := clock?_shortText hc (r := []) hsecond hmicro
    rw [List.append_nil, ← h] at hclock
    rw [byteLength_of_isClockChar fun d hd => isClockChar_of_mem_shortText (h ▸ hd), hclock]
    rfl
  · have hclock := clock?_clockText hc (r := []) (by simp)
    rw [List.append_nil, ← h] at hclock
    rw [byteLength_of_isClockChar fun d hd => isClockChar_of_mem_clockText (h ▸ hd), hclock]
    rfl

section

variable {c : Clock} (hc : c.InBounds)

include hc

theorem time?_clockText : time? (clockText c) = some (c, none) := by
  have hchars : ∀ d ∈ clockText c, isClockChar d = true := fun d => isClockChar_of_mem_clockText
  have hbefore := takeWhile_isClockChar (r := []) hchars (by simp)
  have hclock := clock?_clockText hc (r := []) (by simp)
  rw [List.append_nil] at hbefore hclock
  rw [time?, hbefore, byteLength_of_isClockChar hchars, hclock, List.drop_length]
  rfl

theorem time?_sign {k : Clock} {sign : Char} {r : List Char} {o : Int}
    (hsign : sign = '+' ∨ sign = '-') (hclock : clock? (Text.byteLength r) r = some (k, false))
    (ho : offset? (sign == '-') k = some o) : time? (clockText c ++ sign :: r) = some (c, some o) := by
  have hchars : ∀ d ∈ clockText c, isClockChar d = true := fun d => isClockChar_of_mem_clockText
  have hdigit : isDigit sign = false := by
    rcases hsign with rfl | rfl <;> rfl
  -- the third branch of the match: neither the end nor the letter of universal time
  have hzone : sign ≠ 'Z' := by
    rcases hsign with rfl | rfl <;> decide
  rw [time?, takeWhile_isClockChar hchars (by simpa using hsign), byteLength_of_isClockChar hchars,
    clock?_clockText hc (by simpa using hdigit), List.drop_left]
  rw [Option.bind_eq_bind, Option.bind_some]
  dsimp only
  split
  · next heq => cases heq
  · next heq => exact absurd (List.cons.inj heq).1 hzone
  · next heq =>
    obtain ⟨rfl, rfl⟩ := List.cons.inj heq
    rw [hclock, Option.bind_some]
    dsimp only
    rw [if_neg (by decide), ho]
    rfl

theorem time?_offsetText {o : Int} (ho : OffsetInBounds o) :
    time? (clockText c ++ (offsetText o).toList) = some (c, some o) := by
  rw [toList_offsetText]
  have hoffset := offset?_offsetClock ho
  refine time?_sign hc ?_ (clock?_offsetClock ho rfl) ?_
  · split
    · exact .inr rfl
    · exact .inl rfl
  · rw [← hoffset]
    split
    · next hneg => simp [hneg]
    · next hpos => simp [hpos]

end

/-! ## Points in time -/

/-- A point in time that can be written and read. -/
structure Timestamp.InBounds (t : Timestamp) : Prop where
  valid : t.isValid = true
  microsecond : t.microsecond < 1000000
  offset : ∀ o ∈ t.offset, OffsetInBounds o

/-- The time of day. -/
def Timestamp.clock (t : Timestamp) : Clock :=
  ⟨t.hour, t.minute, t.second, t.microsecond⟩

theorem daysInMonth_le (y m : Nat) : daysInMonth y m ≤ 31 := by
  unfold daysInMonth
  repeat' split
  all_goals decide

section

variable {t : Timestamp}

theorem toList_text (t : Timestamp) :
    t.text.toList = (padded 4 t.year).toList ++ '-' :: ((padded 2 t.month).toList ++ '-' ::
      ((padded 2 t.day).toList ++ 'T' :: (clockText t.clock
        ++ ((t.offset.map offsetText).getD "").toList))) := by
  simp [Timestamp.text, clockText, Timestamp.clock]

theorem Timestamp.InBounds.clock (ht : t.InBounds) : t.clock.InBounds := by
  have hvalid := ht.valid
  simp only [Timestamp.isValid, Bool.and_eq_true, decide_eq_true_eq] at hvalid
  exact ⟨by simp only [Timestamp.clock]; omega, by simp only [Timestamp.clock]; omega,
    by simp only [Timestamp.clock]; omega, ht.microsecond⟩

end

section

variable {y m d : Nat} (hy : y < 10000) (hm : m < 100) (hd : d < 100) {r : List Char}

include hy hm

omit hy in
theorem peek_padded_ne : peek ((padded 2 m).toList ++ r) ≠ 'W' := by
  have hmonth := length_padded_two hm
  cases hds : (padded 2 m).toList with
  | nil => simp [hds] at hmonth
  | cons c cs =>
    have hc : isDigit c = true := isDigit_of_mem_padded (hds ▸ List.mem_cons_self)
    intro hw
    have hw : c = 'W' := hw
    rw [hw] at hc
    exact absurd hc (by decide)

/-- A date with hyphens has ten characters. -/
theorem dateLength?_padded (hr : r ≠ []) :
    dateLength? ((padded 4 y).toList ++ '-' :: ((padded 2 m).toList ++ r)) = some 10 := by
  have hyear := length_padded_four hy
  have hmonth := length_padded_two hm
  have hlength : 0 < r.length := List.length_pos_iff.mpr hr
  have hfour : ((padded 4 y).toList ++ '-' :: ((padded 2 m).toList ++ r)).drop 4
      = '-' :: ((padded 2 m).toList ++ r) := List.drop_left' hyear
  have hfive : ((padded 4 y).toList ++ '-' :: ((padded 2 m).toList ++ r)).drop 5
      = (padded 2 m).toList ++ r := by
    rw [show 5 = 4 + 1 from rfl, ← List.drop_drop, hfour, List.drop_succ_cons, List.drop_zero]
  have hcs : 7 < ((padded 4 y).toList ++ '-' :: ((padded 2 m).toList ++ r)).length := by
    simp only [List.length_append, List.length_cons]
    omega
  have hhyphen : peek ('-' :: ((padded 2 m).toList ++ r)) = '-' := rfl
  simp only [dateLength?, hfour, hfive, hhyphen]
  rw [if_neg (by omega), if_neg (by simpa using Nat.ne_of_gt hcs), if_pos (beq_self_eq_true _),
    if_neg (by simpa using peek_padded_ne hm)]

include hd

theorem drop_padded :
    ((padded 4 y).toList ++ '-' :: ((padded 2 m).toList ++ '-' ::
      ((padded 2 d).toList ++ r))).drop 10 = r := by
  have hyear := length_padded_four hy
  have hmonth := length_padded_two hm
  have hday := length_padded_two hd
  have hassoc : (padded 4 y).toList ++ '-' :: ((padded 2 m).toList ++ '-' ::
      ((padded 2 d).toList ++ r)) = ((padded 4 y).toList ++ '-' :: ((padded 2 m).toList ++ '-' ::
        (padded 2 d).toList)) ++ r := by
    simp
  rw [hassoc]
  refine List.drop_left' ?_
  simp only [List.length_append, List.length_cons]
  omega

/-- A date is read back from its digits. -/
theorem date?_padded :
    date? 10 ((padded 4 y).toList ++ '-' :: ((padded 2 m).toList ++ '-' ::
      ((padded 2 d).toList ++ r))) = some (y, m, d) := by
  have hyear := length_padded_four hy
  have hmonth := length_padded_two hm
  have hday := length_padded_two hd
  have hpair : ∀ {n : Nat} {u : List Char}, n < 100 →
      digits? 2 ((padded 2 n).toList ++ u) = some (n, u) := fun h => digits?_padded (by decide) h _
  have hhyphen : ∀ u : List Char, peek ('-' :: u) = '-' := fun u => rfl
  -- a week date would have a letter after the hyphen
  have hweek := peek_padded_ne hm (r := '-' :: ((padded 2 d).toList ++ r))
  have hhyphens : afterHyphen? true ('-' :: ((padded 2 d).toList ++ r))
      = some ((padded 2 d).toList ++ r) := rfl
  rw [date?, digits?_padded (by decide) hy]
  simp [hhyphen, hweek, hhyphens, hpair hm, hpair hd]
  omega

end

/-- **A point in time is read back from its text.** -/
theorem Timestamp.InBounds.parse?_text {t : Timestamp} (ht : t.InBounds) : parse? t.text = some t := by
  have hvalid := ht.valid
  simp only [Timestamp.isValid, Bool.and_eq_true, decide_eq_true_eq] at hvalid
  have hdays := daysInMonth_le t.year t.month
  have hy : t.year < 10000 := by omega
  have hm : t.month < 100 := by omega
  have hd : t.day < 100 := by omega
  have htime : time? (clockText t.clock ++ ((t.offset.map offsetText).getD "").toList)
      = some (t.clock, t.offset) := by
    cases ho : t.offset with
    | none => simpa using time?_clockText ht.clock
    | some o => exact time?_offsetText ht.clock (ht.offset o ho)
  rw [parse?, toList_text]
  simp only [dateLength?_padded hy hm (List.cons_ne_nil _ _), date?_padded hy hm hd,
    drop_padded hy hm hd, Option.bind_eq_bind, Option.bind_some, htime]
  exact if_pos ht.valid

/-! ## What is read is within bounds -/

section

variable {c c' : Clock} {cs : List Char} {n : Nat} {more : Bool}

theorem microsecond_of_fraction? (h : fraction? c n cs = some (c', more)) :
    c'.microsecond < 1000000 := by
  simp only [fraction?, Option.bind_eq_bind, Option.bind_eq_some_iff, Prod.exists] at h
  obtain ⟨v, r, hv, heq⟩ := h
  obtain ⟨rfl, -⟩ := Prod.mk.inj (Option.some.inj heq)
  have hlt := (digits?_eq_some hv).1
  -- the digits that are missing are zeros
  calc v * Nat.pow 10 (6 - min n 6)
      < Nat.pow 10 (min n 6) * Nat.pow 10 (6 - min n 6) :=
        Nat.mul_lt_mul_of_pos_right hlt (Nat.pow_pos (by decide))
    _ = Nat.pow 10 (min n 6 + (6 - min n 6)) := (Nat.pow_add 10 _ _).symm
    _ = 1000000 := by rw [Nat.add_sub_cancel' (Nat.min_le_right n 6)]

theorem microsecond_of_clockFrom? {colons : Bool} {part left : Nat} (hc : c.microsecond < 1000000)
    (h : clockFrom? c colons part left n cs = some (c', more)) : c'.microsecond < 1000000 := by
  induction left generalizing c colons part n cs with
  | zero => exact microsecond_of_fraction? h
  | succ left ih =>
    have hset : ∀ v, (c.set part v).microsecond < 1000000 := by
      intro v
      unfold Clock.set
      split <;> exact hc
    simp only [clockFrom?, Option.bind_eq_bind, Option.bind_eq_some_iff, Prod.exists] at h
    obtain ⟨v, r, -, h⟩ := h
    generalize (if (part == 0) = true then peek r == ':' else colons) = colons' at h
    split at h
    · obtain ⟨rfl, -⟩ := Prod.mk.inj (Option.some.inj h)
      exact hset v
    split at h
    · exact ih (hset v) h
    split at h
    · exact microsecond_of_fraction? h
    split at h
    · exact ih (hset v) h
    · cases h

theorem microsecond_of_clock? (h : clock? n cs = some (c, more)) : c.microsecond < 1000000 :=
  microsecond_of_clockFrom? (by decide) h

end

theorem inBounds_of_offset? {negative : Bool} {c : Clock} {o : Int}
    (h : offset? negative c = some o) : OffsetInBounds o := by
  unfold offset? at h
  unfold OffsetInBounds
  split at h
  · exact .inl (Option.some.inj h).symm
  · split at h
    · obtain rfl := Option.some.inj h
      split <;> omega
    · cases h

theorem inBounds_of_time? {cs : List Char} {c : Clock} {o : Option Int}
    (h : time? cs = some (c, o)) : c.microsecond < 1000000 ∧ ∀ v ∈ o, OffsetInBounds v := by
  simp only [time?, Option.bind_eq_bind, Option.bind_eq_some_iff, Prod.exists] at h
  obtain ⟨c', more, hc, h⟩ := h
  have hmicro := microsecond_of_clock? hc
  split at h
  · split at h
    · cases h
    · obtain ⟨rfl, rfl⟩ := Prod.mk.inj (Option.some.inj h)
      exact ⟨hmicro, by simp⟩
  · split at h
    · obtain ⟨rfl, rfl⟩ := Prod.mk.inj (Option.some.inj h)
      exact ⟨hmicro, by simp [OffsetInBounds]⟩
    · cases h
  · simp only [Option.bind_eq_some_iff, Prod.exists] at h
    obtain ⟨k, more, -, h⟩ := h
    split at h
    · cases h
    · obtain ⟨v, hv, h⟩ := Option.bind_eq_some_iff.mp h
      obtain ⟨rfl, rfl⟩ := Prod.mk.inj (Option.some.inj h)
      exact ⟨hmicro, by simpa using inBounds_of_offset? hv⟩

/-- What is read is within bounds. -/
theorem inBounds_of_parse? {text : String} {t : Timestamp} (h : parse? text = some t) :
    t.InBounds := by
  have hbounds : ∀ {y m d : Nat} {c : Clock} {o : Option Int}, c.microsecond < 1000000 →
      (∀ v ∈ o, OffsetInBounds v) →
      (if (⟨y, m, d, c.hour, c.minute, c.second, c.microsecond, o⟩ : Timestamp).isValid = true
        then some (⟨y, m, d, c.hour, c.minute, c.second, c.microsecond, o⟩ : Timestamp) else none)
        = some t → t.InBounds := by
    intro y m d c o hmicro hoffset h
    split at h
    · next hvalid =>
      obtain rfl := Option.some.inj h
      exact ⟨hvalid, hmicro, hoffset⟩
    · cases h
  simp only [parse?, Option.bind_eq_bind, Option.bind_eq_some_iff, Prod.exists] at h
  obtain ⟨n, -, y, m, d, -, h⟩ := h
  split at h
  · exact hbounds (by decide) (by simp) h
  · obtain ⟨⟨c, o⟩, htime, h⟩ := Option.bind_eq_some_iff.mp h
    obtain ⟨hmicro, hoffset⟩ := inBounds_of_time? htime
    exact hbounds hmicro hoffset h

/-- **A point in time can be read if and only if it is within bounds.** -/
theorem exists_parse?_iff {t : Timestamp} : (∃ text, parse? text = some t) ↔ t.InBounds :=
  ⟨fun ⟨_, h⟩ => inBounds_of_parse? h, fun h => ⟨t.text, h.parse?_text⟩⟩

end WebAudit.Time
