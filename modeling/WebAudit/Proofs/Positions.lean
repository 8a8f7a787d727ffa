import Mathlib.Data.List.Induction
import WebAudit.Proofs.Utf8
import WebAudit.Text.Lines

/-!
# Places counted three ways

An offset cuts a text in two, and everything about its place is told by the part before it: the line
feeds in it, and what stands after the last of them (`lastLine`). So a line and column, a row and its
bytes, and the starts of lines agree on every offset:

* `position_mono`: a later offset is at no earlier place;
* `position_point`: the bytes into a row lead to the column of the offset;
* `offset_position`: a line and column lead back to the offset;
* `position_append`: text in front moves a place down by its line feeds, and to the right on the first
  line only (`Position.rebased`).

The last section says the same of the encoded text, whose rows are its bytes between line feeds.
-/

namespace WebAudit.Text

open scoped List

/-! ## The last line -/

theorem lastLine_concat (cs : List Char) (c : Char) :
    lastLine (cs ++ [c]) = if c = '\n' then [] else lastLine cs ++ [c] := by
  simp only [lastLine, List.reverse_append, List.reverse_singleton, List.singleton_append,
    List.takeWhile_cons]
  by_cases hc : c = '\n'
  · simp [hc]
  · simp [hc]

theorem newline_notMem_lastLine (cs : List Char) : '\n' ∉ lastLine cs := by
  intro h
  have hall := List.all_takeWhile (p := (· != '\n')) (l := cs.reverse)
  have hne := List.all_eq_true.mp hall _ (List.mem_reverse.mp h)
  simp at hne

theorem lastLine_suffix (cs : List Char) : lastLine cs <:+ cs := by
  have h := List.reverse_suffix.mpr (List.takeWhile_prefix (p := (· != '\n')) (l := cs.reverse))
  rwa [List.reverse_reverse] at h

theorem lastLine_append_of_mem (cs : List Char) {ds : List Char} (h : '\n' ∈ ds) :
    lastLine (cs ++ ds) = lastLine ds := by
  induction ds using List.reverseRecOn with
  | nil => cases h
  | append_singleton ds c ih =>
    rw [← List.append_assoc, lastLine_concat, lastLine_concat]
    by_cases hc : c = '\n'
    · rw [if_pos hc, if_pos hc]
    · rw [if_neg hc, if_neg hc, ih]
      simpa [Ne.symm hc] using h

theorem lastLine_append_of_notMem (cs : List Char) {ds : List Char} (h : '\n' ∉ ds) :
    lastLine (cs ++ ds) = lastLine cs ++ ds := by
  induction ds using List.reverseRecOn with
  | nil => rw [List.append_nil, List.append_nil]
  | append_singleton ds c ih =>
    rw [List.mem_append, List.mem_singleton, not_or] at h
    rw [← List.append_assoc, lastLine_concat, if_neg (Ne.symm h.2), ih h.1, List.append_assoc]

theorem lastLine_of_notMem {cs : List Char} (h : '\n' ∉ cs) : lastLine cs = cs :=
  lastLine_append_of_notMem [] h

theorem lastLine_newline_cons (cs : List Char) : lastLine ('\n' :: cs) = lastLine cs := by
  by_cases h : '\n' ∈ cs
  · exact lastLine_append_of_mem ['\n'] h
  · rw [← List.singleton_append, lastLine_append_of_notMem _ h, lastLine_of_notMem h]
    rfl

/-! ## Starts of lines -/

theorem lineStart_one (cs : List Char) : lineStart cs 1 = 0 := by
  rw [lineStart]

theorem lineStart_newline_cons (cs : List Char) (n : Nat) :
    lineStart ('\n' :: cs) (n + 2) = lineStart cs (n + 1) + 1 := by
  rw [lineStart, if_pos (beq_self_eq_true _)]

theorem lineStart_cons {c : Char} (h : c ≠ '\n') (cs : List Char) (n : Nat) :
    lineStart (c :: cs) (n + 2) = lineStart cs (n + 2) + 1 := by
  rw [lineStart, if_neg (by simpa using h)]

/-- A line starts as far before an offset on it as the last line before the offset is long. -/
theorem lineStart_append (before after : List Char) :
    lineStart (before ++ after) (before.count '\n' + 1) + (lastLine before).length
      = before.length := by
  induction before with
  | nil => rw [List.count_nil, lineStart_one]; rfl
  | cons c cs ih =>
    rw [List.cons_append, List.length_cons]
    by_cases hc : c = '\n'
    · rw [hc, List.count_cons_self, lineStart_newline_cons, lastLine_newline_cons]
      omega
    rw [List.count_cons_of_ne hc]
    by_cases hmem : '\n' ∈ cs
    · -- some line starts further on, and it starts one later
      obtain ⟨n, hn⟩ : ∃ n, cs.count '\n' = n + 1 :=
        Nat.exists_eq_succ_of_ne_zero (Nat.ne_of_gt (List.count_pos_iff.mpr hmem))
      have hlast : lastLine (c :: cs) = lastLine cs := lastLine_append_of_mem [c] hmem
      rw [hn] at ih ⊢
      change lineStart (cs ++ after) (n + 2) + _ = _ at ih
      rw [lineStart_cons hc, hlast]
      omega
    · have hlast : lastLine (c :: cs) = c :: cs :=
        lastLine_of_notMem (by simpa [Ne.symm hc] using hmem)
      rw [List.count_eq_zero.mpr hmem, lineStart_one, hlast, Nat.zero_add, List.length_cons]

theorem drop_lineStart (before after : List Char) :
    (before ++ after).drop (lineStart (before ++ after) (before.count '\n' + 1))
      = lastLine before ++ after := by
  obtain ⟨lines, hlines⟩ := lastLine_suffix before
  have hstart := lineStart_append before after
  have hlength : lines.length + (lastLine before).length = before.length := by
    rw [← List.length_append, hlines]
  have hstart : lineStart (before ++ after) (before.count '\n' + 1) = lines.length := by omega
  conv => lhs; rw [hstart, ← hlines, List.append_assoc]
  exact List.drop_left

/-! ## Lines and columns -/

/-- Line by line, and within a line column by column; the same place counts too. -/
def Position.AtMost (p q : Position) : Prop :=
  p.line < q.line ∨ p.line = q.line ∧ p.column ≤ q.column

theorem position_of_append (before after : List Char) :
    position (before ++ after) before.length
      = ⟨before.count '\n' + 1, (lastLine before).length + 1⟩ := by
  rw [position, List.take_left]

/-- **A later offset is at no earlier place.** -/
theorem position_mono (text : List Char) {o m : Nat} (h : o ≤ m) :
    (position text o).AtMost (position text m) := by
  obtain ⟨n, rfl⟩ := Nat.exists_eq_add_of_le h
  unfold Position.AtMost position
  rw [List.take_add]
  dsimp only
  rw [List.count_append]
  by_cases hmem : '\n' ∈ (text.drop o).take n
  · have hpos := List.count_pos_iff.mpr hmem
    left
    omega
  · right
    rw [List.count_eq_zero.mpr hmem, lastLine_append_of_notMem _ hmem, List.length_append]
    omega

/-- **A line and column lead back to the offset.** -/
theorem offset_position (text : List Char) {o : Nat} (h : o ≤ text.length) :
    offset text (position text o).line ((position text o).column - 1) = o := by
  have hstart := lineStart_append (text.take o) (text.drop o)
  rw [List.take_append_drop, List.length_take, Nat.min_eq_left h] at hstart
  exact hstart

theorem position_inj {text : List Char} {o m : Nat} (ho : o ≤ text.length) (hm : m ≤ text.length)
    (h : position text o = position text m) : o = m := by
  rw [← offset_position text ho, h, offset_position text hm]

/-- The place after the text is moved to an origin: further down, and on the first line further to the
right. -/
def Position.rebased (origin p : Position) : Position where
  line := p.line + (origin.line - 1)
  column := if p.line = 1 then p.column + (origin.column - 1) else p.column

theorem Position.rebased_of_first {origin p : Position} (h : p.line = 1) :
    origin.rebased p = ⟨p.line + (origin.line - 1), p.column + (origin.column - 1)⟩ := by
  rw [Position.rebased, if_pos h]

theorem Position.rebased_of_later {origin p : Position} (h : p.line ≠ 1) :
    origin.rebased p = ⟨p.line + (origin.line - 1), p.column⟩ := by
  rw [Position.rebased, if_neg h]

/-- **Text in front moves a place to where the front ends.** -/
theorem position_append (front text : List Char) (o : Nat) :
    position (front ++ text) (front.length + o)
      = (position (front ++ text) front.length).rebased (position text o) := by
  have hwhole : position (front ++ text) (front.length + o)
      = ⟨front.count '\n' + (text.take o).count '\n' + 1,
          (lastLine (front ++ text.take o)).length + 1⟩ := by
    rw [position, List.take_length_add_append, List.count_append]
  have hline : (position text o).line = (text.take o).count '\n' + 1 := rfl
  rw [hwhole, position_of_append]
  by_cases hmem : '\n' ∈ text.take o
  · have hpos := List.count_pos_iff.mpr hmem
    rw [Position.rebased_of_later (by omega), hline, lastLine_append_of_mem _ hmem]
    dsimp only
    congr 1
    omega
  · have hzero := List.count_eq_zero.mpr hmem
    have hcolumn : (position text o).column = (text.take o).length + 1 := by
      rw [position, lastLine_of_notMem hmem]
    rw [Position.rebased_of_first (by omega), hline, hcolumn, lastLine_append_of_notMem _ hmem,
      List.length_append]
    dsimp only
    congr 1
    · omega
    · omega

/-- Text behind an offset does not matter to its place. -/
theorem position_append_left (text after : List Char) {o : Nat} (h : o ≤ text.length) :
    position (text ++ after) o = position text o := by
  rw [position, position, List.take_append_of_le_length h]

theorem one_le_line (text : List Char) (o : Nat) : 1 ≤ (position text o).line :=
  Nat.le_add_left 1 _

theorem one_le_column (text : List Char) (o : Nat) : 1 ≤ (position text o).column :=
  Nat.le_add_left 1 _

/-! ## Rows and bytes -/

theorem charactersWithin_append (cs ds : List Char) :
    charactersWithin (cs ++ ds) (byteLength cs) = cs.length := by
  induction cs with
  | nil => rw [byteLength, charactersWithin]; rfl
  | cons c cs ih =>
    have hpos := c.utf8Size_pos
    rw [byteLength, List.cons_append, charactersWithin, Nat.add_sub_cancel_left, ih, List.length_cons]
    omega

/-- A row goes on from what stands on it before an offset up to the next line feed. -/
theorem rowText_append (before after : List Char) :
    rowText (before ++ after) (before.count '\n')
      = lastLine before ++ after.takeWhile (· != '\n') := by
  rw [rowText, drop_lineStart, List.takeWhile_append_of_pos]
  intro c hc
  have hne : c ≠ '\n' := fun h => newline_notMem_lastLine before (h ▸ hc)
  simpa using hne

/-- **The bytes into a row lead to the column of the offset.** -/
theorem position_point (text : List Char) (o : Nat) :
    (point text o).position text = position text o := by
  have hrow := rowText_append (text.take o) (text.drop o)
  rw [List.take_append_drop] at hrow
  simp only [Point.position, point, position, hrow, charactersWithin_append]

/-! ## All starts of lines -/

/-- The offsets after the line feeds of a text that starts at an offset. -/
def startsFrom (o : Nat) : List Char → List Nat
  | [] => []
  | c :: cs => if c = '\n' then (o + 1) :: startsFrom (o + 1) cs else startsFrom (o + 1) cs

/-- The offsets at which the lines of a text start. -/
def lineStarts (text : List Char) : List Nat :=
  0 :: startsFrom 0 text

theorem startsFrom_append (o : Nat) (cs ds : List Char) :
    startsFrom o (cs ++ ds) = startsFrom o cs ++ startsFrom (o + cs.length) ds := by
  induction cs generalizing o with
  | nil => rfl
  | cons c cs ih =>
    have harith : o + 1 + cs.length = o + (c :: cs).length := by
      rw [List.length_cons]
      omega
    rw [List.cons_append, startsFrom, startsFrom, ih, harith]
    by_cases hc : c = '\n'
    · rw [if_pos hc, if_pos hc, List.cons_append]
    · rw [if_neg hc, if_neg hc]

theorem length_startsFrom (o : Nat) (cs : List Char) :
    (startsFrom o cs).length = cs.count '\n' := by
  induction cs generalizing o with
  | nil => rfl
  | cons c cs ih =>
    rw [startsFrom]
    by_cases hc : c = '\n'
    · rw [if_pos hc, hc, List.count_cons_self, List.length_cons, ih]
    · rw [if_neg hc, List.count_cons_of_ne hc, ih]

theorem bounds_of_mem_startsFrom {o n : Nat} {cs : List Char} (h : n ∈ startsFrom o cs) :
    o < n ∧ n ≤ o + cs.length := by
  induction cs generalizing o with
  | nil => cases h
  | cons c cs ih =>
    rw [startsFrom] at h
    rw [List.length_cons]
    split at h
    · rcases List.mem_cons.mp h with rfl | h
      · omega
      · have := ih h
        omega
    · have := ih h
      omega

theorem getElem?_lineStarts (before : List Char) :
    (lineStarts before)[before.count '\n']? = some (before.length - (lastLine before).length) := by
  induction before using List.reverseRecOn with
  | nil => rfl
  | append_singleton cs c ih =>
    have hlength : (lineStarts cs).length = cs.count '\n' + 1 := by
      rw [lineStarts, List.length_cons, length_startsFrom]
    have hconcat : lineStarts (cs ++ [c])
        = lineStarts cs ++ if c = '\n' then [cs.length + 1] else [] := by
      rw [lineStarts, startsFrom_append, Nat.zero_add, ← List.cons_append]
      rfl
    rw [hconcat, lastLine_concat, List.count_append, List.length_append, List.length_singleton]
    by_cases hc : c = '\n'
    · simp [hc, hlength]
    · rw [if_neg hc, if_neg hc, List.append_nil, List.length_append, List.length_singleton,
        Nat.add_sub_add_right, ← ih]
      simp [hc]

/-- **The line of an offset is found among the starts of lines**, the last of those at or before it. -/
theorem position_among_lineStarts (text : List Char) {o : Nat} (h : o ≤ text.length) :
    let p := position text o
    (∀ n ∈ (lineStarts text).take p.line, n ≤ o) ∧ (∀ n ∈ (lineStarts text).drop p.line, o < n)
      ∧ (lineStarts text)[p.line - 1]? = some (o - (p.column - 1)) := by
  intro p
  have hbefore : (text.take o).length = o := by rw [List.length_take, Nat.min_eq_left h]
  have hstarts : lineStarts text = lineStarts (text.take o) ++ startsFrom o (text.drop o) := by
    conv => lhs; rw [← List.take_append_drop o text, lineStarts, startsFrom_append, hbefore]
    rw [Nat.zero_add]
    rfl
  have hlength : (lineStarts (text.take o)).length = p.line := by
    rw [lineStarts, List.length_cons, length_startsFrom]
    rfl
  have hlast := getElem?_lineStarts (text.take o)
  rw [hstarts, List.take_left' hlength, List.drop_left' hlength]
  refine ⟨fun n hn => ?_, fun n hn => (bounds_of_mem_startsFrom hn).1, ?_⟩
  · rcases List.mem_cons.mp hn with rfl | hn
    · exact Nat.zero_le o
    · have hle := (bounds_of_mem_startsFrom hn).2
      omega
  · rw [List.getElem?_append_left (by rw [hlength]; exact Nat.sub_lt (Nat.succ_pos _) Nat.one_pos)]
    rw [hbefore] at hlast
    exact hlast

/-! ## Encoded rows -/

/-- The byte of a line feed. -/
def newlineByte : UInt8 := 10

theorem utf8EncodeChar_newline : String.utf8EncodeChar '\n' = [newlineByte] := by
  decide

/-- No other character has that byte in its encoding. -/
theorem newlineByte_notMem_utf8EncodeChar {c : Char} (hc : c ≠ '\n') :
    newlineByte ∉ String.utf8EncodeChar c := by
  have hbyte : ∀ {n}, n ≠ 10 ∧ n < 256 → newlineByte ≠ UInt8.ofNat n := by
    intro n hn h
    have hnat := congrArg UInt8.toNat h
    rw [UInt8.toNat_ofNat'] at hnat
    simp only [newlineByte, UInt8.reduceToNat] at hnat
    omega
  have hnewline : c.toNat ≠ 10 := fun h => hc (Char.toNat_inj.mp h)
  -- the four lengths of an encoding
  rcases Nat.lt_or_ge c.toNat 0x80 with h | h₁
  · rw [utf8EncodeChar_one h, List.mem_singleton]
    exact hbyte (by omega)
  rcases Nat.lt_or_ge c.toNat 0x800 with h | h₂
  · rw [utf8EncodeChar_two ⟨h₁, h⟩]
    simp only [List.mem_cons, List.not_mem_nil, or_false, not_or]
    exact ⟨hbyte (by omega), hbyte (by omega)⟩
  rcases Nat.lt_or_ge c.toNat 0x10000 with h | h₃
  · rw [utf8EncodeChar_three ⟨h₂, h⟩]
    simp only [List.mem_cons, List.not_mem_nil, or_false, not_or]
    exact ⟨hbyte (by omega), hbyte (by omega), hbyte (by omega)⟩
  · rw [utf8EncodeChar_four h₃]
    simp only [List.mem_cons, List.not_mem_nil, or_false, not_or]
    exact ⟨hbyte (by omega), hbyte (by omega), hbyte (by omega), hbyte (by omega)⟩

/-- The bytes of some characters. -/
def bytes (cs : List Char) : List UInt8 :=
  encode (String.ofList cs)

theorem bytes_nil : bytes [] = [] := by
  rw [bytes, encode_ofList, List.flatMap_nil]

theorem bytes_cons (c : Char) (cs : List Char) : bytes (c :: cs) = String.utf8EncodeChar c ++ bytes cs := by
  rw [bytes, bytes, encode_ofList, encode_ofList, List.flatMap_cons]

theorem bytes_append (cs ds : List Char) : bytes (cs ++ ds) = bytes cs ++ bytes ds := by
  simp only [bytes, encode_ofList, List.flatMap_append]

theorem length_bytes (cs : List Char) : (bytes cs).length = byteLength cs := by
  induction cs with
  | nil => rw [bytes_nil]; rfl
  | cons c cs ih => rw [bytes_cons, List.length_append, String.length_utf8EncodeChar, ih, byteLength]

theorem newlineByte_notMem_bytes {cs : List Char} (h : '\n' ∉ cs) : newlineByte ∉ bytes cs := by
  rw [bytes, encode_ofList, List.mem_flatMap]
  rintro ⟨c, hc, hmem⟩
  exact newlineByte_notMem_utf8EncodeChar (fun heq => h (heq ▸ hc)) hmem

theorem count_newlineByte (cs : List Char) : (bytes cs).count newlineByte = cs.count '\n' := by
  induction cs with
  | nil => rw [bytes_nil]; rfl
  | cons c cs ih =>
    rw [bytes_cons, List.count_append, ih]
    by_cases hc : c = '\n'
    · rw [hc, utf8EncodeChar_newline, List.count_cons_self, List.count_cons_self, List.count_nil]
      omega
    · rw [List.count_eq_zero.mpr (newlineByte_notMem_utf8EncodeChar hc), List.count_cons_of_ne hc,
        Nat.zero_add]

/-- A text is full lines, each with its line feed, and its last line. -/
theorem exists_lines (cs : List Char) :
    ∃ lines, cs = lines ++ lastLine cs ∧ (lines = [] ∨ ∃ front, lines = front ++ ['\n']) := by
  induction cs using List.reverseRecOn with
  | nil => exact ⟨[], rfl, .inl rfl⟩
  | append_singleton cs c ih =>
    obtain ⟨lines, hlines, hfull⟩ := ih
    rw [lastLine_concat]
    by_cases hc : c = '\n'
    · exact ⟨cs ++ ['\n'], by rw [if_pos hc, hc, List.append_nil], .inr ⟨cs, rfl⟩⟩
    · refine ⟨lines, ?_, hfull⟩
      rw [if_neg hc, ← List.append_assoc, ← hlines]

/-- The bytes after the last line feed are those of the last line. -/
theorem takeWhile_reverse_bytes (cs : List Char) :
    (bytes cs).reverse.takeWhile (· != newlineByte) = (bytes (lastLine cs)).reverse := by
  obtain ⟨lines, hlines, hfull⟩ := exists_lines cs
  have hlast : ∀ b ∈ (bytes (lastLine cs)).reverse, (b != newlineByte) = true := by
    intro b hb
    have hne : b ≠ newlineByte := by
      rintro rfl
      exact newlineByte_notMem_bytes (newline_notMem_lastLine cs) (List.mem_reverse.mp hb)
    simpa using hne
  conv => lhs; rw [hlines, bytes_append, List.reverse_append]
  rw [List.takeWhile_append_of_pos hlast]
  rcases hfull with rfl | ⟨front, rfl⟩
  · rw [bytes_nil, List.reverse_nil, List.takeWhile_nil, List.append_nil]
  · have hfront : bytes (front ++ ['\n']) = bytes front ++ [newlineByte] := by
      rw [bytes_append, bytes_cons, utf8EncodeChar_newline, bytes_nil]
      rfl
    rw [hfront, List.reverse_append, List.reverse_singleton, List.singleton_append,
      List.takeWhile_cons_of_neg (by simp), List.append_nil]

theorem splitOn_append_of_notMem {bs : List UInt8} (h : newlineByte ∉ bs) (rest : List UInt8) :
    (bs ++ rest).splitOn newlineByte = (rest.splitOn newlineByte).modifyHead (bs ++ ·) := by
  induction bs with
  | nil =>
    cases hrest : rest.splitOn newlineByte with
    | nil => exact absurd hrest (List.splitOn_ne_nil _ _)
    | cons p ps => rw [List.nil_append, hrest]; rfl
  | cons b bs ih =>
    rw [List.mem_cons, not_or] at h
    rw [List.cons_append, List.splitOn_cons_eq_if_modifyHead, if_neg (by simpa using Ne.symm h.1),
      ih h.2, List.modifyHead_modifyHead]
    rfl

/-- The rows of the encoded text are the encoded rows of the text. -/
theorem splitOn_bytes (cs : List Char) :
    (bytes cs).splitOn newlineByte = (cs.splitOn '\n').map bytes := by
  induction cs with
  | nil => simp [bytes_nil]
  | cons c cs ih =>
    rw [bytes_cons, List.splitOn_cons_eq_if_modifyHead]
    by_cases hc : c = '\n'
    · rw [hc, utf8EncodeChar_newline, if_pos (beq_self_eq_true _), List.map_cons, bytes_nil, ← ih,
        List.singleton_append, List.splitOn_cons_eq_if_modifyHead, if_pos (beq_self_eq_true _)]
    · rw [splitOn_append_of_notMem (newlineByte_notMem_utf8EncodeChar hc), ih,
        if_neg (by simpa using hc)]
      cases hrows : cs.splitOn '\n' with
      | nil => exact absurd hrows (List.splitOn_ne_nil _ _)
      | cons p ps =>
        simp only [List.map_cons, List.modifyHead_cons, bytes_cons]

theorem rowText_zero (cs : List Char) : rowText cs 0 = cs.takeWhile (· != '\n') := by
  rw [rowText, lineStart_one, List.drop_zero]

theorem rowText_newline_cons (cs : List Char) (n : Nat) :
    rowText ('\n' :: cs) (n + 1) = rowText cs n := by
  rw [rowText, lineStart_newline_cons, List.drop_succ_cons, rowText]

theorem rowText_cons {c : Char} (hc : c ≠ '\n') (cs : List Char) (n : Nat) :
    rowText (c :: cs) (n + 1) = rowText cs (n + 1) := by
  rw [rowText, lineStart_cons hc, List.drop_succ_cons, rowText]

theorem getElem?_splitOn {cs : List Char} {n : Nat} (h : n ≤ cs.count '\n') :
    (cs.splitOn '\n')[n]? = some (rowText cs n) := by
  induction cs generalizing n with
  | nil =>
    obtain rfl : n = 0 := Nat.le_zero.mp h
    rfl
  | cons c cs ih =>
    rw [List.splitOn_cons_eq_if_modifyHead]
    by_cases hc : c = '\n'
    · rw [if_pos (by simpa using hc)]
      subst hc
      rw [List.count_cons_self] at h
      cases n with
      | zero => rw [rowText_zero]; rfl
      | succ n => rw [List.getElem?_cons_succ, ih (Nat.le_of_succ_le_succ h), rowText_newline_cons]
    · rw [if_neg (by simpa using hc)]
      rw [List.count_cons_of_ne hc] at h
      have hrow := ih h
      cases hrows : cs.splitOn '\n' with
      | nil => exact absurd hrows (List.splitOn_ne_nil _ _)
      | cons p ps =>
        rw [hrows] at hrow
        cases n with
        | zero =>
          rw [rowText_zero, List.takeWhile_cons_of_pos (by simpa using hc), ← rowText_zero]
          rw [List.getElem?_cons_zero] at hrow
          rw [← Option.some.inj hrow]
          rfl
        | succ n => rw [rowText_cons hc]; exact hrow

theorem decode?_bytes (cs : List Char) : decode? (bytes cs) = some cs := by
  rw [bytes, decode?_encode, String.toList_ofList]

/-- **The column of an offset, from the encoded text.** The row of a point is counted by the line
feeds among the bytes before the offset, its bytes are those after the last of them, and the column is
told by the characters that so many bytes of the row are read as. -/
theorem point_of_bytes (text : List Char) (o : Nat) :
    let p := point text o
    let before := bytes (text.take o)
    p.row = before.count newlineByte
      ∧ p.bytes = (before.reverse.takeWhile (· != newlineByte)).length
      ∧ ∃ row cs, ((bytes text).splitOn newlineByte)[p.row]? = some row
        ∧ decode? (row.take p.bytes) = some cs ∧ (p.position text).column = cs.length + 1 := by
  intro p before
  refine ⟨(count_newlineByte _).symm, ?_, ?_⟩
  · rw [takeWhile_reverse_bytes, List.length_reverse, length_bytes]
    rfl
  have hcount : p.row ≤ text.count '\n' := (List.take_sublist o text).count_le '\n'
  have hrow := rowText_append (text.take o) (text.drop o)
  rw [List.take_append_drop] at hrow
  have hrow : rowText text p.row = lastLine (text.take o) ++ _ := hrow
  have hbytes : p.bytes = (bytes (lastLine (text.take o))).length := (length_bytes _).symm
  refine ⟨bytes (rowText text p.row), lastLine (text.take o), ?_, ?_, ?_⟩
  · rw [splitOn_bytes, List.getElem?_map, getElem?_splitOn hcount, Option.map_some]
  · rw [hrow, bytes_append, hbytes, List.take_left, decode?_bytes]
  · rw [position_point]
    rfl

end WebAudit.Text
