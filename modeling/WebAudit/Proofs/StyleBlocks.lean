import WebAudit.Proofs.StylePlaces
import WebAudit.Proofs.TagEnds

/-!
# Style blocks and line breaks

A style sheet counts a carriage return or a form feed of its own as a line end, a document does not: its
lines end at line feeds only. A place found in a style block is moved to the document by one addition,
so it is right as long as each line end before it has a line feed, and otherwise its line is too high by
the number of those that have none (`loneBreaks`).

* `exists_source_offset`: an offset of the normalised text comes from an offset of the text;
* `count_normalize`, `length_lastLine_normalize`: what normalising does to lines and columns;
* `elements?_styleBlock`: a document that is one style block has one element;
* `places_in_style_block`: where the detections of such a document are located.
-/

namespace WebAudit.Style

open scoped List

/-! ## Line ends without a line feed -/

/-- The carriage returns and form feeds that are line ends of their own. -/
def loneBreaks : List Char → Nat
  | [] => 0
  | '\r' :: '\n' :: r => loneBreaks r
  | c :: r => (if c == '\r' || c == '\x0c' then 1 else 0) + loneBreaks r

/-- What a character is normalised to where it is no part of a pair. -/
def normalizeChar (c : Char) : Char :=
  if c == '\r' || c == '\x0c' then '\n' else if c == '\x00' then '\ufffd' else c

theorem normalize_cons {c : Char} {r : List Char} (h : ∀ r', c = '\r' → r = '\n' :: r' → False) :
    normalize (c :: r) = normalizeChar c :: normalize r :=
  normalize.eq_3 c r h

/-- **An offset of the normalised text comes from an offset of the text.** No pair is cut in two. -/
theorem exists_source_offset (text : List Char) (k : Nat) :
    ∃ o ≤ text.length, normalize (text.take o) = (normalize text).take k
      ∧ normalize (text.drop o) = (normalize text).drop k := by
  induction k generalizing text with
  | zero => exact ⟨0, Nat.zero_le _, rfl, rfl⟩
  | succ k ih =>
    fun_cases normalize text with
    | case1 => exact ⟨0, Nat.le_refl _, rfl, rfl⟩
    | case2 r =>
      obtain ⟨o, ho, htake, hdrop⟩ := ih r
      refine ⟨o + 2, Nat.add_le_add_right ho 2, ?_, hdrop⟩
      rw [List.take_succ_cons, List.take_succ_cons, normalize, htake, List.take_succ_cons]
    | case3 c r hpair =>
      obtain ⟨o, ho, htake, hdrop⟩ := ih r
      have hstill (r' : List Char) (hc : c = '\r') (hr : r.take o = '\n' :: r') : False := by
        refine hpair (r' ++ r.drop o) hc ?_
        rw [← List.cons_append, ← hr, List.take_append_drop]
      refine ⟨o + 1, Nat.add_le_add_right ho 1, ?_, hdrop⟩
      rw [List.take_succ_cons, normalize_cons hstill, htake, List.take_succ_cons]
      rfl

theorem normalizeChar_of_isBreak {c : Char} (h : (c == '\r' || c == '\x0c') = true) :
    normalizeChar c = '\n' := by
  rw [normalizeChar, if_pos h]

theorem normalizeChar_eq_newline_iff {c : Char} (h : ¬ (c == '\r' || c == '\x0c') = true) :
    normalizeChar c = '\n' ↔ c = '\n' := by
  rw [normalizeChar, if_neg h]
  split
  next hnull =>
    rw [beq_iff_eq] at hnull
    subst hnull
    decide
  next => rfl

/-- **Normalising adds a line for each lone break.** -/
theorem count_normalize (cs : List Char) :
    (normalize cs).count '\n' = cs.count '\n' + loneBreaks cs := by
  fun_induction loneBreaks cs with
  | case1 => rfl
  | case2 r ih =>
    rw [normalize, List.count_cons_self, ih, List.count_cons_of_ne (by decide), List.count_cons_self]
    omega
  | case3 c r hpair ih =>
    rw [normalize_cons hpair]
    by_cases hbreak : (c == '\r' || c == '\x0c') = true
    · have hc : c ≠ '\n' := by
        rintro rfl
        exact absurd hbreak (by decide)
      rw [normalizeChar_of_isBreak hbreak, List.count_cons_self, ih, List.count_cons_of_ne hc,
        if_pos hbreak]
      omega
    · rw [if_neg hbreak, Nat.zero_add, List.count_cons, List.count_cons, ih]
      simp only [beq_iff_eq, normalizeChar_eq_newline_iff hbreak]
      omega

theorem newline_mem_normalize_iff {cs : List Char} (h : loneBreaks cs = 0) :
    '\n' ∈ normalize cs ↔ '\n' ∈ cs := by
  rw [← List.count_pos_iff, ← List.count_pos_iff, count_normalize, h, Nat.add_zero]

/-- **Without lone breaks the last line keeps its length.** -/
theorem length_lastLine_normalize {cs : List Char} (h : loneBreaks cs = 0) :
    (Text.lastLine (normalize cs)).length = (Text.lastLine cs).length := by
  fun_induction loneBreaks cs with
  | case1 => rfl
  | case2 r ih =>
    have hpair : Text.lastLine ('\r' :: '\n' :: r) = Text.lastLine ('\n' :: r) :=
      Text.lastLine_append_of_mem ['\r'] List.mem_cons_self
    rw [normalize, hpair, Text.lastLine_newline_cons, Text.lastLine_newline_cons, ih h]
  | case3 c r hpair ih =>
    obtain ⟨hc, hr⟩ := Nat.add_eq_zero_iff.mp h
    have hbreak : ¬ (c == '\r' || c == '\x0c') = true := by
      intro hbreak
      rw [if_pos hbreak] at hc
      cases hc
    rw [normalize_cons hpair]
    by_cases hnewline : c = '\n'
    · rw [(normalizeChar_eq_newline_iff hbreak).mpr hnewline, hnewline, Text.lastLine_newline_cons,
        Text.lastLine_newline_cons, ih hr]
    · by_cases hmem : '\n' ∈ r
      · -- the last line lies in the rest
        have hlines (d : Char) {s : List Char} (hs : '\n' ∈ s) :
            Text.lastLine (d :: s) = Text.lastLine s :=
          Text.lastLine_append_of_mem [d] hs
        rw [hlines _ ((newline_mem_normalize_iff hr).mpr hmem), hlines _ hmem, ih hr]
      · -- there is only one line
        have hmem' : '\n' ∉ normalize r := fun h => hmem ((newline_mem_normalize_iff hr).mp h)
        have hc' : '\n' ≠ normalizeChar c :=
          fun h => hnewline ((normalizeChar_eq_newline_iff hbreak).mp h.symm)
        have hlength := ih hr
        rw [Text.lastLine_of_notMem hmem', Text.lastLine_of_notMem hmem] at hlength
        rw [Text.lastLine_of_notMem (List.not_mem_cons_of_ne_of_not_mem hc' hmem'),
          Text.lastLine_of_notMem (List.not_mem_cons_of_ne_of_not_mem (Ne.symm hnewline) hmem),
          List.length_cons, List.length_cons, hlength]

theorem line_normalize {text : List Char} {k o : Nat}
    (h : normalize (text.take o) = (normalize text).take k) :
    (Text.position (normalize text) k).line
      = (Text.position text o).line + loneBreaks (text.take o) := by
  rw [Text.position, Text.position, ← h]
  dsimp only
  rw [count_normalize]
  omega

/-- **After lone breaks only are lines and columns different.** -/
theorem position_normalize {text : List Char} {k o : Nat}
    (h : normalize (text.take o) = (normalize text).take k) (hlone : loneBreaks (text.take o) = 0) :
    Text.position (normalize text) k = Text.position text o := by
  rw [Text.position, Text.position, ← h, count_normalize, hlone, length_lastLine_normalize hlone,
    Nat.add_zero]

end WebAudit.Style

namespace WebAudit.Markup

open Style (Reaches Starts components loneBreaks normalize sheetItems)
open scoped List

/-! ## A document that is one style block -/

/-- A style element around a text. -/
def styleBlock (content : List Char) : List Char :=
  "<style>".toList ++ (content ++ "</style>".toList)

/-- The start tag of such an element. -/
def styleTag : StartTag :=
  ⟨"style", [], false⟩

theorem read_styleTag (rest : List Char) :
    StartTag.read ("style".toList ++ '>' :: rest) = .tag styleTag 7 := by
  have hletter : isLetter 'e' = true := by decide
  have hname : ("style".toList ++ '>' :: rest).takeWhile isTagNamePart = "style".toList := rfl
  have hgap : gapLength (("style".toList ++ '>' :: rest).drop "style".toList.length) = 0 := rfl
  have hbefore : (("style".toList ++ '>' :: rest).take ("style".toList.length + 0)).getLastD '<' = 'e' :=
    rfl
  rw [StartTag.read, hname, hgap, hbefore, readAttributes_of_isLetter hletter]
  rfl

theorem endTagLength?_of_not_prefix {name cs : List Char} (h : ¬ ['<', '/'] <+: cs) :
    endTagLength? name cs = none := by
  unfold endTagLength?
  split
  next r => exact absurd ⟨r, rfl⟩ h
  next => rfl

/-- The first end tag stands behind the content. -/
theorem findEndTag?_styleBlock {content : List Char} (h : ¬ ['<', '/'] <:+: content) (before : Nat) :
    findEndTag? "style".toList before (content ++ "</style>".toList)
      = some (before + content.length, 8) := by
  induction content generalizing before with
  | nil => rfl
  | cons c r ih =>
    have hhere : ¬ ['<', '/'] <+: c :: (r ++ "</style>".toList) := by
      intro hopen
      obtain ⟨rfl, hslash⟩ := List.cons_prefix_cons.mp hopen
      cases r with
      | nil => exact absurd (List.cons_prefix_cons.mp hslash).1 (by decide)
      | cons d r =>
        obtain ⟨rfl, -⟩ := List.cons_prefix_cons.mp hslash
        exact h ⟨[], r, rfl⟩
    have hrest : ¬ ['<', '/'] <:+: r := fun hr => h (hr.trans (List.suffix_cons c r).isInfix)
    rw [List.cons_append, findEndTag?, endTagLength?_of_not_prefix hhere]
    dsimp only
    rw [ih hrest, List.length_cons, Nat.add_assoc, Nat.add_comm 1]

theorem elements?_styleBlock {content : List Char} (h : ¬ ['<', '/'] <:+: content) :
    elements? (styleBlock content) = some [⟨styleTag, 0, content⟩] := by
  have hblock : styleBlock content
      = '<' :: ("style".toList ++ '>' :: (content ++ "</style>".toList)) := rfl
  have hbody : ("style".toList ++ '>' :: (content ++ "</style>".toList)).drop (7 - 1)
      = content ++ "</style>".toList := rfl
  have hend : (content ++ "</style>".toList).drop (0 + content.length + 8) = [] := by
    rw [Nat.zero_add, ← List.drop_drop, List.drop_left]
    rfl
  have htag : construct ("style".toList ++ '>' :: (content ++ "</style>".toList)) = .tag styleTag 7 :=
    construct_of_read (c := 's') (by decide) (read_styleTag _)
  rw [elements?, hblock, elementsFrom?, htag]
  dsimp only
  rw [if_pos (by decide), hbody, styleTag, findEndTag?_styleBlock h]
  dsimp only
  rw [hend, elementsFrom?, Nat.zero_add, List.take_left]
  rfl

theorem contentStart?_styleBlock (content : List Char) :
    contentStart? (styleBlock content) 0 = some ⟨1, 8⟩ := by
  have hparts : Parts ("style".toList ++ '>' :: (content ++ "</style>".toList)) 7 []
      (content ++ "</style>".toList) := ⟨rfl, rfl⟩
  have hstart : contentStart? (styleBlock content) 0
      = some (Text.position (styleBlock content) (0 + 7)) :=
    (contentStart?_eq_some_iff rfl (read_styleTag _) (by decide) hparts).mpr .nil
  exact hstart

theorem position_styleBlock {content : List Char} {o : Nat} (h : o ≤ content.length) :
    Text.position (styleBlock content) (7 + o)
      = Text.Position.rebased ⟨1, 8⟩ (Text.position content o) := by
  have hplace := Text.position_append "<style>".toList (content ++ "</style>".toList) o
  rw [Text.position_append_left content _ h] at hplace
  exact hplace

/-! ## Detections in a style block -/

/-- What the content shows on its own, seven columns further to the right on the first line. -/
theorem detections_styleBlock {content : List Char} (h : ¬ ['<', '/'] <:+: content) :
    (detect (String.ofList (styleBlock content))).detections
      = if Text.isBlankText (String.ofList content) then []
        else (Style.detect (String.ofList content)).detections.map
          fun d => { d with location := d.location.shifted 0 7 } := by
  rw [detect, String.toList_ofList, elements?_styleBlock h]
  simp only [List.map_cons, List.map_nil, List.flatMap_cons, List.flatMap_nil, List.append_nil,
    Element.documentFindings, contentStart?_styleBlock]
  rw [Element.findings]
  split
  · rfl
  · rfl

/-- A place of the normalised content, moved to the document, beside the place of the same character. -/
theorem shifted_styleBlock {content : List Char} {k o : Nat} (ho : o ≤ content.length)
    (h : normalize (content.take o) = (normalize content).take k) :
    let p := Text.position (normalize content) k
    let moved := Location.shifted ⟨p.line, p.column, none, none⟩ 0 7
    let place := Text.position (styleBlock content) (7 + o)
    let extra := loneBreaks (content.take o)
    moved.line = place.line + extra
      ∧ (0 < extra → moved.column = (Text.lastLine (normalize (content.take o))).length + 1)
      ∧ (moved.line = place.line ∧ moved.column = place.column ↔ extra = 0) := by
  intro p moved place extra
  have hp : p.line = (Text.position content o).line + extra := Style.line_normalize h
  have hfirst := Text.one_le_line content o
  have hplace : place = Text.Position.rebased ⟨1, 8⟩ (Text.position content o) := position_styleBlock ho
  have hline : moved.line = place.line + extra := by
    simp only [moved, hplace, Location.shifted, Text.Position.rebased, hp]
    omega
  refine ⟨hline, fun hextra => ?_, fun hsame => by omega, fun hextra => ?_⟩
  · -- a lone break before the place puts it below the first line
    have hlater : ¬ (p.line : Int) = 1 := by omega
    simp only [moved, Location.shifted, if_neg hlater]
    rw [h]
    rfl
  · have hsame : p = Text.position content o := Style.position_normalize h hextra
    refine ⟨by omega, ?_⟩
    simp only [moved, hplace, Location.shifted, Text.Position.rebased, hsame]
    split <;> split <;> omega

/-- **In a document that is one style block, each detection is located at its property name if no
carriage return or form feed before the name is a line end of its own. Otherwise its line is too high by
the number of those that are.** -/
theorem places_in_style_block (content : List Char) (h : ¬ ['<', '/'] <:+: content) :
    ((detect (String.ofList (styleBlock content))).detections
      = if Text.isBlankText (String.ofList content) then []
        else (Style.detect (String.ofList content)).detections.map
          fun d => { d with location := d.location.shifted 0 7 })
    ∧ ∀ x ∈ (detect (String.ofList (styleBlock content))).detections,
      ∃ (d : Style.Declaration) (k o : Nat),
      Reaches (sheetItems (components content)) (.declaration d)
      ∧ d.detection? = some { x with location := d.location }
      ∧ Starts (normalize content) k (.ident d.name)
      ∧ normalize (content.take o) = (normalize content).take k
      ∧ normalize (content.drop o) = (normalize content).drop k
      ∧ let place := Text.position (styleBlock content) (7 + o)
        let extra := loneBreaks (content.take o)
        x.location.line = place.line + extra
        ∧ (0 < extra →
          x.location.column = (Text.lastLine (normalize (content.take o))).length + 1)
        ∧ (x.location.line = place.line ∧ x.location.column = place.column ↔ extra = 0) := by
  have hfound := detections_styleBlock h
  refine ⟨hfound, fun x hx => ?_⟩
  rw [hfound] at hx
  split at hx
  · cases hx
  · obtain ⟨y, hy, rfl⟩ := List.mem_map.mp hx
    obtain ⟨herror, d, hreaches, hdetection⟩ := Style.mem_detections_iff.mp hy
    rw [String.toList_ofList] at herror hreaches
    obtain ⟨ds, hds⟩ := Option.ne_none_iff_exists'.mp (mt Style.declarations?_eq_none_iff.mp herror)
    obtain ⟨k, hstarts, hplace⟩ :=
      Style.exists_starts_of_mem_declarations hds ((Style.mem_iff_reaches hds).mpr hreaches)
    obtain ⟨o, ho, htake, hdrop⟩ := Style.exists_source_offset content k
    have hlocation : y.location = d.location := (Style.of_detection? hdetection).1
    refine ⟨d, k, o, hreaches, ?_, hstarts, htake, hdrop, ?_⟩
    · rw [hdetection, ← hlocation]
    · have hmoved := shifted_styleBlock ho htake
      rw [← hplace] at hmoved
      rw [hlocation]
      exact hmoved

/-- A carriage return of its own before the property: the document has one line, the location is on the
second. -/
theorem places_in_style_block_after_return :
    let content := "\ra\x7bdisplay:grid\x7d".toList
    let document := styleBlock content
    ∃ x ∈ (detect (String.ofList document)).detections, x.location = ⟨2, 3, none, none⟩
      ∧ ∃ o : Nat, (Text.position document (7 + o)).line = 1 ∧ loneBreaks (content.take o) = 1 := by
  intro content document
  have hmem : (⟨"css-display", ⟨2, 3, none, none⟩, "display: grid", some "css.properties.display"⟩
      : Detection) ∈ (detect (String.ofList document)).detections := by
    decide +kernel
  have hclose : ¬ ['<', '/'] <:+: content := fun h =>
    absurd (h.subset List.mem_cons_self) (by decide)
  obtain ⟨d, k, o, -, -, -, -, -, hline, -⟩ := (places_in_style_block content hclose).2 _ hmem
  have hone : (Text.position document (7 + o)).line = 1 := by
    have hnone : document.count '\n' = 0 := by decide
    have hle := (List.take_sublist (7 + o) document).count_le '\n'
    simp only [Text.position]
    omega
  refine ⟨_, hmem, rfl, o, hone, ?_⟩
  rw [hone] at hline
  dsimp only at hline
  omega

end WebAudit.Markup
