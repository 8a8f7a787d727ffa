import WebAudit.Proofs.ScriptOrder

/-!
# Places of a block in its document

A script or style block is read on its own, and what is found in it is then moved to where its content
starts in the document. A place on the block's first line moves down and to the right, a place on a
later line only down. So each place becomes the one that its character has in the document, wherever
line feeds and characters of several bytes stand before, in or after the block.
-/

namespace WebAudit

/-- A location moves as its two places do. -/
theorem Location.shifted_between (p q : Text.Position) {origin : Text.Position}
    (hline : 1 ≤ origin.line) (hcolumn : 1 ≤ origin.column) :
    (Location.between p q).shifted (origin.line - 1) (origin.column - 1)
      = .between (origin.rebased p) (origin.rebased q) := by
  have hlines (r : Text.Position) :
      (r.line : Int) + (origin.line - 1) = (origin.rebased r).line := by
    simp only [Text.Position.rebased]
    omega
  have hcolumns (r : Text.Position) :
      (if (r.line : Int) = 1 then (r.column : Int) + (origin.column - 1) else r.column)
        = (origin.rebased r).column := by
    simp only [Text.Position.rebased]
    split <;> split <;> omega
  rw [Location.shifted, Location.between, Location.between, Location.mk.injEq]
  refine ⟨hlines p, hcolumns p, congrArg some (hlines q), ?_⟩
  simp only [Option.map_some, Option.some.injEq]
  exact hcolumns q

/-- A stretch of a block, moved to where the block starts, is the stretch of the document. -/
theorem Location.shifted_position (before text after : List Char) {start stop : Nat}
    (hstart : start ≤ text.length) (hstop : stop ≤ text.length) :
    let document := before ++ text ++ after
    let origin := Text.position document before.length
    (Location.between (Text.position text start) (Text.position text stop)).shifted
        (origin.line - 1) (origin.column - 1)
      = .between (Text.position document (before.length + start))
          (Text.position document (before.length + stop)) := by
  intro document origin
  have hplace {o : Nat} (ho : o ≤ text.length) :
      Text.position document (before.length + o) = origin.rebased (Text.position text o) := by
    simp only [document, origin, List.append_assoc]
    rw [Text.position_append, Text.position_append_left text after ho]
  rw [Location.shifted_between _ _ (Text.one_le_line _ _) (Text.one_le_column _ _), hplace hstart,
    hplace hstop]

namespace Script

/-- **A node of a block is located at its place in the document.** For a node within a text that stands
in a document, the location in the text moved to where the text starts is the location of the same
characters in the document. The location in the text is told by the encoded text. And in a document
each place is found among the starts of lines and leads back to its offset. -/
theorem location_in_document (before text after : List Char) (n : Node)
    (hstart : n.span.start ≤ text.length) (hstop : n.span.stop ≤ text.length) :
    let document := before ++ text ++ after
    let origin := Text.position document before.length
    (n.location text).shifted (origin.line - 1) (origin.column - 1)
        = .between (Text.position document (before.length + n.span.start))
            (Text.position document (before.length + n.span.stop))
      ∧ (∀ o ∈ [n.span.start, n.span.stop],
        let p := Text.point text o
        let front := Text.bytes (text.take o)
        p.row = front.count Text.newlineByte
          ∧ p.bytes = (front.reverse.takeWhile (· != Text.newlineByte)).length
          ∧ ∃ row cs, ((Text.bytes text).splitOn Text.newlineByte)[p.row]? = some row
            ∧ Text.decode? (row.take p.bytes) = some cs
            ∧ p.position text = ⟨p.row + 1, cs.length + 1⟩)
      ∧ ∀ o ≤ document.length,
        let p := Text.position document o
        Text.offset document p.line (p.column - 1) = o
          ∧ (∀ m ∈ (Text.lineStarts document).take p.line, m ≤ o)
          ∧ (∀ m ∈ (Text.lineStarts document).drop p.line, o < m)
          ∧ (Text.lineStarts document)[p.line - 1]? = some (o - (p.column - 1)) := by
  intro document origin
  refine ⟨?_, fun o _ => ?_, fun o ho => ?_⟩
  · rw [Node.location_eq]
    exact Location.shifted_position before text after hstart hstop
  · obtain ⟨hrow, hbytes, row, cs, hsplit, hdecode, hcolumn⟩ := Text.point_of_bytes text o
    refine ⟨hrow, hbytes, row, cs, hsplit, hdecode, ?_⟩
    rw [← hcolumn]
    rfl
  · exact ⟨Text.offset_position document ho, Text.position_among_lineStarts document ho⟩

/-- A block that starts within the second line: its first line moves down and to the right, its second
line only down. -/
theorem location_in_document_second_line :
    let before := "<p>é\n<script>".toList
    let text := "é;\nx".toList
    let after := "</script>".toList
    let origin := Text.position (before ++ text ++ after) before.length
    origin = ⟨2, 9⟩
      ∧ ((Node.leaf .other 1 4).location text).shifted (origin.line - 1) (origin.column - 1)
        = ⟨2, 10, some 3, some 2⟩ := by
  intro before text after origin
  have hplace := (location_in_document before text after (.leaf .other 1 4)
    (by decide) (by decide)).1
  exact ⟨by decide, hplace.trans (by decide)⟩

end Script

end WebAudit
