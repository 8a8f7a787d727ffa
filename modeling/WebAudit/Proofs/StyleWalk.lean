import WebAudit.Style.Detect

/-!
# Walking a style sheet

What the walk over the items of a style sheet meets. `Reaches` tells which items stand somewhere in a
list or in the blocks of its rules, without the order of the walk and without its stop at an error.
The walk has no answer exactly if an error is reached (`declarations?_eq_none_iff`), and otherwise
gives the declarations that are reached (`mem_iff_reaches`).
-/

namespace WebAudit.Style

/-- An item stands in a list, or in the block of a rule of the list, at any depth. -/
inductive Reaches : List Item → Item → Prop where
  | here {items : List Item} {i : Item} (h : i ∈ items) : Reaches items i
  | inside {items : List Item} {i : Item} {content : List Component}
      (h : .rule (some content) ∈ items) (hin : Reaches (blockItems content) i) : Reaches items i

theorem not_reaches_nil (i : Item) : ¬ Reaches [] i := by
  rintro (h | ⟨h, -⟩)
  · cases h
  · cases h

/-- An item is reached at the head of a list, inside the block of the head, or after it. -/
theorem reaches_cons_iff {j i : Item} {is : List Item} :
    Reaches (j :: is) i
      ↔ i = j ∨ (∃ content, j = .rule (some content) ∧ Reaches (blockItems content) i)
        ∨ Reaches is i := by
  constructor
  · rintro (h | ⟨h, hin⟩)
    · exact (List.mem_cons.mp h).imp_right fun h => .inr (.here h)
    · obtain h | h := List.mem_cons.mp h
      · exact .inr (.inl ⟨_, h.symm, hin⟩)
      · exact .inr (.inr (.inside h hin))
  · rintro (rfl | ⟨content, rfl, hin⟩ | h | ⟨h, hin⟩)
    · exact .here List.mem_cons_self
    · exact .inside List.mem_cons_self hin
    · exact .here (List.mem_cons_of_mem _ h)
    · exact .inside (List.mem_cons_of_mem _ h) hin

/-- **The walk has no answer exactly if an error is reached.** -/
theorem declarations?_eq_none_iff {items : List Item} :
    declarations? items = none ↔ Reaches items .error := by
  fun_induction declarations? items with
  | case1 => simp [not_reaches_nil]
  | case2 is => simp [reaches_cons_iff]
  | case3 d is ih => simp [reaches_cons_iff, ih]
  | case4 is ih => simp [reaches_cons_iff, ih]
  | case5 content is hnone ih =>
    simp [reaches_cons_iff, ih.mp hnone]
  | case6 content is ds hds ihcontent ih =>
    have hcontent : ¬ Reaches (blockItems content) .error := by simp [← ihcontent, hds]
    simp [reaches_cons_iff, ih, hcontent]

/-- **The walk gives the declarations that are reached.** -/
theorem mem_iff_reaches {items : List Item} {ds : List Declaration}
    (h : declarations? items = some ds) {d : Declaration} :
    d ∈ ds ↔ Reaches items (.declaration d) := by
  fun_induction declarations? items generalizing ds with
  | case1 =>
    cases h
    simp [not_reaches_nil]
  | case2 => cases h
  | case3 e is ih =>
    obtain ⟨es, hes, rfl⟩ := Option.map_eq_some_iff.mp h
    simp [reaches_cons_iff, ih hes]
  | case4 is ih => simp [reaches_cons_iff, ih h]
  | case5 => cases h
  | case6 content is es hes ihcontent ih =>
    obtain ⟨fs, hfs, rfl⟩ := Option.map_eq_some_iff.mp h
    simp [reaches_cons_iff, ihcontent hes, ih hfs]

/-- The detections in a style sheet are those of the declarations reached in it, and none if an error
is reached. -/
theorem mem_detections_iff {content : String} {x : Detection} :
    x ∈ (detect content).detections
      ↔ ¬ Reaches (sheetItems (components content.toList)) .error
        ∧ ∃ d, Reaches (sheetItems (components content.toList)) (.declaration d)
          ∧ d.detection? = some x := by
  cases h : declarations? (sheetItems (components content.toList)) with
  | none => simp [detect, h, Findings.unreadable, declarations?_eq_none_iff.mp h]
  | some ds =>
    have herror : ¬ Reaches (sheetItems (components content.toList)) .error := by
      simp [← declarations?_eq_none_iff, h]
    simp [detect, h, herror, mem_iff_reaches h]

end WebAudit.Style
