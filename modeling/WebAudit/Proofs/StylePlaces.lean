import WebAudit.Proofs.Positions
import WebAudit.Proofs.StyleWalk

/-!
# Places of detections in style sheets

Every stage of reading a style sheet keeps the tokens of the text in their order and with their
places. The tokens stand at ever later places, each at the line and column of the offset where it
starts (`Starts`). Matching brackets, cutting out items and descending into blocks only leave tokens
out: what each stage gives, written out as tokens again (`placed`), is a sublist of what it was given.
So the names of the declarations are identifiers of the text, in the order of the text.
-/

namespace WebAudit

/-- One location starts before another: line by line, and column by column within a line. -/
def Location.Before (l m : Location) : Prop :=
  l.line < m.line ∨ l.line = m.line ∧ l.column < m.column

namespace Style

open Text (Position)
open scoped List

/-! ## Lines and columns -/

/-- Line by line, and column by column within a line. -/
def Before (p q : Position) : Prop :=
  p.line < q.line ∨ p.line = q.line ∧ p.column < q.column

theorem Before.trans {p q r : Position} (hpq : Before p q) (hqr : Before q r) : Before p r := by
  unfold Before at *
  omega

theorem advance_append (p : Position) (cs ds : List Char) :
    advance p (cs ++ ds) = advance (advance p cs) ds := by
  induction cs generalizing p with
  | nil => rfl
  | cons c cs ih => exact ih _

/-- Some more characters lead to a later place. -/
theorem before_advance (p : Position) {cs : List Char} (h : cs ≠ []) : Before p (advance p cs) := by
  induction cs generalizing p with
  | nil => exact absurd rfl h
  | cons c cs ih =>
    have hstep : Before p (advance p [c]) := by
      simp only [advance]
      split
      · exact .inl (Nat.lt_succ_self _)
      · exact .inr ⟨rfl, Nat.lt_succ_self _⟩
    by_cases hcs : cs = []
    · rw [hcs]
      exact hstep
    · exact hstep.trans (ih _ hcs)

/-- **Counting on from the start gives the line and column of an offset.** -/
theorem advance_eq_position (text : List Char) (offset : Nat) :
    advance ⟨1, 1⟩ (text.take offset) = Text.position text offset := by
  rw [Text.position]
  generalize text.take offset = before
  induction before using List.reverseRecOn with
  | nil => rfl
  | append_singleton cs c ih =>
    rw [advance_append, ih, Text.lastLine_concat, List.count_append]
    by_cases hc : c = '\n'
    · simp [advance, hc]
    · simp [advance, hc]

/-! ## Tokens -/

theorem snd_readName_pos {cs : List Char} (h : startsName cs = true) : 0 < (readName cs).2 := by
  cases cs with
  | nil => cases h
  | cons c r =>
    rw [readName, List.length_cons, name]
    split
    · exact Nat.succ_pos _
    next hpart =>
      split
      · exact Nat.succ_pos _
      next hescape =>
        -- a name starts with one of its characters or with an escape
        exfalso
        unfold startsName at h
        split at h
        · cases h
        next heq =>
          cases heq
          exact hpart (by decide)
        next heq =>
          cases heq
          exact hescape (by simpa using h)
        next heq =>
          cases heq
          exact hpart (by simp [isNamePart, h])

theorem snd_readNamed_pos {cs : List Char} (h : startsName cs = true) : 0 < (readNamed cs).2 := by
  have hpos := snd_readName_pos h
  rw [readNamed]
  split
  next value n hname =>
    rw [hname] at hpos
    split
    next r _ =>
      split
      · show 0 < n + 1 + (readUrl r).2
        omega
      · exact Nat.succ_pos n
    next => exact hpos

theorem snd_readNumber_pos {cs : List Char} {n : Nat} (h : 0 < n) : 0 < (readNumber cs n).2 := by
  rw [readNumber]
  split
  · exact Nat.lt_of_lt_of_le h (Nat.le_add_right _ _)
  · split
    · exact Nat.succ_pos _
    · exact h

theorem snd_readUnicodeRange_pos (r : List Char) : 0 < (readUnicodeRange r).2 := by
  rw [readUnicodeRange]
  dsimp only
  split
  · dsimp only
    omega
  · split
    · split
      · dsimp only
        omega
      · dsimp only
        omega
    · dsimp only
      omega

theorem snd_readAt_pos (r : List Char) : 0 < (readAt r).2 := by
  rw [readAt]
  split
  · exact Nat.succ_pos _
  · exact Nat.one_pos

theorem snd_readHash_pos (r : List Char) : 0 < (readHash r).2 := by
  rw [readHash.eq_def]
  split
  · split
    · exact Nat.succ_pos _
    · exact Nat.one_pos
  · exact Nat.one_pos

theorem snd_readString_pos (quote : Char) (r : List Char) : 0 < (readString quote r).2 := by
  rw [readString]
  split
  next cs n e _ => cases e <;> exact Nat.succ_pos n

theorem snd_readLiteral_pos (c : Char) (r : List Char) : 0 < (readLiteral c r).2 := by
  rw [readLiteral]
  split
  · exact Nat.two_pos
  · split
    · exact Nat.two_pos
    · exact Nat.one_pos

theorem snd_ite_pos {q : Prop} [Decidable q] {a b : Token × Nat} (ha : q → 0 < a.2) (hb : 0 < b.2) :
    0 < (if q then a else b).2 := by
  split
  next h => exact ha h
  next => exact hb

/-- Every token takes at least one character. -/
theorem snd_next_pos (c : Char) (r : List Char) : 0 < (next c r).2 := by
  refine snd_ite_pos (fun h => by simp [h]) ?_
  refine snd_ite_pos (fun _ => snd_readUnicodeRange_pos _) ?_
  refine snd_ite_pos (fun _ => Nat.succ_pos 2) ?_
  refine snd_ite_pos snd_readNamed_pos ?_
  refine snd_ite_pos snd_readNumber_pos ?_
  refine snd_ite_pos (fun _ => snd_readAt_pos r) ?_
  refine snd_ite_pos (fun _ => snd_readHash_pos r) ?_
  -- the brackets
  refine snd_ite_pos (fun _ => Nat.one_pos) ?_
  refine snd_ite_pos (fun _ => Nat.one_pos) ?_
  refine snd_ite_pos (fun _ => Nat.one_pos) ?_
  refine snd_ite_pos (fun _ => Nat.one_pos) ?_
  refine snd_ite_pos (fun _ => Nat.one_pos) ?_
  refine snd_ite_pos (fun _ => Nat.one_pos) ?_
  refine snd_ite_pos (fun _ => snd_readString_pos c r) ?_
  refine snd_ite_pos (fun _ => Nat.lt_of_lt_of_le Nat.two_pos (Nat.le_add_right _ _)) ?_
  refine snd_ite_pos (fun _ => Nat.succ_pos 3) ?_
  exact snd_readLiteral_pos c r

/-- A token starts at an offset of a text: at its start, or after the token that starts there. -/
inductive Starts : List Char → Nat → Token → Prop where
  | first (c : Char) (r : List Char) : Starts (c :: r) 0 (next c r).1
  | later {c : Char} {r : List Char} {offset : Nat} {t : Token}
      (h : Starts ((c :: r).drop (next c r).2) offset t) : Starts (c :: r) ((next c r).2 + offset) t

/-- Tokens stand where they start. -/
theorem exists_starts_of_mem_tokensFrom {p : Position} {cs : List Char} {x : Placed}
    (h : x ∈ tokensFrom p cs) :
    ∃ offset, Starts cs offset x.token ∧ x.place = advance p (cs.take offset) := by
  fun_induction tokensFrom p cs with
  | case1 => cases h
  | case2 p c r t k hnext n ih =>
    have ht : (next c r).1 = t := by rw [hnext]
    have hn : n = (next c r).2 := by
      have hpos := snd_next_pos c r
      rw [hnext] at hpos ⊢
      exact Nat.max_eq_left hpos
    obtain rfl | h := List.mem_cons.mp h
    · exact ⟨0, ht ▸ .first c r, rfl⟩
    · obtain ⟨offset, hstarts, hplace⟩ := ih h
      rw [hn] at hstarts hplace
      refine ⟨_, .later hstarts, ?_⟩
      rw [hplace, ← advance_append, ← List.take_add]

/-- **Tokens stand at ever later places.** -/
theorem pairwise_tokensFrom (p : Position) (cs : List Char) :
    (tokensFrom p cs).Pairwise fun x y => Before x.place y.place := by
  fun_induction tokensFrom p cs with
  | case1 => exact .nil
  | case2 p c r t k hnext n ih =>
    refine List.pairwise_cons.mpr ⟨fun x hx => ?_, ih⟩
    obtain ⟨offset, -, hplace⟩ := exists_starts_of_mem_tokensFrom hx
    rw [hplace, ← advance_append]
    refine before_advance p ?_
    simp [n]

/-! ## Components -/

namespace Component

mutual

/-- The tokens of a component, without closing brackets. -/
def placed : Component → List Placed
  | token p t => [⟨p, t⟩]
  | block p b cs => ⟨p, .opening b⟩ :: placedList cs
  | function p n cs => ⟨p, .function n⟩ :: placedList cs

/-- The tokens of some components, without closing brackets. -/
def placedList : List Component → List Placed
  | [] => []
  | c :: cs => c.placed ++ placedList cs

end

theorem placedList_append (cs ds : List Component) :
    placedList (cs ++ ds) = placedList cs ++ placedList ds := by
  induction cs with
  | nil => rfl
  | cons c cs ih => rw [List.cons_append, placedList, placedList, ih, List.append_assoc]

theorem placedList_singleton (c : Component) : placedList [c] = c.placed :=
  List.append_nil _

theorem placedList_sublist {cs ds : List Component} (h : cs <+ ds) :
    placedList cs <+ placedList ds := by
  induction h with
  | slnil => exact List.nil_sublist _
  | cons d _ ih => exact ih.trans (List.sublist_append_right _ _)
  | cons_cons d _ ih => exact ih.append_left _

theorem placedList_sublist_of_curly? {c : Component} {content : List Component}
    (h : c.curly? = some content) : placedList content <+ c.placed := by
  cases c with
  | token p t => cases h
  | function p n cs => cases h
  | block p b cs =>
    cases b with
    | curly =>
      cases h
      exact List.sublist_cons_self _ _
    | round => cases h
    | square => cases h

end Component

open Component (placedList placedList_append placedList_singleton placedList_sublist)

/-- The token that opens a bracket. -/
def Opener.token : Opener → Token
  | bracket b => .opening b
  | function n => .function n

/-- The tokens before what is inside the open brackets, and of the brackets. -/
def framesPlaced : List Frame → List Placed
  | [] => []
  | f :: fs => framesPlaced fs ++ placedList f.before.reverse ++ [⟨f.place, f.opener.token⟩]

/-- The tokens of all components read so far. -/
def Nesting.placed (s : Nesting) : List Placed :=
  framesPlaced s.frames ++ placedList s.current.reverse

/-- Closing a bracket moves no token. -/
theorem placedList_close (f : Frame) (content : List Component) :
    placedList (f.close content).reverse
      = placedList f.before.reverse ++ [⟨f.place, f.opener.token⟩] ++ placedList content.reverse := by
  obtain ⟨place, opener, before⟩ := f
  cases opener with
  | bracket b =>
    rw [Frame.close, List.reverse_cons, placedList_append, placedList_singleton, List.append_assoc]
    rfl
  | function n =>
    rw [Frame.close, List.reverse_cons, placedList_append, placedList_singleton, List.append_assoc]
    rfl

theorem placed_close (f : Frame) (fs : List Frame) (content : List Component) :
    Nesting.placed ⟨f.close content, fs⟩ = Nesting.placed ⟨content, f :: fs⟩ := by
  simp only [Nesting.placed, framesPlaced, placedList_close, List.append_assoc]

/-- One more token comes last or is left out. -/
theorem placed_add (s : Nesting) (x : Placed) :
    (s.add x).placed = s.placed ∨ (s.add x).placed = s.placed ++ [x] := by
  obtain ⟨place, t⟩ := x
  have htoken : Nesting.placed { s with current := .token place t :: s.current }
      = s.placed ++ [⟨place, t⟩] := by
    rw [Nesting.placed, List.reverse_cons, placedList_append, placedList_singleton,
      ← List.append_assoc]
    rfl
  have hopen (o : Opener) : Nesting.placed ⟨[], ⟨place, o, s.current⟩ :: s.frames⟩
      = s.placed ++ [⟨place, o.token⟩] :=
    List.append_nil _
  cases t with
  | comment => exact .inl rfl
  | opening b => exact .inr (hopen (.bracket b))
  | function n => exact .inr (hopen (.function n))
  | closing b =>
    obtain ⟨current, frames⟩ := s
    cases frames with
    | nil => exact .inr htoken
    | cons f fs =>
      simp only [Nesting.add]
      split
      · exact .inl (placed_close f fs current)
      · exact .inr htoken
  | _ => exact .inr htoken

theorem placed_foldl_add (s : Nesting) (xs : List Placed) :
    (xs.foldl Nesting.add s).placed <+ s.placed ++ xs := by
  induction xs generalizing s with
  | nil => exact List.sublist_append_left _ _
  | cons x xs ih =>
    have hx := ih (s.add x)
    obtain h | h := placed_add s x
    · rw [h] at hx
      exact hx.trans ((List.sublist_cons_self x xs).append_left _)
    · rw [h, List.append_assoc, List.singleton_append] at hx
      exact hx

theorem placedList_closeAll (current : List Component) (frames : List Frame) :
    placedList (closeAll current frames) = Nesting.placed ⟨current, frames⟩ := by
  induction frames generalizing current with
  | nil => rfl
  | cons f fs ih => rw [closeAll, ih, placed_close]

/-- **The components of a text hold its tokens in their order.** -/
theorem placedList_components_sublist (text : List Char) :
    placedList (components text) <+ tokens text := by
  rw [components, placedList_closeAll]
  exact placed_foldl_add ⟨[], []⟩ (tokens text)

/-! ## Items -/

/-- The name of a declaration as a token. -/
def Declaration.head (d : Declaration) : Placed :=
  ⟨d.place, .ident d.name⟩

/-- The tokens of a declaration: its name and those of its value. -/
def Declaration.placed (d : Declaration) : List Placed :=
  d.head :: placedList d.value

/-- The tokens that count of an item: those of a declaration, or those inside the block of a rule. -/
def Item.placed : Item → List Placed
  | .declaration d => d.placed
  | .rule none => []
  | .rule (some content) => placedList content
  | .error => []

theorem cut_eq (p : Component → Bool) (cs : List Component) :
    (cut p cs).before ++ ((cut p cs).stop.toList ++ (cut p cs).after) = cs := by
  induction cs with
  | nil => rfl
  | cons c cs ih =>
    rw [cut]
    split
    · rfl
    · exact congrArg (c :: ·) ih

/-- A cut moves no token. -/
theorem placedList_cut (p : Component → Bool) (cs : List Component) :
    placedList ((cut p cs).before ++ (cut p cs).stop.toList) ++ placedList (cut p cs).after
      = placedList cs := by
  rw [← placedList_append, List.append_assoc, cut_eq]

theorem placedList_stop_sublist (r : Cut) :
    placedList r.stop.toList <+ placedList (r.before ++ r.stop.toList) :=
  placedList_sublist (List.sublist_append_right _ _)

theorem placedList_sublist_of_content? {r : Cut} {content : List Component}
    (h : r.content? = some content) : placedList content <+ placedList r.stop.toList := by
  obtain ⟨c, hc, hcontent⟩ := Option.bind_eq_some_iff.mp h
  rw [hc, Option.toList_some, placedList_singleton]
  exact Component.placedList_sublist_of_curly? hcontent

theorem placed_rule_content? (r : Cut) : (Item.rule r.content?).placed <+ placedList r.stop.toList := by
  cases h : r.content? with
  | none => exact List.nil_sublist _
  | some content => exact placedList_sublist_of_content? h

theorem suffix_all_add (s : ValueState) (c : Component) (h : s.beforeBang <:+ s.all) :
    (s.add c).all = c :: s.all ∧ (s.add c).beforeBang <:+ c :: s.all := by
  unfold ValueState.add
  dsimp only [List.tail_cons]
  split
  · exact ⟨rfl, List.suffix_cons _ _⟩
  · split
    · exact ⟨rfl, h.trans (List.suffix_cons _ _)⟩
    · split
      · exact ⟨rfl, h.trans (List.suffix_cons _ _)⟩
      · exact ⟨rfl, h.trans (List.suffix_cons _ _)⟩

/-- All components of a value are kept, and those before the last exclamation mark come first. -/
theorem foldl_add_all (cs : List Component) (s : ValueState) (h : s.beforeBang <:+ s.all) :
    (cs.foldl ValueState.add s).all = cs.reverse ++ s.all
      ∧ (cs.foldl ValueState.add s).beforeBang <:+ cs.reverse ++ s.all := by
  induction cs generalizing s with
  | nil => exact ⟨rfl, h⟩
  | cons c cs ih =>
    obtain ⟨hall, hbang⟩ := suffix_all_add s c h
    have hrest := ih (s.add c) (hall ▸ hbang)
    rw [hall] at hrest
    rw [List.reverse_cons, List.append_assoc]
    exact hrest

/-- A value is a beginning of the components that spell it. -/
theorem prefix_of_value? {cs v : List Component} (h : value? cs = some v) : v <+: cs := by
  obtain ⟨hall, hbang⟩ := foldl_add_all cs {} List.suffix_rfl
  rw [List.append_nil] at hall hbang
  unfold value? at h
  dsimp only at h
  split at h
  · cases h
  · obtain rfl := Option.some.inj h
    split
    · simpa using List.reverse_prefix.mpr hbang
    · exact ⟨[], by rw [List.append_nil, hall, List.reverse_reverse]⟩

/-- A declaration starts with its name, and its value is among what follows. -/
theorem placed_of_declaration? {first : Component} {rest : List Component} {d : Declaration}
    (h : declaration? first rest = some d) : d.placed <+ first.placed ++ placedList rest := by
  rw [declaration?.eq_def] at h
  split at h
  · split at h
    next c value hvalue =>
      split at h
      · obtain ⟨v, hv, rfl⟩ := Option.map_eq_some_iff.mp h
        have hrest : v <+ rest := by
          refine (prefix_of_value? hv).sublist.trans ((List.sublist_cons_self c value).trans ?_)
          rw [← hvalue]
          exact List.dropWhile_sublist _
        exact (placedList_sublist hrest).cons_cons _
      · cases h
    · cases h
  · cases h

theorem placed_statementItem (first : Component) (r : Cut) :
    (statementItem first r).placed <+ first.placed ++ placedList (r.before ++ r.stop.toList) := by
  unfold statementItem
  dsimp only
  split
  next d hd =>
    have hstop : (r.stop.filter (·.curly?.isSome)).toList <+ r.stop.toList := by
      cases r.stop with
      | none => exact List.nil_sublist _
      | some c =>
        rw [Option.filter_some]
        split
        · exact List.Sublist.refl _
        · exact List.nil_sublist _
    exact (placed_of_declaration? hd).trans
      ((placedList_sublist (hstop.append_left _)).append_left _)
  next =>
    split
    next content hcontent =>
      exact ((placedList_sublist_of_content? hcontent).trans (placedList_stop_sublist r)).trans
        (List.sublist_append_right _ _)
    next => exact List.nil_sublist _

/-- An item that is cut off, and the items after it. -/
theorem placed_cons_sublist {i : Item} {is : List Item} {c : Component} {cs : List Component}
    (p : Component → Bool)
    (hi : i.placed <+ c.placed ++ placedList ((cut p cs).before ++ (cut p cs).stop.toList))
    (his : is.flatMap Item.placed <+ placedList (cut p cs).after) :
    (i :: is).flatMap Item.placed <+ placedList (c :: cs) := by
  rw [List.flatMap_cons]
  refine (hi.append his).trans ?_
  rw [List.append_assoc, placedList_cut]
  exact List.Sublist.refl _

theorem placed_rule_sublist (c : Component) (r : Cut) :
    (Item.rule r.content?).placed <+ c.placed ++ placedList (r.before ++ r.stop.toList) :=
  ((placed_rule_content? r).trans (placedList_stop_sublist r)).trans (List.sublist_append_right _ _)

/-- The items of a block hold its tokens in their order. -/
theorem placed_blockItems_sublist (cs : List Component) :
    (blockItems cs).flatMap Item.placed <+ placedList cs := by
  fun_induction blockItems cs with
  | case1 => exact List.nil_sublist _
  | case2 c cs h ih => exact ih.trans (List.sublist_append_right _ _)
  | case3 c cs h h' r ih =>
    exact placed_cons_sublist _ (placed_rule_sublist c r) ih
  | case4 c cs h h' content hc ih =>
    exact (Component.placedList_sublist_of_curly? hc).append ih
  | case5 c cs h h' hc r ih => exact placed_cons_sublist _ (placed_statementItem c r) ih

/-- So do the items of a style sheet. -/
theorem placed_sheetItems_sublist (cs : List Component) :
    (sheetItems cs).flatMap Item.placed <+ placedList cs := by
  fun_induction sheetItems cs with
  | case1 => exact List.nil_sublist _
  | case2 c cs h ih => exact ih.trans (List.sublist_append_right _ _)
  | case3 c cs h h' r ih =>
    exact placed_cons_sublist _ (placed_rule_sublist c r) ih
  | case4 c cs h h' content hc ih =>
    exact (Component.placedList_sublist_of_curly? hc).append ih
  | case5 c cs h h' hc r ih =>
    refine placed_cons_sublist _ ?_ ih
    split
    next content hcontent =>
      exact ((placedList_sublist_of_content? hcontent).trans (placedList_stop_sublist r)).trans
        (List.sublist_append_right _ _)
    next => exact List.nil_sublist _

/-- **The declarations hold tokens of the items, in their order.** -/
theorem placed_sublist_of_declarations? {items : List Item} {ds : List Declaration}
    (h : declarations? items = some ds) :
    ds.flatMap Declaration.placed <+ items.flatMap Item.placed := by
  fun_induction declarations? items generalizing ds with
  | case1 =>
    cases h
    exact List.nil_sublist _
  | case2 => cases h
  | case3 d is ih =>
    obtain ⟨es, hes, rfl⟩ := Option.map_eq_some_iff.mp h
    exact (ih hes).append_left _
  | case4 is ih => exact ih h
  | case5 content is hnone => cases h
  | case6 content is es hes ihcontent ih =>
    obtain ⟨fs, hfs, rfl⟩ := Option.map_eq_some_iff.mp h
    rw [List.flatMap_append, List.flatMap_cons]
    exact ((ihcontent hes).trans (placed_blockItems_sublist content)).append (ih hfs)

/-! ## Detections -/

/-- Where a declaration starts. -/
def Declaration.location (d : Declaration) : Location :=
  ⟨d.place.line, d.place.column, none, none⟩

/-- What a detection tells of its declaration. -/
theorem of_detection? {d : Declaration} {x : Detection} (h : d.detection? = some x) :
    x.location = d.location ∧ x.supportKey = some ("css.properties." ++ d.property)
      ∧ x.value = d.property ++ ": " ++ d.valueText := by
  obtain ⟨id, -, rfl⟩ := Option.map_eq_some_iff.mp h
  exact ⟨rfl, rfl, rfl⟩

theorem Before.location {d e : Declaration} (h : Before d.place e.place) :
    d.location.Before e.location := by
  unfold Before at h
  simp only [Location.Before, Declaration.location]
  omega

/-- The tokens of all declarations of a style sheet are tokens of its text, in their order. -/
theorem placed_sublist_tokens {text : List Char} {ds : List Declaration}
    (h : declarations? (sheetItems (components text)) = some ds) :
    ds.flatMap Declaration.placed <+ tokens text :=
  ((placed_sublist_of_declarations? h).trans (placed_sheetItems_sublist _)).trans
    (placedList_components_sublist text)

theorem heads_sublist (ds : List Declaration) :
    ds.map Declaration.head <+ ds.flatMap Declaration.placed := by
  induction ds with
  | nil => exact List.nil_sublist _
  | cons d ds ih => exact (ih.trans (List.sublist_append_right _ _)).cons_cons _

theorem pairwise_places {text : List Char} {ds : List Declaration}
    (h : declarations? (sheetItems (components text)) = some ds) :
    ds.Pairwise fun d e => Before d.place e.place := by
  have hheads : (ds.map Declaration.head).Pairwise fun x y => Before x.place y.place :=
    (pairwise_tokensFrom _ _).sublist ((heads_sublist ds).trans (placed_sublist_tokens h))
  rwa [List.pairwise_map] at hheads

/-- A declaration starts where its name does. -/
theorem exists_starts_of_mem_declarations {text : List Char} {ds : List Declaration}
    (h : declarations? (sheetItems (components text)) = some ds) {d : Declaration} (hd : d ∈ ds) :
    ∃ offset, Starts (normalize text) offset (.ident d.name)
      ∧ d.place = Text.position (normalize text) offset := by
  have htoken : d.head ∈ tokens text :=
    ((heads_sublist ds).trans (placed_sublist_tokens h)).subset (List.mem_map_of_mem hd)
  obtain ⟨offset, hstarts, hplace⟩ := exists_starts_of_mem_tokensFrom htoken
  exact ⟨offset, hstarts, hplace.trans (advance_eq_position _ _)⟩

/-- The detections in a style sheet come at ever later places. Each stands at the line and column of an
identifier of the normalised text, and names the property that the identifier spells in lower case.
Unless an error is reached, none that a declaration shows is missing. -/
theorem detect_in_text_order (content : String) :
    let text := normalize content.toList
    let items := sheetItems (components content.toList)
    (detect content).detections.Pairwise (fun x y => x.location.Before y.location)
      ∧ (∀ x ∈ (detect content).detections, ∃ offset name value,
          Starts text offset (.ident name)
            ∧ let place := Text.position text offset
              let property := String.ofList (name.map Text.asciiLower)
              x.location = ⟨place.line, place.column, none, none⟩
                ∧ x.supportKey = some ("css.properties." ++ property)
                ∧ x.value = property ++ ": " ++ value)
      ∧ ∀ x, x ∈ (detect content).detections
          ↔ ¬ Reaches items .error ∧ ∃ d, Reaches items (.declaration d) ∧ d.detection? = some x := by
  intro text items
  rw [← and_assoc]
  refine ⟨?_, fun x => mem_detections_iff⟩
  cases h : declarations? (sheetItems (components content.toList)) with
  | none =>
    simp only [detect, h]
    exact ⟨.nil, List.forall_mem_nil _⟩
  | some ds =>
    simp only [detect, h]
    constructor
    · refine List.pairwise_filterMap.mpr ((pairwise_places h).imp fun hbefore x hx y hy => ?_)
      rw [(of_detection? hx).1, (of_detection? hy).1]
      exact hbefore.location
    · intro x hx
      obtain ⟨d, hd, hdetection⟩ := List.mem_filterMap.mp hx
      obtain ⟨hlocation, hkey, hvalue⟩ := of_detection? hdetection
      obtain ⟨offset, hstarts, hplace⟩ := exists_starts_of_mem_declarations h hd
      refine ⟨offset, d.name, d.valueText, hstarts, ?_, hkey, hvalue⟩
      rw [hlocation, Declaration.location, hplace]

end Style

end WebAudit
