import WebAudit.Proofs.InterfaceUses
import WebAudit.Proofs.NumberTokens
import WebAudit.Proofs.StatementRules

/-!
# Big integers

A number in a script shows a big integer if a test of its text says so. The test is looser than the grammar
of numbers: it takes digits of any radix without a radix mark, underscores anywhere and a line feed at the
end. On number tokens it comes down to one character. A token is a big integer or has no `n` in it at all
(`Token.bigInteger_or_mark_notMem`), and what the test accepts has an `n` in it.

That the numbers of a tree are number tokens is a law (`tokenLaw`), so it holds of whatever the grammar
reads (`token_of_parse?`).
-/

namespace WebAudit.Script

namespace Number

/-! ## Tokens of big integers -/

/-- The text of a big integer: an integer and the mark. -/
def BigInteger (cs : List Char) : Prop :=
  ∃ body, Integer body ∧ cs = body ++ ['n']

variable {p : Char → Bool} {cs : List Char}

theorem Tail.forall_mem {P : Char → Prop} (h : Tail p cs) (hp : ∀ c, p c = true → P c) (hu : P '_') :
    ∀ c ∈ cs, P c := by
  induction h with
  | nil => exact List.forall_mem_nil _
  | digit hc _ ih => exact List.forall_mem_cons.mpr ⟨hp _ hc, ih⟩
  | apart hc _ ih => exact List.forall_mem_cons.mpr ⟨hu, List.forall_mem_cons.mpr ⟨hp _ hc, ih⟩⟩

theorem Digits.forall_mem {P : Char → Prop} (h : Digits p cs) (hp : ∀ c, p c = true → P c)
    (hu : P '_') : ∀ c ∈ cs, P c := by
  cases h with
  | mk hc h => exact List.forall_mem_cons.mpr ⟨hp _ hc, h.forall_mem hp hu⟩

theorem ne_mark {c : Char} (hp : p 'n' = false) (hc : p c = true) : c ≠ 'n' := by
  rintro rfl
  rw [hp] at hc
  cases hc

theorem Tail.mark_notMem (h : Tail p cs) (hp : p 'n' = false) : 'n' ∉ cs :=
  fun hn => h.forall_mem (fun _ => ne_mark hp) (by decide) 'n' hn rfl

theorem Digits.mark_notMem (h : Digits p cs) (hp : p 'n' = false) : 'n' ∉ cs :=
  fun hn => h.forall_mem (fun _ => ne_mark hp) (by decide) 'n' hn rfl

theorem Integer.mark_notMem (h : Integer cs) : 'n' ∉ cs := by
  cases h with
  | decimal h => exact h.mark_notMem rfl
  | @radix x _ _ hx h =>
    obtain ⟨hradix, -, hmark, -⟩ := radixDigits?_eq_some hx
    have hx : x ≠ 'n' := by
      rintro rfl
      revert hradix
      decide
    simp [hx.symm, h.mark_notMem hmark]

theorem Whole.mark_notMem (h : Whole cs) : 'n' ∉ cs := by
  cases h with
  | zero => decide
  | plain hc h => simp [(ne_mark rfl hc).symm, h.mark_notMem rfl]
  | zeroed hc h => simp [(ne_mark rfl hc).symm, h.mark_notMem rfl]

theorem Exponent.mark_notMem (h : Exponent cs) : 'n' ∉ cs := by
  cases h with
  | plain he h => rcases he with rfl | rfl <;> simp [h.mark_notMem rfl]
  | signed he hs h =>
    rcases he with rfl | rfl <;> rcases hs with rfl | rfl <;> simp [h.mark_notMem rfl]

theorem Optional.mark_notMem {form : List Char → Prop} (h : Optional form cs)
    (hform : form cs → 'n' ∉ cs) : 'n' ∉ cs := by
  rcases h with rfl | h
  · exact List.not_mem_nil
  · exact hform h

/-- A token is a big integer, or it has no mark in it at all. -/
theorem Token.bigInteger_or_mark_notMem (h : Token cs) : BigInteger cs ∨ 'n' ∉ cs := by
  cases h with
  | integer h => exact .inr h.mark_notMem
  | bigInteger h => exact .inl ⟨_, h, rfl⟩
  | point hw hf _ he =>
    right
    simp [hw.mark_notMem Whole.mark_notMem, hf.mark_notMem (·.mark_notMem rfl),
      he.mark_notMem Exponent.mark_notMem]
  | scaled hw he => exact .inr (by simp [hw.mark_notMem, he.mark_notMem])

/-! ## The test for big integers -/

theorem isBigIntTail_concat {body : List Char} (hne : body ≠ [])
    (hbody : ∀ c ∈ body, isBigIntBody c = true) : isBigIntTail (body ++ ['n']) = true := by
  have htake : (body ++ ['n']).takeWhile isBigIntBody = body := by
    rw [List.takeWhile_append_of_pos hbody]
    simp [isBigIntBody, isHexDigit, isDigit]
  simp [isBigIntTail, htake, hne]

theorem Digits.isBigIntTail (h : Digits p cs) (hp : ∀ c, p c = true → isHexDigit c = true) :
    isBigIntTail (cs ++ ['n']) = true :=
  isBigIntTail_concat h.ne_nil
    (h.forall_mem (fun c hc => by simp [isBigIntBody, hp c hc]) (by decide))

theorem isHexDigit_of_isDigit {c : Char} (hc : isDigit c = true) : isHexDigit c = true := by
  simp [isHexDigit, hc]

/-- The test accepts every big integer. -/
theorem BigInteger.isBigInt (h : BigInteger cs) : isBigInt cs = true := by
  obtain ⟨body, hbody, rfl⟩ := h
  cases hbody with
  | decimal h => simp [Number.isBigInt, h.isBigIntTail fun _ => isHexDigit_of_isDigit]
  | radix hx h =>
    obtain ⟨hmark, -, -, hhex⟩ := radixDigits?_eq_some hx
    simp only [Number.isBigInt, List.cons_append, h.isBigIntTail hhex, Bool.and_true,
      Bool.or_eq_true]
    exact .inr (List.contains_iff_mem.mpr hmark)

theorem exists_mark_of_isBigIntTail (h : isBigIntTail cs = true) :
    ∃ body, cs = body ++ ['n'] ∨ cs = body ++ ['n', '\n'] := by
  simp only [isBigIntTail, Bool.and_eq_true, List.contains_cons, List.contains_nil, Bool.or_false,
    Bool.or_eq_true, beq_iff_eq] at h
  have hsplit := List.take_append_drop (cs.takeWhile isBigIntBody).length cs
  rcases h.2 with hrest | hrest
  · rw [hrest] at hsplit
    exact ⟨_, .inl hsplit.symm⟩
  · rw [hrest] at hsplit
    exact ⟨_, .inr hsplit.symm⟩

/-- What the test accepts ends in the mark, or in the mark and a line feed. -/
theorem exists_mark_of_isBigInt (h : isBigInt cs = true) :
    ∃ body, cs = body ++ ['n'] ∨ cs = body ++ ['n', '\n'] := by
  rw [isBigInt.eq_def, Bool.or_eq_true] at h
  rcases h with h | h
  · exact exists_mark_of_isBigIntTail h
  · split at h
    · next x r =>
      obtain ⟨body, hr | hr⟩ := exists_mark_of_isBigIntTail (Bool.and_eq_true _ _ ▸ h).2
      · exact ⟨'0' :: x :: body, .inl (by simp [hr])⟩
      · exact ⟨'0' :: x :: body, .inr (by simp [hr])⟩
    · cases h

/-- **The test agrees with the last character of a token**, and both say whether the token is a big
integer. -/
theorem isBigInt_iff (h : Token cs) :
    (isBigInt cs = true ↔ cs.getLast? = some 'n') ∧ (cs.getLast? = some 'n' ↔ BigInteger cs) := by
  rcases h.bigInteger_or_mark_notMem with hbig | hmark
  · have hlast : cs.getLast? = some 'n' := by
      obtain ⟨body, -, rfl⟩ := hbig
      exact List.getLast?_concat
    simp [hbig.isBigInt, hlast, hbig]
  · have hlast : cs.getLast? ≠ some 'n' := fun h => hmark (List.mem_of_getLast? h)
    have htest : isBigInt cs ≠ true := by
      intro h
      obtain ⟨body, rfl | rfl⟩ := exists_mark_of_isBigInt h <;> simp at hmark
    have hbig : ¬ BigInteger cs := by
      rintro ⟨body, -, rfl⟩
      simp at hmark
    simp [htest, hlast, hbig]

end Number

/-! ## Numbers in a tree -/

theorem Node.mem_preorderList_iff {m : Node} {ns : List Node} :
    m ∈ Node.preorderList ns ↔ ∃ n ∈ ns, m ∈ n.preorder := by
  induction ns with
  | nil => simp [Node.preorderList]
  | cons n ns ih => simp [Node.preorderList, ih]

/-- The law that numbers are number tokens. -/
def tokenLaw (source : List Char) : Law where
  source := source
  Holds n := ∀ m ∈ n.preorder, m.kind = .number → Number.Token (m.text source).toList
  make hk h := by
    intro m hm hnumber
    rw [Node.preorder, List.mem_cons, Node.mem_preorderList_iff] at hm
    rcases hm with rfl | ⟨n, hn, hm⟩
    · exact absurd hnumber hk
    · exact h n hn m hm hnumber
  relabel {n} l h := by
    cases n
    simp only [Node.withLabel, Node.preorder, List.forall_mem_cons] at h ⊢
    exact h
  number {start} hpos := by
    intro m hm _
    rw [Node.leaf, Node.preorder, Node.preorderList, List.mem_singleton] at hm
    subst hm
    have htext : ((Node.leaf .number start (start + Number.length (source.drop start))).text
        source).toList = (source.drop start).take (Number.length (source.drop start)) := by
      simp [Node.text, Node.leaf, Node.span]
    exact htext ▸ (Number.starts_length _).take hpos

/-- **The numbers in the tree of a script are number tokens.** -/
theorem token_of_parse? {d : Dialect} {source : List Char} {tree : Node}
    (h : parse? d source = some tree) :
    ∀ n ∈ tree.preorder, n.kind = .number → Number.Token (n.text source).toList :=
  (tokenLaw source).holds_of_parse? h

/-! ## Detections -/

/-- A node is a number whose text ends in the mark of a big integer. -/
def Node.isMarked (source : List Char) (n : Node) : Bool :=
  n.kind == .number && (n.text source).toList.getLast? == some 'n'

/-- What a big integer shows. -/
def Node.bigIntDetection (source : List Char) (n : Node) : Detection :=
  n.detection source "bigint" (n.text source) "js.bigint"

/-- A number shows a big integer if its text ends in the mark, and nothing else. -/
theorem visit_number {source : List Char} {n : Node} (hkind : n.kind = .number)
    (htoken : Number.Token (n.text source).toList) :
    visit source n = if n.isMarked source then [n.bigIntDetection source] else [] := by
  have htest := (Number.isBigInt_iff htoken).1
  have hmarked : Number.isBigInt (n.text source).toList = n.isMarked source := by
    rw [Bool.eq_iff_iff, htest]
    simp [Node.isMarked, hkind]
  rw [visit, hkind]
  simp only [numberDetections, hmarked, Node.bigIntDetection]

/-- Nothing but a number shows a big integer. -/
theorem filter_visit_of_ne_number {source : List Char} {n : Node} (hkind : n.kind ≠ .number) :
    (visit source n).filter (·.featureId == "bigint") = [] := by
  have hchain : (chainDetections source n).filter (·.featureId == "bigint") = [] := by
    rw [chainDetections]
    split <;> rfl
  have hfunction : (functionDetections source n).filter (·.featureId == "bigint") = [] := by
    rw [functionDetections]
    split <;> rfl
  have hinterfaces : ∀ e ∈ interfaces, (e.2 == "bigint") = false := by decide
  have hconstruction : (constructionDetections source n).filter (·.featureId == "bigint") = [] := by
    rw [constructionDetections]
    split
    next f hf =>
      have hne := hinterfaces _ (interfaceFeature?_eq_some_iff.mp hf)
      simp only [Node.detection, List.filter_cons, hne]
      rfl
    next => rfl
  have hbinary : (binaryDetections source n).filter (·.featureId == "bigint") = [] := by
    rw [binaryDetections]
    split
    · split <;> rfl
    · rfl
  rw [visit]
  split
  next => rw [memberDetections_eq, hchain]
  next => exact hchain
  next => exact hconstruction
  next h => exact absurd h hkind
  next => exact hbinary
  next => exact hfunction
  next => exact hfunction
  next => rfl

/-- **A script shows big integers just where its numbers end in the mark.** Of the number tokens, in all
their forms, the test accepts those with the mark at the end, and these are the big integers. The numbers
in the tree of a script are number tokens, so a number gives one detection with its text if it is a big
integer, and none if it is not; the script has no other detections of big integers. -/
theorem bigints_shown_by_mark :
    (∀ cs : List Char, Number.isToken cs = true ↔ Number.Token cs)
    ∧ (∀ cs : List Char, Number.Token cs →
      (Number.isBigInt cs = true ↔ cs.getLast? = some 'n')
      ∧ (cs.getLast? = some 'n' ↔ Number.BigInteger cs))
    ∧ ∀ (d : Dialect) (content : String) (tree : Node), parse? d content.toList = some tree →
      (∀ n ∈ tree.preorder, n.kind = .number →
        Number.Token (n.text content.toList).toList
        ∧ (Number.BigInteger (n.text content.toList).toList → visit content.toList n
          = [n.detection content.toList "bigint" (n.text content.toList) "js.bigint"])
        ∧ (¬ Number.BigInteger (n.text content.toList).toList → visit content.toList n = []))
      ∧ (detect d content).detections.filter (·.featureId == "bigint")
        = (tree.preorder.filter (·.isMarked content.toList)).map fun n =>
            n.detection content.toList "bigint" (n.text content.toList) "js.bigint" := by
  refine ⟨fun _ => Number.isToken_iff, fun _ => Number.isBigInt_iff, ?_⟩
  intro d content tree htree
  have htokens := token_of_parse? htree
  refine ⟨fun n hn hkind => ?_, ?_⟩
  · have htoken := htokens n hn hkind
    have hbig := (Number.isBigInt_iff htoken).2
    rw [visit_number hkind htoken]
    refine ⟨htoken, fun h => if_pos ?_, fun h => if_neg ?_⟩
    · simpa [Node.isMarked, hkind] using hbig.mpr h
    · simpa [Node.isMarked, hkind] using mt hbig.mp h
  · have hfindings : (detect d content).detections = walk content.toList [tree] := by
      rw [detect, htree]
    -- The walk visits node by node, so both sides are compared at one node.
    rw [hfindings, walk_eq_preorder, Node.preorderList_singleton, List.filter_flatMap,
      ← List.filterMap_eq_map, List.filterMap_filter, List.filterMap_eq_flatMap_toList]
    refine List.flatMap_congr fun n hn => ?_
    by_cases hkind : n.kind = .number
    · rw [visit_number hkind (htokens n hn hkind)]
      split <;> rfl
    · rw [filter_visit_of_ne_number hkind, if_neg (by simp [Node.isMarked, hkind])]
      rfl

/-- Of the two numbers of a sum, with an `n` in the name beside them, one is a big integer. -/
theorem bigints_shown_by_mark_of_sum :
    Number.isBigInt "0xE_Fn".toList = true
    ∧ Number.BigInteger "0xE_Fn".toList
    ∧ ∃ tree, parse? .javascript "0xE_Fn + 1e3 + n".toList = some tree
      ∧ (tree.preorder.filter (·.isMarked "0xE_Fn + 1e3 + n".toList)).map
          (·.text "0xE_Fn + 1e3 + n".toList) = ["0xE_Fn"] := by
  obtain ⟨htoken, hmark, hscript⟩ := bigints_shown_by_mark
  obtain ⟨htest, hbig⟩ := hmark "0xE_Fn".toList ((htoken _).mp (by decide))
  have hlast : "0xE_Fn".toList.getLast? = some 'n' := by decide
  have hsome : (parse? .javascript "0xE_Fn + 1e3 + n".toList).isSome = true := by decide +kernel
  obtain ⟨tree, htree⟩ := Option.isSome_iff_exists.mp hsome
  have hvalues : ((detect .javascript "0xE_Fn + 1e3 + n").detections.filter
      (·.featureId == "bigint")).map (·.value) = ["0xE_Fn"] := by decide +kernel
  rw [(hscript _ _ _ htree).2, List.map_map] at hvalues
  exact ⟨htest.mpr hlast, hbig.mp hlast, tree, htree, hvalues⟩

end WebAudit.Script
