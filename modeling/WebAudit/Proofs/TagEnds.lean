import WebAudit.Markup.Detect
import WebAudit.Proofs.LowerCase
import WebAudit.Proofs.Positions

/-!
# Where start tags end

The end of a start tag is found twice. `StartTag.read` goes through the attributes, and a quotation mark
counts for it only at the start of a value. `tagLength?`, which tells where the content starts, knows no
attributes: for it every quotation mark opens a stretch that runs to the next one of its kind. The two
agree where what stands inside the tag is `Balanced`, and nowhere else.

* `unquotedCloseLength?_eq_some_iff`: the search for the end, by what is balanced before it;
* `Neat.balanced`: attributes with quotation marks only around their values are balanced;
* `tagLength?_of_letters`: the name of the tag makes no difference to the search;
* `of_mem_elementsFrom?`: elements stand behind start tags;
* `content_starts_behind_balanced_tags`: where the content of an element is said to start.
-/

namespace WebAudit.Markup

open scoped List

/-! ## Balanced quotes -/

/-- A quotation mark. -/
def isQuote (c : Char) : Bool :=
  c == '"' || c == '\''

/-- Neither a quotation mark nor the end of a tag. -/
def isPlain (c : Char) : Bool :=
  c != '>' && !isQuote c

/-- Plain characters and stretches between two equal quotation marks, of whatever characters. -/
inductive Balanced : List Char → Prop where
  | nil : Balanced []
  | plain {c : Char} {r : List Char} (hc : isPlain c = true) (h : Balanced r) : Balanced (c :: r)
  | quoted {q : Char} {v r : List Char} (hq : isQuote q = true) (hv : q ∉ v) (h : Balanced r) :
      Balanced (q :: (v ++ q :: r))

theorem Balanced.append {s t : List Char} (hs : Balanced s) (ht : Balanced t) : Balanced (s ++ t) := by
  induction hs with
  | nil => exact ht
  | plain hc _ ih => exact .plain hc ih
  | quoted hq hv _ ih =>
    rw [List.cons_append, List.append_assoc]
    exact .quoted hq hv ih

theorem balanced_of_plain {s : List Char} (h : ∀ c ∈ s, isPlain c = true) : Balanced s := by
  induction s with
  | nil => exact .nil
  | cons c s ih =>
    obtain ⟨hc, hs⟩ := List.forall_mem_cons.mp h
    exact .plain hc (ih hs)

theorem ne_of_isPlain {c : Char} (h : isPlain c = true) : c ≠ '>' := by
  rintro rfl
  cases h

theorem ne_of_isQuote {q : Char} (h : isQuote q = true) : q ≠ '>' := by
  rintro rfl
  cases h

theorem unquotedCloseLength?_plain {c : Char} (hc : isPlain c = true) (r : List Char) :
    unquotedCloseLength? (c :: r) = (unquotedCloseLength? r).map (· + 1) := by
  have hquote : ¬ (c == '"' || c == '\'') = true := by
    rw [isPlain, Bool.and_eq_true] at hc
    simpa [isQuote] using hc.2
  rw [unquotedCloseLength?, if_neg hquote]
  exact ne_of_isPlain hc

theorem length_takeWhile_ne {q : Char} {v : List Char} (hv : q ∉ v) (r : List Char) :
    ((v ++ q :: r).takeWhile (· != q)).length = v.length := by
  rw [List.takeWhile_append_of_pos, List.takeWhile_cons_of_neg (by simp), List.append_nil]
  intro c hc
  have hne : c ≠ q := fun h => hv (h ▸ hc)
  simpa using hne

theorem unquotedCloseLength?_quoted {q : Char} {v : List Char} (hq : isQuote q = true) (hv : q ∉ v)
    (r : List Char) :
    unquotedCloseLength? (q :: (v ++ q :: r)) = (unquotedCloseLength? r).map (· + (v.length + 2)) := by
  have hquote : (q == '"' || q == '\'') = true := hq
  have hlength := length_takeWhile_ne hv r
  rw [unquotedCloseLength?, if_pos hquote]
  · dsimp only
    rw [hlength, if_pos (by simp), List.drop_append, List.drop_eq_nil_of_le (by omega)]
    simp
  · exact ne_of_isQuote hq

/-- A quotation mark that comes again ends a stretch. -/
theorem exists_eq_append_of_lt {q : Char} {r : List Char}
    (h : (r.takeWhile (· != q)).length < r.length) :
    ∃ rest, r = r.takeWhile (· != q) ++ q :: rest ∧ q ∉ r.takeWhile (· != q) := by
  have hsplit := List.takeWhile_append_dropWhile (p := (· != q)) (l := r)
  have hv : q ∉ r.takeWhile (· != q) := by
    intro hmem
    have hne := List.all_eq_true.mp (List.all_takeWhile (p := (· != q)) (l := r)) q hmem
    simp at hne
  cases hrest : r.dropWhile (· != q) with
  | nil =>
    rw [hrest, List.append_nil] at hsplit
    rw [hsplit] at h
    exact absurd h (Nat.lt_irrefl _)
  | cons c rest =>
    have hc := List.head?_dropWhile_not (· != q) r
    rw [hrest] at hc
    obtain rfl : c = q := by simpa using hc
    exact ⟨rest, by rw [← hrest, hsplit], hv⟩

/-- **The search for the end of a tag succeeds where the text before it is balanced, and only there.** -/
theorem unquotedCloseLength?_eq_some_iff {cs : List Char} {n : Nat} :
    unquotedCloseLength? cs = some n
      ↔ ∃ s rest, Balanced s ∧ cs = s ++ '>' :: rest ∧ n = s.length + 1 := by
  constructor
  · intro h
    fun_induction unquotedCloseLength? cs generalizing n with
    | case1 => cases h
    | case2 r =>
      cases h
      exact ⟨[], r, .nil, rfl, rfl⟩
    | case3 c r hc hquote k hk =>
      rename_i ih
      obtain ⟨m, hm, rfl⟩ := Option.map_eq_some_iff.mp h
      obtain ⟨s, rest, hs, hrest, rfl⟩ := ih hm
      obtain ⟨after, hsplit, hv⟩ := exists_eq_append_of_lt hk
      have hdrop : r.drop (k + 1) = after := by
        conv => lhs; rw [hsplit]
        rw [List.drop_append, List.drop_eq_nil_of_le (Nat.le_succ k)]
        simp [k]
      refine ⟨c :: (r.takeWhile (· != c) ++ c :: s), rest, .quoted hquote hv hs, ?_, ?_⟩
      · rw [List.cons_append, List.append_assoc, List.cons_append, ← hrest, hdrop, ← hsplit]
      · simp [k]
        omega
    | case4 => cases h
    | case5 c r hc hquote ih =>
      obtain ⟨m, hm, rfl⟩ := Option.map_eq_some_iff.mp h
      obtain ⟨s, rest, hs, rfl, rfl⟩ := ih hm
      have hplain : isPlain c = true := by
        simpa [isPlain, isQuote] using And.intro hc hquote
      exact ⟨c :: s, rest, .plain hplain hs, rfl, rfl⟩
  · rintro ⟨s, rest, hs, rfl, rfl⟩
    induction hs with
    | nil => rw [List.nil_append, unquotedCloseLength?]; rfl
    | plain hc _ ih => rw [List.cons_append, unquotedCloseLength?_plain hc, ih]; rfl
    | quoted hq hv _ ih =>
      rw [List.cons_append, List.append_assoc, List.cons_append, unquotedCloseLength?_quoted hq hv, ih]
      simp
      omega

theorem balanced_iff {s : List Char} :
    Balanced s ↔ unquotedCloseLength? (s ++ ['>']) = some (s.length + 1) := by
  rw [unquotedCloseLength?_eq_some_iff]
  constructor
  · intro h
    exact ⟨s, [], h, rfl, rfl⟩
  · rintro ⟨s', rest, hs', htext, hlength⟩
    obtain rfl := (List.append_inj htext (Nat.succ.inj hlength)).1
    exact hs'

instance (s : List Char) : Decidable (Balanced s) :=
  decidable_of_iff _ balanced_iff.symm

/-! ## Attributes -/

theorem isPlain_of_isBlank {c : Char} (h : Text.isBlank c = true) : isPlain c = true := by
  have hne (d : Char) (hd : Text.isBlank d = false) : c ≠ d := by
    rintro rfl
    rw [h] at hd
    cases hd
  simp [isPlain, isQuote, hne '>' (by decide), hne '"' (by decide), hne '\'' (by decide)]

theorem isPlain_of_ne {c : Char} (hc : c ≠ '>') (hquote : isQuote c = false) : isPlain c = true := by
  simp [isPlain, hc, hquote]

/-- Between attributes stand blanks and slashes. -/
theorem isPlain_of_mem_gap {cs : List Char} {c : Char} (h : c ∈ cs.take (gapLength cs)) :
    isPlain c = true := by
  fun_induction gapLength cs with
  | case1 => simp at h
  | case2 r hr => simp at h
  | case3 r hr ih =>
    rcases List.mem_cons.mp h with rfl | h
    · decide
    · exact ih h
  | case4 d r hd hblank ih =>
    rcases List.mem_cons.mp h with rfl | h
    · exact isPlain_of_isBlank hblank
    · exact ih h
  | case5 d r hd hblank => simp at h

theorem take_length_takeWhile (p : Char → Bool) (cs : List Char) :
    cs.take (cs.takeWhile p).length = cs.takeWhile p :=
  (List.prefix_iff_eq_take.mp (List.takeWhile_prefix p)).symm

theorem of_mem_takeWhile {p : Char → Bool} {cs : List Char} {c : Char} (h : c ∈ cs.takeWhile p) :
    p c = true :=
  List.all_eq_true.mp List.all_takeWhile c h

theorem close_notMem_name (cs : List Char) : '>' ∉ cs.take (attributeNameLength cs) := by
  cases cs with
  | nil => simp
  | cons c r =>
    rw [attributeNameLength]
    split
    · simp
    next hc =>
      rw [Nat.add_comm, List.take_succ_cons, take_length_takeWhile, List.mem_cons]
      rintro (rfl | h)
      · exact hc (by decide)
      · have hpart := of_mem_takeWhile h
        exact absurd hpart (by decide)

/-- A value is written between quotation marks, after blanks and equals signs. -/
def InQuotes (part value : List Char) : Prop :=
  ∃ signs q, part = signs ++ q :: (value ++ [q])
    ∧ (∀ c ∈ signs, Text.isBlank c = true ∨ c = '=') ∧ isQuote q = true ∧ q ∉ value

theorem isPlain_of_isSign {c : Char} (h : Text.isBlank c = true ∨ c = '=') : isPlain c = true := by
  rcases h with h | rfl
  · exact isPlain_of_isBlank h
  · decide

theorem InQuotes.balanced {part value : List Char} (h : InQuotes part value) : Balanced part := by
  obtain ⟨signs, q, rfl, hsigns, hq, hvalue⟩ := h
  refine (balanced_of_plain fun c hc => isPlain_of_isSign (hsigns c hc)).append ?_
  exact .quoted hq hvalue .nil

theorem quotedValue?_eq_some {q : Char} {r v : List Char} (h : quotedValue? q r = some v) :
    q ∉ v ∧ ∃ rest, r = v ++ q :: rest := by
  rw [quotedValue?] at h
  split at h
  next hlt =>
    cases h
    obtain ⟨rest, hrest, hv⟩ := exists_eq_append_of_lt hlt
    exact ⟨hv, rest, hrest⟩
  next => cases h

/-- Signs, the blanks before them and the blanks after them. -/
theorem isSign_of_mem_take {cs : List Char} {c : Char} :
    let before := (cs.takeWhile Text.isBlank).length
    let signs := ((cs.drop before).takeWhile (· == '=')).length
    let blanks := ((cs.drop (before + signs)).takeWhile Text.isBlank).length
    c ∈ cs.take (before + signs + blanks) → Text.isBlank c = true ∨ c = '=' := by
  intro before signs blanks h
  rw [List.take_add, List.take_add, take_length_takeWhile, take_length_takeWhile,
    take_length_takeWhile] at h
  rcases List.mem_append.mp h with h | h
  · rcases List.mem_append.mp h with h | h
    · exact .inl (of_mem_takeWhile h)
    · exact .inr (by simpa using of_mem_takeWhile h)
  · exact .inl (of_mem_takeWhile h)

theorem close_notMem_bareValue (cs : List Char) : '>' ∉ bareValue cs := by
  intro h
  have hpart := of_mem_takeWhile h
  exact absurd hpart (by decide)

/-- A value without quotation marks around it has no end of a tag in it. -/
theorem inQuotes_or_notMem {cs v : List Char} {k : Nat} (h : value? cs = some (v, k)) :
    InQuotes (cs.take k) v ∨ '>' ∉ cs.take k := by
  unfold value? at h
  extract_lets before signs blanks start at h
  have hsum : start = before + signs + blanks := rfl
  have hsigns (c : Char) (hc : c ∈ cs.take start) : Text.isBlank c = true ∨ c = '=' :=
    isSign_of_mem_take hc
  have hstart : '>' ∉ cs.take start := fun hmem => by
    have hsign := hsigns '>' hmem
    exact absurd hsign (by decide)
  clear_value before signs blanks start
  have hbare {d : Char} {r : List Char} (hdrop : cs.drop start = d :: r) :
      '>' ∉ cs.take (start + (bareValue (d :: r)).length) := by
    rw [List.take_add, hdrop, bareValue, take_length_takeWhile, List.mem_append, not_or]
    exact ⟨hstart, close_notMem_bareValue _⟩
  split at h
  · cases h
  next hsign =>
    split at h
    next d r hdrop =>
      split at h
      next hquote =>
        split at h
        next w hw =>
          cases h
          obtain ⟨hv, rest, rfl⟩ := quotedValue?_eq_some hw
          have hq : isQuote d = true := by rwa [isQuote, Bool.or_comm]
          refine .inl ⟨cs.take start, d, ?_, hsigns, hq, hv⟩
          rw [Nat.add_assoc, List.take_add, hdrop, List.take_succ_cons, List.take_length_add_append]
          rfl
        next =>
          split at h
          · cases h
            exact .inr fun hmem => hstart (List.take_subset_take_left cs (Nat.sub_le start 1) hmem)
          next =>
            split at h
            next hmany =>
              -- the value takes the last of the equals signs
              cases h
              have hlength : (bareValue ('=' :: d :: r)).length = (bareValue (d :: r)).length + 1 := by
                rw [bareValue, List.takeWhile_cons_of_pos (by decide)]
                rfl
              have hend : start - 1 + ((bareValue (d :: r)).length + 1)
                  = start + (bareValue (d :: r)).length := by
                omega
              rw [hlength, hend]
              exact .inr (hbare hdrop)
            next => cases h
      next =>
        cases h
        exact .inr (hbare hdrop)
    next =>
      cases h
      exact .inr hstart

/-! ## Neat tags -/

/-- The attribute at the start of a text has quotation marks only around its value: none in its name, and
none in a value that is written without them. -/
def NeatAttribute (cs : List Char) : Prop :=
  let n := attributeNameLength cs
  (∀ c ∈ cs.take n, isQuote c = false)
    ∧ ∀ v k, value? (cs.drop n) = some (v, k) →
      InQuotes ((cs.drop n).take k) v ∨ ∀ c ∈ (cs.drop n).take k, isQuote c = false

/-- All attributes read from a text are so. -/
inductive Neat : Char → List Char → Prop where
  | none {before : Char} {cs : List Char} (h : attribute? before cs = none) : Neat before cs
  | cons {before : Char} {cs : List Char} {a : Attribute} {n : Nat}
      (h : attribute? before cs = some (a, n)) (hneat : NeatAttribute cs)
      (hrest : Neat ((cs.take n).getLastD before) (cs.drop n)) : Neat before cs

theorem NeatAttribute.balanced_value {cs : List Char} (h : NeatAttribute cs) :
    let n := attributeNameLength cs
    Balanced ((cs.drop n).take ((value? (cs.drop n)).getD ([], 0)).2) := by
  intro n
  cases hvalue : value? (cs.drop n) with
  | none => exact .nil
  | some x =>
    obtain ⟨v, k⟩ := x
    rcases h.2 v k hvalue with hquotes | hplain
    · exact hquotes.balanced
    · rcases inQuotes_or_notMem hvalue with hquotes | hclose
      · exact hquotes.balanced
      · refine balanced_of_plain fun c hc => isPlain_of_ne ?_ (hplain c hc)
        rintro rfl
        exact hclose hc

/-- A neat attribute and the gap after it are balanced. -/
theorem NeatAttribute.balanced {before : Char} {cs : List Char} {a : Attribute} {n : Nat}
    (h : NeatAttribute cs) (ha : attribute? before cs = some (a, n)) : Balanced (cs.take n) := by
  have hvalue := h.balanced_value
  unfold attribute? at ha
  extract_lets m name at ha
  split at ha
  · cases ha
    have hname : Balanced (cs.take m) := by
      refine balanced_of_plain fun c hc => isPlain_of_ne ?_ (h.1 c hc)
      rintro rfl
      exact close_notMem_name cs hc
    rw [List.take_add, List.take_add]
    exact (hname.append hvalue).append (balanced_of_plain fun c hc => isPlain_of_mem_gap hc)
  · cases ha

/-- **Neat attributes are balanced.** -/
theorem Neat.balanced {before : Char} {cs : List Char} (h : Neat before cs) :
    Balanced (cs.take (readAttributes before cs).2) := by
  induction h with
  | none h =>
    rw [readAttributes, h]
    exact .nil
  | cons h hneat _ ih =>
    rw [readAttributes, h]
    dsimp only
    split
    · rw [List.take_add]
      exact (hneat.balanced h).append ih
    · exact hneat.balanced h

/-! ## Names of raw text elements -/

theorem toNat_of_isLetter {c : Char} (h : isLetter c = true) :
    97 ≤ c.toNat ∧ c.toNat ≤ 122 ∨ 65 ≤ c.toNat ∧ c.toNat ≤ 90 := by
  simpa [isLetter, Char.le_def, UInt32.le_iff_toNat_le] using h

theorem isLetter_of_asciiLower {c : Char} (h : isLetter (Text.asciiLower c) = true) :
    isLetter c = true := by
  rw [Text.asciiLower] at h
  split at h
  next hc => rw [isLetter, hc, Bool.or_true]
  next => exact h

theorem not_isBlank_of_isLetter {c : Char} (h : isLetter c = true) : Text.isBlank c = false := by
  have hc := toNat_of_isLetter h
  rw [← Bool.not_eq_true]
  simp only [Text.isBlank, Bool.or_eq_true, Bool.and_eq_true, decide_eq_true_eq, beq_iff_eq]
  omega

theorem ne_of_isLetter {c d : Char} (h : isLetter c = true) (hd : isLetter d = false) : c ≠ d := by
  rintro rfl
  rw [h] at hd
  cases hd

theorem isPlain_of_isLetter {c : Char} (h : isLetter c = true) : isPlain c = true := by
  simp [isPlain, isQuote, ne_of_isLetter h (d := '>') (by decide),
    ne_of_isLetter h (d := '"') (by decide), ne_of_isLetter h (d := '\'') (by decide)]

/-- The name of a raw text element is written in letters. -/
theorem isLetter_of_isRaw {name : List Char} (h : isRaw (Text.lower (String.ofList name)) = true) :
    name ≠ [] ∧ ∀ c ∈ name, isLetter c = true := by
  have letters (low : List Char) (hlow : Text.lowerFrom [] name = low)
      (hall : low.all (fun d => d.toNat < 0x80 && d != 'k' && isLetter d) = true) :
      ∀ c ∈ name, isLetter c = true := by
    have hall (d : Char) (hd : d ∈ low) : (d.toNat < 0x80 ∧ d ≠ 'k') ∧ isLetter d = true := by
      simpa using List.all_eq_true.mp hall d hd
    have hmap := Text.lowerFrom_eq_map fun d hd => (hall d (hlow ▸ hd)).1
    intro c hc
    refine isLetter_of_asciiLower (hall _ ?_).2
    rw [← hlow, hmap]
    exact List.mem_map_of_mem hc
  have hlower : Text.lower (String.ofList name) = String.ofList (Text.lowerFrom [] name) := by
    rw [Text.lower, String.toList_ofList]
  have hne : name ≠ [] := by
    rintro rfl
    exact absurd h (by decide)
  rw [isRaw, hlower, Bool.or_eq_true, beq_iff_eq, beq_iff_eq] at h
  refine ⟨hne, ?_⟩
  rcases h with h | h
  · exact letters "script".toList (by rw [← h, String.toList_ofList]) (by decide)
  · exact letters "style".toList (by rw [← h, String.toList_ofList]) (by decide)

/-! ## Both ends -/

/-- The text after a `<` has neat attributes behind the name of the tag. -/
def NeatTag (cs : List Char) : Prop :=
  let name := cs.takeWhile isTagNamePart
  let start := name.length + gapLength (cs.drop name.length)
  Neat ((cs.take start).getLastD '<') (cs.drop start)

/-- A start tag, without its `<`, by its parts: the name, what stands after it, and the end. -/
structure Parts (cs : List Char) (n : Nat) (inside rest : List Char) : Prop where
  text_eq : cs = cs.takeWhile isTagNamePart ++ (inside ++ '>' :: rest)
  length_eq : n = (cs.takeWhile isTagNamePart).length + inside.length + 2

theorem Parts.inside_eq {cs inside rest : List Char} {n : Nat} (h : Parts cs n inside rest) :
    inside = (cs.drop (cs.takeWhile isTagNamePart).length).take
      (n - (cs.takeWhile isTagNamePart).length - 2) := by
  obtain ⟨htext, hlength⟩ := h
  generalize cs.takeWhile isTagNamePart = name at *
  have hn : n - name.length - 2 = inside.length := by omega
  rw [hn, htext, List.drop_left, List.take_left]

theorem eq_take_append {cs r : List Char} {m : Nat} (h : cs.drop m = r) (hr : r ≠ []) :
    cs = cs.take m ++ r ∧ (cs.take m).length = m := by
  have hlt : m < cs.length := by
    rw [← h] at hr
    exact Nat.lt_of_not_le fun hle => hr (List.drop_eq_nil_of_le hle)
  refine ⟨by rw [← h, List.take_append_drop], ?_⟩
  rw [List.length_take]
  omega

theorem exists_parts {cs : List Char} {t : StartTag} {n : Nat} (h : StartTag.read cs = .tag t n) :
    t.name = Text.lower (String.ofList (cs.takeWhile isTagNamePart))
      ∧ ∃ inside rest, Parts cs n inside rest ∧ (NeatTag cs → Balanced inside) := by
  unfold StartTag.read at h
  extract_lets name start at h
  split at h
  next as k hattributes =>
    have hgap : Balanced ((cs.drop name.length).take (gapLength (cs.drop name.length))) :=
      balanced_of_plain fun c hc => isPlain_of_mem_gap hc
    have hneat (hneat : NeatTag cs) : Balanced ((cs.drop start).take k) := by
      have hbalanced := Neat.balanced hneat
      rwa [hattributes] at hbalanced
    have htake : cs.take (start + k)
        = name ++ ((cs.drop name.length).take (gapLength (cs.drop name.length))
          ++ (cs.drop start).take k) := by
      rw [List.take_add, List.take_add, take_length_takeWhile, List.append_assoc]
    split at h
    next rest hdrop =>
      cases h
      obtain ⟨htext, hlength⟩ := eq_take_append hdrop (List.cons_ne_nil _ _)
      rw [htake, List.append_assoc] at htext
      rw [htake, List.length_append] at hlength
      exact ⟨rfl, _, rest, ⟨htext, by rw [← hlength]⟩, fun hn => hgap.append (hneat hn)⟩
    next rest hdrop =>
      cases h
      obtain ⟨htext, hlength⟩ := eq_take_append hdrop (List.cons_ne_nil _ _)
      rw [htake, List.append_assoc, List.append_cons _ '/'] at htext
      rw [htake, List.length_append] at hlength
      refine ⟨rfl, _, rest, ⟨htext, ?_⟩, fun hn => (hgap.append (hneat hn)).append ?_⟩
      · have hslash (s : List Char) : (s ++ ['/']).length = s.length + 1 := List.length_append
        rw [hslash, ← hlength]
        rfl
      · exact .plain (by decide) .nil
    next => cases h
    next =>
      split at h
      · cases h
      · cases h

/-- A character at which both readings end the name of a tag. -/
def endsName (c : Char) : Bool :=
  Text.isBlank c || c == '>' || c == '/'

theorem readAttributes_of_isLetter {before : Char} (h : isLetter before = true) (cs : List Char) :
    readAttributes before cs = ([], 0) := by
  have hbefore : isBeforeAttribute before = false := by
    simp [isBeforeAttribute, not_isBlank_of_isLetter h, ne_of_isLetter h (d := '\'') (by decide),
      ne_of_isLetter h (d := '"') (by decide), ne_of_isLetter h (d := '/') (by decide)]
  rw [readAttributes, attribute?, hbefore]
  rfl

theorem endsName_of_gap {cs : List Char} (h : 0 < gapLength cs) :
    ∃ c r, cs = c :: r ∧ endsName c = true := by
  fun_induction gapLength cs with
  | case1 => cases h
  | case2 r hr => cases h
  | case3 r hr => exact ⟨'/', r, rfl, by decide⟩
  | case4 c r hc hblank => exact ⟨c, r, rfl, by rw [endsName, hblank]; rfl⟩
  | case5 => cases h

/-- A tag named in letters has a blank, a slash or its end after the name: after a null character, which
ends the name too, no attribute can start. -/
theorem endsName_after_letters {cs : List Char} {t : StartTag} {n : Nat}
    (h : StartTag.read cs = .tag t n) (hne : cs.takeWhile isTagNamePart ≠ [])
    (hletters : ∀ c ∈ cs.takeWhile isTagNamePart, isLetter c = true) :
    ∃ c r, cs.drop (cs.takeWhile isTagNamePart).length = c :: r ∧ endsName c = true := by
  rcases Nat.eq_zero_or_pos (gapLength (cs.drop (cs.takeWhile isTagNamePart).length)) with hgap | hgap
  · have hbefore : isLetter ((cs.take (cs.takeWhile isTagNamePart).length).getLastD '<') = true := by
      rw [take_length_takeWhile, List.getLastD_eq_getLast?, List.getLast?_eq_some_getLast hne]
      exact hletters _ (List.getLast_mem hne)
    unfold StartTag.read at h
    extract_lets name start at h
    have hstart : start = name.length := by rw [show start = name.length + _ from rfl, hgap]; rfl
    rw [hstart, readAttributes_of_isLetter hbefore] at h
    dsimp only at h
    split at h
    next r hdrop => exact ⟨'>', r, hdrop, by decide⟩
    next r hdrop => exact ⟨'/', _, hdrop, by decide⟩
    next => cases h
    next =>
      split at h
      · cases h
      · cases h
  · exact endsName_of_gap hgap

/-! ## The length of a tag -/

theorem unquotedCloseLength?_append {s : List Char} (hs : ∀ c ∈ s, isPlain c = true) (r : List Char) :
    unquotedCloseLength? (s ++ r) = (unquotedCloseLength? r).map (· + s.length) := by
  induction s with
  | nil => simp
  | cons c s ih =>
    obtain ⟨hc, hs⟩ := List.forall_mem_cons.mp hs
    rw [List.cons_append, unquotedCloseLength?_plain hc, ih hs, Option.map_map]
    rfl

theorem tagLengthWithin?_eq_none {r : List Char} {m : Nat}
    (h : ∀ j ≤ m, unquotedCloseLength? (r.drop j) = none) : tagLengthWithin? r m = none := by
  induction m with
  | zero => rfl
  | succ m ih =>
    rw [tagLengthWithin?, h (m + 1) (Nat.le_refl _)]
    exact ih fun j hj => h j (Nat.le_succ_of_le hj)

/-- A shorter name gives no other end. -/
theorem tagLengthWithin?_of_plain {name : List Char} (hne : name ≠ [])
    (hname : ∀ c ∈ name, isPlain c = true) (r : List Char) :
    tagLengthWithin? (name ++ r) name.length = (unquotedCloseLength? r).map (· + name.length) := by
  cases hclose : unquotedCloseLength? r with
  | none =>
    refine tagLengthWithin?_eq_none fun j hj => ?_
    rw [List.drop_append_of_le_length hj,
      unquotedCloseLength?_append fun c hc => hname c (List.mem_of_mem_drop hc), hclose]
    rfl
  | some k =>
    obtain ⟨m, hm⟩ := Nat.exists_eq_add_one.mpr (List.length_pos_iff.mpr hne)
    have hdrop : (name ++ r).drop (m + 1) = r := by
      rw [← hm, List.drop_left]
    rw [hm, tagLengthWithin?, hdrop, hclose, Option.map_some, Nat.add_comm k]

theorem tagLength?_of_letters {name : List Char} (hne : name ≠ [])
    (hname : ∀ c ∈ name, isLetter c = true) {c : Char} (hc : endsName c = true) (r : List Char) :
    tagLength? ('<' :: (name ++ c :: r))
      = (unquotedCloseLength? (c :: r)).map (· + (name.length + 1)) := by
  have htake : (name ++ c :: r).takeWhile (fun c => !endsName c) = name := by
    rw [List.takeWhile_append_of_pos, List.takeWhile_cons_of_neg (by rw [hc]; decide), List.append_nil]
    intro d hd
    have hletter := hname d hd
    simp [endsName, not_isBlank_of_isLetter hletter, ne_of_isLetter hletter (d := '>') (by decide),
      ne_of_isLetter hletter (d := '/') (by decide)]
  have hlength : tagLength? ('<' :: (name ++ c :: r))
      = (tagLengthWithin? (name ++ c :: r)
        ((name ++ c :: r).takeWhile fun c => !endsName c).length).map (· + 1) := rfl
  rw [hlength, htake, tagLengthWithin?_of_plain hne fun d hd => isPlain_of_isLetter (hname d hd),
    Option.map_map]
  rfl

/-! ## Elements of a document -/

/-- A start tag begins at an offset, and its reading ends `n` characters later. -/
def TagAt (text : List Char) (start : Nat) (t : StartTag) (n : Nat) : Prop :=
  ∃ r, text.drop start = '<' :: r ∧ construct r = .tag t n

theorem upTo_ne_tag (start : Nat) (o : Option Nat) (t : StartTag) (n : Nat) :
    upTo start o ≠ .tag t n := by
  intro h
  cases o <;> cases h

theorem markedSection_ne_tag (r : List Char) (t : StartTag) (n : Nat) : markedSection r ≠ .tag t n := by
  intro h
  unfold markedSection at h
  extract_lets at h
  repeat' split at h
  all_goals first | exact upTo_ne_tag _ _ t n h | cases h

theorem read_of_construct {r : List Char} {t : StartTag} {n : Nat} (h : construct r = .tag t n) :
    StartTag.read r = .tag t n := by
  unfold construct at h
  split at h
  · exact absurd h (upTo_ne_tag _ _ t n)
  · exact absurd h (upTo_ne_tag _ _ t n)
  · exact absurd h (upTo_ne_tag _ _ t n)
  · exact absurd h (markedSection_ne_tag _ t n)
  · exact absurd h (upTo_ne_tag _ _ t n)
  next =>
    split at h
    next =>
      split at h
      next hread =>
        cases h
        exact hread
      next => cases h
      next => cases h
    next => cases h
  next => cases h

theorem construct_of_read {c : Char} (hc : isLetter c = true) {r : List Char} {t : StartTag} {n : Nat}
    (h : StartTag.read (c :: r) = .tag t n) : construct (c :: r) = .tag t n := by
  unfold construct
  split
  next heq => cases heq; cases hc
  next heq => cases heq; cases hc
  next heq => cases heq; cases hc
  next heq => cases heq; cases hc
  next heq => cases heq; cases hc
  next heq =>
    cases heq
    rw [if_pos hc, h]
  next heq => cases heq

theorem drop_of_cons {text r : List Char} {c : Char} {offset : Nat} (h : text.drop offset = c :: r)
    (k : Nat) : text.drop (offset + k + 1) = r.drop k := by
  rw [Nat.add_assoc, ← List.drop_drop, h, List.drop_succ_cons]

/-- **Every element that is found has its start tag at its offset and its content right after it.** -/
theorem of_mem_elementsFrom? {text : List Char} {last : Bool} {offset : Nat} {cs : List Char}
    {es : List Element} (hcs : text.drop offset = cs) (h : elementsFrom? last offset cs = some es)
    {e : Element} (he : e ∈ es) :
    isRaw e.tag.name = true
      ∧ ∃ n, TagAt text e.start e.tag n ∧ e.content <+: text.drop (e.start + n) := by
  fun_induction elementsFrom? last offset cs generalizing es
  case case1 | case6 | case11 => cases h; cases he
  case case2 => cases h
  case case3 n ih | case8 n _ ih => exact ih (drop_of_cons hcs n) h he
  case case4 ih => exact ih hcs h he
  case case5 n _ ih => exact ih (drop_of_cons hcs (n - 1)) h he
  case case7 last offset r t n hconstruct n' hraw body k m hend ih =>
    obtain ⟨es', hes', rfl⟩ := Option.map_eq_some_iff.mp h
    have hbody : text.drop (offset + n' + 1) = body := drop_of_cons hcs n'
    rcases List.mem_cons.mp he with rfl | he
    · obtain ⟨_, inside, rest, hparts, _⟩ := exists_parts (read_of_construct hconstruct)
      have hn : offset + n = offset + n' + 1 := by
        have hlength := hparts.length_eq
        omega
      refine ⟨(Bool.and_eq_true_iff.mp hraw).1, n, ⟨r, hcs, hconstruct⟩, ?_⟩
      rw [hn, hbody]
      exact List.take_prefix k body
    · refine ih ?_ hes' he
      rw [Nat.add_assoc _ k, ← List.drop_drop, hbody]
  case case9 ih | case10 ih => exact ih (drop_of_cons hcs 1) h he
  case case12 ih => exact ih (drop_of_cons hcs 0) h he

/-! ## Where content starts -/

/-- The place found for the content is the right one just when the inside of the tag is balanced. -/
theorem contentStart?_eq_some_iff {text r inside rest : List Char} {start n : Nat} {t : StartTag}
    (hdrop : text.drop start = '<' :: r) (hread : StartTag.read r = .tag t n)
    (hraw : isRaw t.name = true) (hparts : Parts r n inside rest) :
    contentStart? text start = some (Text.position text (start + n)) ↔ Balanced inside := by
  have hname := (exists_parts hread).1
  rw [hname] at hraw
  obtain ⟨hne, hletters⟩ := isLetter_of_isRaw hraw
  obtain ⟨c, after, hafter, hc⟩ := endsName_after_letters hread hne hletters
  obtain ⟨htext, hlength⟩ := hparts
  generalize r.takeWhile isTagNamePart = name at *
  subst htext
  rw [List.drop_left] at hafter
  have hstart : contentStart? text start = (unquotedCloseLength? (inside ++ '>' :: rest)).map
      fun k => Text.position text (start + (k + (name.length + 1))) := by
    rw [contentStart?, hdrop, hafter, tagLength?_of_letters hne hletters hc after, Option.map_map]
    rfl
  have htotal := congrArg List.length hdrop
  simp only [List.length_drop, List.length_cons, List.length_append] at htotal
  rw [hstart]
  constructor
  · intro h
    obtain ⟨k, hk, hposition⟩ := Option.map_eq_some_iff.mp h
    obtain ⟨s, rest', hs, hsplit, rfl⟩ := unquotedCloseLength?_eq_some_iff.mp hk
    have hsum := congrArg List.length hsplit
    simp only [List.length_append, List.length_cons] at hsum
    have heq := Text.position_inj (by omega) (by omega) hposition
    obtain ⟨rfl, _⟩ := List.append_inj hsplit (by omega)
    exact hs
  · intro h
    rw [unquotedCloseLength?_eq_some_iff.mpr ⟨inside, rest, h, rfl, rfl⟩, Option.map_some, hlength]
    have hsum : start + (inside.length + 1 + (name.length + 1))
        = start + (name.length + inside.length + 2) := by omega
    rw [hsum]

/-- **Every script or style element that is found stands right behind a start tag, and the place given
for its content is the first one behind that tag just when the quotation marks inside the tag are
balanced. They are where no attribute has one in its name or in a value without quotation marks.** -/
theorem content_starts_behind_balanced_tags (text : List Char) :
    (∀ es : List Element, elements? text = some es → ∀ e ∈ es, isRaw e.tag.name = true
      ∧ ∃ n, TagAt text e.start e.tag n ∧ e.content <+: text.drop (e.start + n))
    ∧ ∀ (start n : Nat) (t : StartTag), TagAt text start t n → isRaw t.name = true →
      ∃ inside rest : List Char, Parts (text.drop (start + 1)) n inside rest
        ∧ (contentStart? text start = some (Text.position text (start + n)) ↔ Balanced inside)
        ∧ (NeatTag (text.drop (start + 1)) → Balanced inside) := by
  refine ⟨fun es hes e he => of_mem_elementsFrom? List.drop_zero hes he, ?_⟩
  rintro start n t ⟨r, hdrop, hconstruct⟩ hraw
  have hread := read_of_construct hconstruct
  obtain ⟨_, inside, rest, hparts, hneat⟩ := exists_parts hread
  rw [drop_of_cons hdrop 0]
  exact ⟨inside, rest, hparts, contentStart?_eq_some_iff hdrop hread hraw hparts, hneat⟩

/-- The end of a tag does not count inside a quoted value, and a quotation mark inside a value without
them hides it. -/
theorem content_starts_behind_balanced_tags_but_for_stray_quote :
    contentStart? "<style t=\"a>b\">c</style>".toList 0 = some ⟨1, 16⟩
      ∧ contentStart? "<script a=b\"c>x</script>".toList 0 ≠ some ⟨1, 15⟩ := by
  constructor
  · have htag : TagAt "<style t=\"a>b\">c</style>".toList 0 ⟨"style", [⟨"t", "a>b"⟩], false⟩ 15 :=
      ⟨"style t=\"a>b\">c</style>".toList, rfl, by decide +kernel⟩
    have hneat : NeatTag ("<style t=\"a>b\">c</style>".toList.drop 1) := by
      refine .cons (a := ⟨"t", "a>b"⟩) (n := 7) (by decide +kernel) ⟨?_, ?_⟩
        (.none (by decide +kernel))
      · intro c hc
        obtain rfl := List.mem_singleton.mp hc
        rfl
      · intro v k h
        have hvalue : value? "=\"a>b\">c</style>".toList = some ("a>b".toList, 6) := by decide +kernel
        obtain ⟨rfl, rfl⟩ := Prod.mk.inj (Option.some.inj (hvalue.symm.trans h))
        refine .inl ⟨['='], '"', rfl, ?_, rfl, by decide⟩
        intro c hc
        exact .inr (List.mem_singleton.mp hc)
    obtain ⟨inside, rest, -, hstart, hbalanced⟩ :=
      (content_starts_behind_balanced_tags _).2 0 15 _ htag (by decide)
    exact hstart.mpr (hbalanced hneat)
  · have htag : TagAt "<script a=b\"c>x</script>".toList 0 ⟨"script", [⟨"a", "b\"c"⟩], false⟩ 14 :=
      ⟨"script a=b\"c>x</script>".toList, rfl, by decide +kernel⟩
    obtain ⟨inside, rest, hparts, hstart, -⟩ :=
      (content_starts_behind_balanced_tags _).2 0 14 _ htag (by decide)
    have hstray : ¬ Balanced inside := by
      rw [hparts.inside_eq]
      decide +kernel
    exact fun h => hstray (hstart.mp h)

end WebAudit.Markup
