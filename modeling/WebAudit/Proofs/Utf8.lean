import WebAudit.Text.Utf8

/-!
# What strict reading accepts

Bytes are read as text if and only if they are the UTF-8 encoding of that text. One character is
settled first (`firstChar?_eq_some_iff`): its bytes are those of the encoding, and no other bytes are
read as it, neither a longer form nor a surrogate.
-/

namespace WebAudit.Text

/-! ## Parts of a character -/

theorem continuation?_eq_some_iff {b : UInt8} {x : Nat} :
    continuation? b = some x ↔ x < 64 ∧ b = UInt8.ofNat (x + 128) := by
  unfold continuation?
  simp only [UInt8.le_iff_toNat_le, Bool.and_eq_true, decide_eq_true_eq]
  constructor
  · intro h
    split at h
    · next hb =>
      obtain ⟨hlow, hhigh⟩ := hb
      simp only [UInt8.reduceToNat] at hlow hhigh
      obtain rfl := Option.some.inj h
      refine ⟨by omega, ?_⟩
      rw [show b.toNat - 128 + 128 = b.toNat by omega, UInt8.ofNat_toNat]
    · cases h
  · rintro ⟨hx, rfl⟩
    have hb : (UInt8.ofNat (x + 128)).toNat = x + 128 := by
      rw [UInt8.toNat_ofNat']
      omega
    rw [hb, if_pos]
    · simp
    · simp only [UInt8.reduceToNat]
      omega

theorem codePoint?_eq_some_iff {least n : Nat} {c : Char} :
    codePoint? least n = some c ↔ least ≤ n ∧ c.toNat = n := by
  unfold codePoint?
  simp only [Bool.and_eq_true, decide_eq_true_eq, Bool.not_eq_true', Bool.and_eq_false_iff,
    decide_eq_false_iff_not]
  constructor
  · intro h
    split at h
    · next hn =>
      obtain rfl := Option.some.inj h
      have hvalid : n.isValidChar := by
        unfold Nat.isValidChar
        omega
      exact ⟨hn.1.1, by rw [Char.ofNat, dif_pos hvalid]; rfl⟩
    · cases h
  · rintro ⟨hleast, rfl⟩
    have hvalid : c.toNat.isValidChar := c.valid
    unfold Nat.isValidChar at hvalid
    rw [if_pos (by omega), Char.ofNat_toNat]

/-! ## Characters -/

section

variable {a b c d : UInt8} {r : List UInt8} {x y z : Nat}

theorem firstChar?_one (h : a.toNat < 0x80) :
    firstChar? (a :: r) = some (Char.ofNat a.toNat, r) := by
  simp only [firstChar?, UInt8.lt_iff_toNat_lt, UInt8.reduceToNat]
  rw [if_pos h]

theorem firstChar?_two (h : 0xC0 ≤ a.toNat ∧ a.toNat < 0xE0) (hb : continuation? b = some x) :
    firstChar? (a :: b :: r)
      = (codePoint? 0x80 ((a.toNat - 0xC0) * 0x40 + x)).map (·, r) := by
  simp only [firstChar?, UInt8.lt_iff_toNat_lt, UInt8.le_iff_toNat_le, UInt8.reduceToNat,
    Bool.and_eq_true, decide_eq_true_eq]
  rw [if_neg (by omega), if_pos h, hb]
  rw [Option.map_eq_bind]
  rfl

theorem firstChar?_three (h : 0xE0 ≤ a.toNat ∧ a.toNat < 0xF0) (hb : continuation? b = some x)
    (hc : continuation? c = some y) :
    firstChar? (a :: b :: c :: r)
      = (codePoint? 0x800 (((a.toNat - 0xE0) * 0x40 + x) * 0x40 + y)).map (·, r) := by
  simp only [firstChar?, UInt8.lt_iff_toNat_lt, UInt8.le_iff_toNat_le, UInt8.reduceToNat,
    Bool.and_eq_true, decide_eq_true_eq]
  rw [if_neg (by omega), if_neg (by omega), if_pos h, hb, hc]
  rw [Option.map_eq_bind]
  rfl

theorem firstChar?_four (h : 0xF0 ≤ a.toNat ∧ a.toNat < 0xF8) (hb : continuation? b = some x)
    (hc : continuation? c = some y) (hd : continuation? d = some z) :
    firstChar? (a :: b :: c :: d :: r)
      = (codePoint? 0x10000
          ((((a.toNat - 0xF0) * 0x40 + x) * 0x40 + y) * 0x40 + z)).map (·, r) := by
  simp only [firstChar?, UInt8.lt_iff_toNat_lt, UInt8.le_iff_toNat_le, UInt8.reduceToNat,
    Bool.and_eq_true, decide_eq_true_eq]
  rw [if_neg (by omega), if_neg (by omega), if_neg (by omega), if_pos h, hb, hc, hd]
  rw [Option.map_eq_bind]
  rfl

end

section

variable {c : Char}

theorem utf8EncodeChar_one (h : c.toNat < 0x80) :
    String.utf8EncodeChar c = [UInt8.ofNat c.toNat] :=
  if_pos (Nat.le_of_lt_succ h)

theorem utf8EncodeChar_two (h : 0x80 ≤ c.toNat ∧ c.toNat < 0x800) :
    String.utf8EncodeChar c
      = [UInt8.ofNat (c.toNat / 64 % 32 + 192), UInt8.ofNat (c.toNat % 64 + 128)] :=
  (if_neg (Nat.not_le_of_lt h.1)).trans (if_pos (Nat.le_of_lt_succ h.2))

theorem utf8EncodeChar_three (h : 0x800 ≤ c.toNat ∧ c.toNat < 0x10000) :
    String.utf8EncodeChar c
      = [UInt8.ofNat (c.toNat / 4096 % 16 + 224), UInt8.ofNat (c.toNat / 64 % 64 + 128),
        UInt8.ofNat (c.toNat % 64 + 128)] :=
  (if_neg (Nat.not_le_of_lt (Nat.lt_of_lt_of_le (by decide) h.1))).trans <|
    (if_neg (Nat.not_le_of_lt h.1)).trans (if_pos (Nat.le_of_lt_succ h.2))

theorem utf8EncodeChar_four (h : 0x10000 ≤ c.toNat) :
    String.utf8EncodeChar c
      = [UInt8.ofNat (c.toNat / 262144 % 8 + 240), UInt8.ofNat (c.toNat / 4096 % 64 + 128),
        UInt8.ofNat (c.toNat / 64 % 64 + 128), UInt8.ofNat (c.toNat % 64 + 128)] :=
  (if_neg (Nat.not_le_of_lt (Nat.lt_of_lt_of_le (by decide) h))).trans <|
    (if_neg (Nat.not_le_of_lt (Nat.lt_of_lt_of_le (by decide) h))).trans
      (if_neg (Nat.not_le_of_lt h))

end

/-- The bytes of a character are read as that character, whatever follows them. -/
theorem firstChar?_utf8EncodeChar (c : Char) (r : List UInt8) :
    firstChar? (String.utf8EncodeChar c ++ r) = some (c, r) := by
  have htail : ∀ n, continuation? (UInt8.ofNat (n % 64 + 128)) = some (n % 64) :=
    fun n => continuation?_eq_some_iff.mpr ⟨by omega, rfl⟩
  have hlead : ∀ n, n < 256 → (UInt8.ofNat n).toNat = n := fun n hn => by
    rw [UInt8.toNat_ofNat']
    omega
  have hpoint : ∀ {least n}, n = c.toNat → least ≤ c.toNat →
      (codePoint? least n).map (·, r) = some (c, r) := by
    rintro least _ rfl h
    rw [codePoint?_eq_some_iff.mpr ⟨h, rfl⟩, Option.map_some]
  have hvalid : c.toNat.isValidChar := c.valid
  unfold Nat.isValidChar at hvalid
  -- the four lengths of an encoding
  rcases Nat.lt_or_ge c.toNat 0x80 with h | h₁
  · rw [utf8EncodeChar_one h, List.cons_append, List.nil_append,
      firstChar?_one (by rw [hlead _ (by omega)]; exact h), hlead _ (by omega), Char.ofNat_toNat]
  rcases Nat.lt_or_ge c.toNat 0x800 with h | h₂
  · have ha := hlead (c.toNat / 64 % 32 + 192) (by omega)
    rw [utf8EncodeChar_two ⟨h₁, h⟩]
    simp only [List.cons_append, List.nil_append]
    rw [firstChar?_two (by rw [ha]; omega) (htail _), ha]
    exact hpoint (by omega) (by omega)
  rcases Nat.lt_or_ge c.toNat 0x10000 with h | h₃
  · have ha := hlead (c.toNat / 4096 % 16 + 224) (by omega)
    rw [utf8EncodeChar_three ⟨h₂, h⟩]
    simp only [List.cons_append, List.nil_append]
    rw [firstChar?_three (by rw [ha]; omega) (htail _) (htail _), ha]
    exact hpoint (by omega) (by omega)
  · have ha := hlead (c.toNat / 262144 % 8 + 240) (by omega)
    rw [utf8EncodeChar_four h₃]
    simp only [List.cons_append, List.nil_append]
    rw [firstChar?_four (by rw [ha]; omega) (htail _) (htail _) (htail _), ha]
    exact hpoint (by omega) (by omega)

theorem toNat_ofNat_of_lt {n : Nat} (h : n < 0x80) : (Char.ofNat n).toNat = n := by
  have hpoint : codePoint? 0 n = some (Char.ofNat n) := by
    unfold codePoint?
    rw [if_pos]
    simp
    omega
  exact (codePoint?_eq_some_iff.mp hpoint).2

/-- What is read as a character is the encoding of it. -/
theorem eq_of_firstChar?_eq_some {bs r : List UInt8} {c : Char} (h : firstChar? bs = some (c, r)) :
    bs = String.utf8EncodeChar c ++ r := by
  have hbyte : ∀ {a : UInt8} {n : Nat}, a.toNat = n → a = UInt8.ofNat n := by
    rintro a _ rfl
    exact (UInt8.ofNat_toNat).symm
  unfold firstChar? at h
  simp only [UInt8.lt_iff_toNat_lt, UInt8.le_iff_toNat_le, UInt8.reduceToNat, Bool.and_eq_true,
    decide_eq_true_eq, Option.bind_eq_bind] at h
  split at h
  · cases h
  -- the first byte tells the length, and the least code point rules out longer forms
  split at h
  · next a r' ha =>
    obtain ⟨rfl, rfl⟩ := Prod.mk.inj (Option.some.inj h)
    have hc : (Char.ofNat a.toNat).toNat = a.toNat := toNat_ofNat_of_lt ha
    rw [utf8EncodeChar_one (by rw [hc]; exact ha), hc, UInt8.ofNat_toNat]
    rfl
  split at h
  · next a r' ha₁ ha₂ =>
    split at h
    · simp only [Option.bind_eq_some_iff, Option.some.injEq, Prod.mk.injEq] at h
      obtain ⟨x, hb, c, hc, rfl, rfl⟩ := h
      obtain ⟨hx, rfl⟩ := continuation?_eq_some_iff.mp hb
      obtain ⟨hleast, hc⟩ := codePoint?_eq_some_iff.mp hc
      have ha : a = UInt8.ofNat (c.toNat / 64 % 32 + 192) := hbyte (by omega)
      rw [utf8EncodeChar_two (by omega), ← ha, show c.toNat % 64 = x by omega]
      rfl
    · cases h
  split at h
  · next a r' ha₁ ha₂ ha₃ =>
    split at h
    · simp only [Option.bind_eq_some_iff, Option.some.injEq, Prod.mk.injEq] at h
      obtain ⟨x, hb, y, hc, c, hd, rfl, rfl⟩ := h
      obtain ⟨hx, rfl⟩ := continuation?_eq_some_iff.mp hb
      obtain ⟨hy, rfl⟩ := continuation?_eq_some_iff.mp hc
      obtain ⟨hleast, hd⟩ := codePoint?_eq_some_iff.mp hd
      have ha : a = UInt8.ofNat (c.toNat / 4096 % 16 + 224) := hbyte (by omega)
      rw [utf8EncodeChar_three (by omega), ← ha, show c.toNat % 64 = y by omega,
        show c.toNat / 64 % 64 = x by omega]
      rfl
    · cases h
  split at h
  · next a r' ha₁ ha₂ ha₃ ha₄ =>
    split at h
    · simp only [Option.bind_eq_some_iff, Option.some.injEq, Prod.mk.injEq] at h
      obtain ⟨x, hb, y, hc, z, hd, c, he, rfl, rfl⟩ := h
      obtain ⟨hx, rfl⟩ := continuation?_eq_some_iff.mp hb
      obtain ⟨hy, rfl⟩ := continuation?_eq_some_iff.mp hc
      obtain ⟨hz, rfl⟩ := continuation?_eq_some_iff.mp hd
      obtain ⟨hleast, he⟩ := codePoint?_eq_some_iff.mp he
      have ha : a = UInt8.ofNat (c.toNat / 262144 % 8 + 240) := hbyte (by omega)
      rw [utf8EncodeChar_four (by omega), ← ha, show c.toNat % 64 = z by omega,
        show c.toNat / 64 % 64 = y by omega, show c.toNat / 4096 % 64 = x by omega]
      rfl
    · cases h
  · cases h

/-- **One character.** Bytes start with a character if and only if they start with its encoding. -/
theorem firstChar?_eq_some_iff {bs r : List UInt8} {c : Char} :
    firstChar? bs = some (c, r) ↔ bs = String.utf8EncodeChar c ++ r := by
  constructor
  · exact eq_of_firstChar?_eq_some
  · rintro rfl
    exact firstChar?_utf8EncodeChar c r

/-! ## Texts -/

theorem toList_loop_eq (bs : ByteArray) (i : Nat) (r : List UInt8) :
    ByteArray.toList.loop bs i r = r.reverse ++ bs.data.toList.drop i := by
  fun_induction ByteArray.toList.loop bs i r with
  | case1 i r h ih =>
    have hi : i < bs.data.toList.length := by simpa using h
    rw [ih, List.drop_eq_getElem_cons hi]
    simp [ByteArray.get!, h]
  | case2 i r h =>
    rw [List.drop_eq_nil_of_le (by simpa using Nat.le_of_not_lt h)]
    simp

/-- The bytes of a text are those of its characters. -/
theorem encode_eq (s : String) : encode s = s.toList.flatMap String.utf8EncodeChar := by
  have hbytes : s.toUTF8 = s.toList.utf8Encode := by
    rw [← String.toByteArray_ofList, String.ofList_toList]
    rfl
  rw [encode, hbytes, ByteArray.toList, toList_loop_eq]
  simp [List.utf8Encode]

theorem encode_ofList (cs : List Char) :
    encode (String.ofList cs) = cs.flatMap String.utf8EncodeChar := by
  rw [encode_eq, String.toList_ofList]

/-- Reading goes on from the text so far with the characters whose bytes follow. -/
theorem decodeFrom?_eq_some_iff {read cs : List Char} {bs : List UInt8} :
    decodeFrom? read bs = some cs
      ↔ ∃ more, cs = read.reverse ++ more ∧ bs = more.flatMap String.utf8EncodeChar := by
  fun_induction decodeFrom? read bs with
  | case1 read =>
    constructor
    · intro h
      exact ⟨[], by simpa using (Option.some.inj h).symm, rfl⟩
    · rintro ⟨more, rfl, hmore⟩
      cases more with
      | nil => simp
      | cons c more =>
        rw [List.flatMap_cons] at hmore
        have hnil : firstChar? [] = some (c, _) := firstChar?_eq_some_iff.mpr hmore
        cases hnil
  | case2 read b r c r' h ih =>
    rw [ih]
    rw [firstChar?_eq_some_iff] at h
    constructor
    · rintro ⟨more, rfl, rfl⟩
      exact ⟨c :: more, by simp, by rw [h, List.flatMap_cons]⟩
    · rintro ⟨more, rfl, hmore⟩
      cases more with
      | nil => cases hmore
      | cons d more =>
        rw [List.flatMap_cons] at hmore
        -- only one character can be first
        have hd : firstChar? (b :: r) = some (d, _) := firstChar?_eq_some_iff.mpr hmore
        rw [firstChar?_eq_some_iff.mpr h] at hd
        obtain ⟨rfl, rfl⟩ := Prod.mk.inj (Option.some.inj hd)
        exact ⟨more, by simp, rfl⟩
  | case3 read b r h =>
    constructor
    · intro h
      cases h
    · rintro ⟨more, rfl, hmore⟩
      cases more with
      | nil => cases hmore
      | cons d more =>
        rw [List.flatMap_cons] at hmore
        rw [firstChar?_eq_some_iff.mpr hmore] at h
        cases h

/-- **Bytes are read as a text if and only if they are its encoding.** -/
theorem decode?_eq_some_iff {bs : List UInt8} {cs : List Char} :
    decode? bs = some cs ↔ bs = encode (String.ofList cs) := by
  rw [decode?, decodeFrom?_eq_some_iff, encode_ofList]
  simp

theorem decode?_encode (s : String) : decode? (encode s) = some s.toList := by
  rw [decode?_eq_some_iff, String.ofList_toList]

/-- A text without carriage returns is left as it is. -/
theorem unifyLineEnds_of_forall {cs : List Char} (h : ∀ c ∈ cs, c ≠ '\r') :
    unifyLineEnds cs = cs := by
  induction cs with
  | nil => rfl
  | cons c cs ih =>
    obtain ⟨hc, hcs⟩ := List.forall_mem_cons.mp h
    rw [unifyLineEnds]
    · simp [hc, ih hcs]
    · simp [hc]

end WebAudit.Text
