import HttpDispatch.Text.Utf8

/-!
# Text as UTF-8 and back

What `encode` writes, `decode` reads back, and so does `decodeLossy`, which finds nothing to replace
in it. The bytes below 0x80 of a text are its ASCII characters, so that a mark of such bytes is found
in the bytes of a text only where the text has it.

* `chunks_encodeChar`: a character is read as it was written;
* `decode?_encode`, `decodeLossy_encode`: so is a text;
* `mem_encode`: the ASCII bytes of a text, and `encode_of_ascii`: a text that has no others.
-/

namespace HttpDispatch

namespace Utf8

/-! ### Single bytes -/

theorem toNat_ofNat {n : Nat} (h : n < 256) : (UInt8.ofNat n).toNat = n := by
  rw [UInt8.toNat_ofNat', Nat.mod_eq_of_lt h]

theorem isTail_iff (b : UInt8) : isTail b ↔ 0x80 ≤ b.toNat ∧ b.toNat ≤ 0xBF := by
  simp [isTail, UInt8.le_iff_toNat_le]

theorem second_of_isTail {first low last high a b : UInt8} (hb : isTail b)
    (hfirst : a.toNat = first.toNat → low.toNat ≤ b.toNat)
    (hlast : a.toNat = last.toNat → b.toNat ≤ high.toNat) : second first low last high a b := by
  rw [isTail_iff] at hb
  simp only [second, isTail, UInt8.le_iff_toNat_le, ← UInt8.toNat_inj, Bool.or_eq_true,
    Bool.and_eq_true, beq_iff_eq, bne_iff_ne, ne_eq, decide_eq_true_eq]
  simp only [UInt8.toNat_ofNat, Nat.reducePow, Nat.reduceMod]
  omega

theorem toNat_tail (n : Nat) : (UInt8.ofNat (n % 0x40 + 0x80)).toNat = n % 0x40 + 0x80 :=
  toNat_ofNat (by omega)

theorem isTail_tail (n : Nat) : isTail (UInt8.ofNat (n % 0x40 + 0x80)) := by
  rw [isTail_iff, toNat_tail]
  omega

/-! ### Characters by their length -/

section Lengths

variable {a b c d : UInt8} (r : Bytes)

theorem chunks_one (ha : a.toNat < 0x80) :
    chunks (a :: r) = .char (Char.ofNat a.toNat) :: chunks r := by
  rw [chunks.eq_def]
  simp [UInt8.lt_iff_toNat_lt, ha]

theorem chunks_two (ha : 0xC2 ≤ a.toNat ∧ a.toNat ≤ 0xDF) (hb : isTail b) :
    chunks (a :: b :: r) = .char (join (a.toNat % 32) [b]) :: chunks r := by
  have h1 : ¬ a.toNat < 0x80 := by omega
  rw [chunks.eq_def]
  simp [UInt8.lt_iff_toNat_lt, UInt8.le_iff_toNat_le, ha, hb, h1]

theorem chunks_three (ha : 0xE0 ≤ a.toNat ∧ a.toNat ≤ 0xEF) (hb : secondOfThree a b)
    (hc : isTail c) :
    chunks (a :: b :: c :: r) = .char (join (a.toNat % 16) [b, c]) :: chunks r := by
  have h1 : ¬ a.toNat < 0x80 := by omega
  have h2 : ¬ a.toNat ≤ 0xDF := by omega
  rw [chunks.eq_def]
  simp [UInt8.lt_iff_toNat_lt, UInt8.le_iff_toNat_le, ha, hb, hc, h1, h2]

theorem chunks_four (ha : 0xF0 ≤ a.toNat ∧ a.toNat ≤ 0xF4) (hb : secondOfFour a b)
    (hc : isTail c) (hd : isTail d) :
    chunks (a :: b :: c :: d :: r) = .char (join (a.toNat % 8) [b, c, d]) :: chunks r := by
  have h1 : ¬ a.toNat < 0x80 := by omega
  have h2 : ¬ a.toNat ≤ 0xDF := by omega
  have h3 : ¬ a.toNat ≤ 0xEF := by omega
  rw [chunks.eq_def]
  simp [UInt8.lt_iff_toNat_lt, UInt8.le_iff_toNat_le, ha, hb, hc, hd, h1, h2, h3]

end Lengths

/-- **A character is read as it was written**, whatever comes behind it. -/
@[simp] theorem chunks_encodeChar (x : Char) (r : Bytes) :
    chunks (String.utf8EncodeChar x ++ r) = .char x :: chunks r := by
  have hscalar : x.toNat < 0xD800 ∨ (0xDFFF < x.toNat ∧ x.toNat < 0x110000) := x.valid
  have hx : Char.ofNat x.toNat = x := Char.ofNat_toNat x
  unfold String.utf8EncodeChar
  simp only [show x.val.toNat = x.toNat from rfl]
  -- from here on only the number of the character matters
  generalize x.toNat = n at *
  subst hx
  split
  · have ha : (UInt8.ofNat n).toNat = n := toNat_ofNat (by omega)
    rw [List.singleton_append, chunks_one r (by omega), ha]
  · split
    · have ha : (UInt8.ofNat (n / 64 % 0x20 + 0xC0)).toNat = n / 64 % 0x20 + 0xC0 :=
        toNat_ofNat (by omega)
      have hjoin : join ((UInt8.ofNat (n / 64 % 0x20 + 0xC0)).toNat % 32)
          [UInt8.ofNat (n % 0x40 + 0x80)] = Char.ofNat n := by
        refine congrArg Char.ofNat ?_
        simp only [List.foldl_cons, List.foldl_nil, ha, toNat_tail]
        omega
      rw [List.cons_append, List.cons_append, List.nil_append,
        chunks_two r (by omega) (isTail_tail n), hjoin]
    · split
      · have ha : (UInt8.ofNat (n / 4096 % 0x10 + 0xE0)).toNat = n / 4096 % 0x10 + 0xE0 :=
          toNat_ofNat (by omega)
        have hb := toNat_tail (n / 64)
        have hsecond : secondOfThree (UInt8.ofNat (n / 4096 % 0x10 + 0xE0))
            (UInt8.ofNat (n / 64 % 0x40 + 0x80)) :=
          second_of_isTail (isTail_tail (n / 64))
            (by rw [ha, hb]; show _ = 0xE0 → 0xA0 ≤ _; omega)
            (by rw [ha, hb]; show _ = 0xED → _ ≤ 0x9F; omega)
        have hjoin : join ((UInt8.ofNat (n / 4096 % 0x10 + 0xE0)).toNat % 16)
            [UInt8.ofNat (n / 64 % 0x40 + 0x80), UInt8.ofNat (n % 0x40 + 0x80)] = Char.ofNat n := by
          refine congrArg Char.ofNat ?_
          simp only [List.foldl_cons, List.foldl_nil, ha, toNat_tail]
          omega
        rw [List.cons_append, List.cons_append, List.cons_append, List.nil_append,
          chunks_three r (by omega) hsecond (isTail_tail n), hjoin]
      · have ha : (UInt8.ofNat (n / 262144 % 0x08 + 0xF0)).toNat = n / 262144 % 0x08 + 0xF0 :=
          toNat_ofNat (by omega)
        have hb := toNat_tail (n / 4096)
        have hsecond : secondOfFour (UInt8.ofNat (n / 262144 % 0x08 + 0xF0))
            (UInt8.ofNat (n / 4096 % 0x40 + 0x80)) :=
          second_of_isTail (isTail_tail (n / 4096))
            (by rw [ha, hb]; show _ = 0xF0 → 0x90 ≤ _; omega)
            (by rw [ha, hb]; show _ = 0xF4 → _ ≤ 0x8F; omega)
        have hjoin : join ((UInt8.ofNat (n / 262144 % 0x08 + 0xF0)).toNat % 8)
            [UInt8.ofNat (n / 4096 % 0x40 + 0x80), UInt8.ofNat (n / 64 % 0x40 + 0x80),
              UInt8.ofNat (n % 0x40 + 0x80)] = Char.ofNat n := by
          refine congrArg Char.ofNat ?_
          simp only [List.foldl_cons, List.foldl_nil, ha, toNat_tail]
          omega
        rw [List.cons_append, List.cons_append, List.cons_append, List.cons_append, List.nil_append,
          chunks_four r (by omega) hsecond (isTail_tail (n / 64)) (isTail_tail n), hjoin]

/-! ### Texts -/

@[simp] theorem encode_append (s t : String) : encode (s ++ t) = encode s ++ encode t := by
  rw [encode, String.toList_append, List.flatMap_append]
  rfl

@[simp] theorem chunks_encode (s : String) : chunks (encode s) = s.toList.map .char := by
  unfold encode
  induction s.toList with
  | nil => rfl
  | cons x l ih => simp [ih]

@[simp] theorem collect_map_char :
    ∀ (l : List Char) (index : Nat), collect index (l.map .char) = .ok l
  | [], _ => rfl
  | x :: l, index => by
    rw [List.map_cons, collect, collect_map_char l]
    rfl

/-- **A text is read as it was written.** -/
@[simp] theorem decode_encode (s : String) : decode (encode s) = .ok s := by
  simp [decode, Except.map]

@[simp] theorem decode?_encode (s : String) : decode? (encode s) = some s := by
  simp [decode?, Except.toOption]

theorem encode_ne_nil {s : String} (h : s ≠ "") : encode s ≠ [] := by
  intro hnil
  have hread := decode_encode s
  rw [hnil] at hread
  exact h (Except.ok.inj hread).symm

@[simp] theorem decodeLossy_encode (s : String) : decodeLossy (encode s) = s := by
  rw [decodeLossy, chunks_encode, List.map_map]
  show String.ofList (s.toList.map id) = s
  simp

/-! ### ASCII -/

theorem le_of_mem_encodeChar {x : Char} {b : UInt8} (hx : 0x80 ≤ x.toNat)
    (hb : b ∈ String.utf8EncodeChar x) : 0x80 ≤ b.toNat := by
  unfold String.utf8EncodeChar at hb
  simp only [show x.val.toNat = x.toNat from rfl, if_neg (show ¬ x.toNat ≤ 0x7F by omega)] at hb
  split at hb
  · simp only [List.mem_cons, List.not_mem_nil, or_false] at hb
    rcases hb with rfl | rfl <;> rw [toNat_ofNat (by omega)] <;> omega
  · split at hb
    · simp only [List.mem_cons, List.not_mem_nil, or_false] at hb
      rcases hb with rfl | rfl | rfl <;> rw [toNat_ofNat (by omega)] <;> omega
    · simp only [List.mem_cons, List.not_mem_nil, or_false] at hb
      rcases hb with rfl | rfl | rfl | rfl <;> rw [toNat_ofNat (by omega)] <;> omega

theorem encodeChar_of_ascii {x : Char} (hx : x.toNat < 0x80) :
    String.utf8EncodeChar x = [UInt8.ofNat x.toNat] := by
  unfold String.utf8EncodeChar
  exact if_pos (by show x.toNat ≤ 0x7F; omega)

/-- **The ASCII bytes of a text are its ASCII characters.** -/
theorem exists_of_mem_encode {s : String} {b : UInt8} (hb : b ∈ encode s) (hlt : b.toNat < 0x80) :
    ∃ x ∈ s.toList, x.toNat = b.toNat := by
  obtain ⟨x, hx, hbx⟩ := List.mem_flatMap.mp hb
  refine ⟨x, hx, ?_⟩
  by_cases hascii : x.toNat < 0x80
  · rw [encodeChar_of_ascii hascii, List.mem_singleton] at hbx
    rw [hbx, toNat_ofNat (by omega)]
  · have := le_of_mem_encodeChar (by omega) hbx
    omega

theorem mem_encode {s : String} {b : UInt8} (hb : b ∈ encode s) (hlt : b.toNat < 0x80) :
    Char.ofNat b.toNat ∈ s.toList := by
  obtain ⟨x, hx, heq⟩ := exists_of_mem_encode hb hlt
  rwa [← heq, Char.ofNat_toNat]

theorem encode_of_ascii {s : String} (h : ∀ x ∈ s.toList, x.toNat < 0x80) :
    encode s = s.toList.map fun x => UInt8.ofNat x.toNat := by
  unfold encode
  generalize s.toList = l at h
  induction l with
  | nil => rfl
  | cons x l ih =>
    rw [List.flatMap_cons, encodeChar_of_ascii (h x List.mem_cons_self),
      ih fun y hy => h y (List.mem_cons_of_mem _ hy)]
    rfl

end Utf8

end HttpDispatch
