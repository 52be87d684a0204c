import HttpDispatch.Proofs.Text.Utf8
import HttpDispatch.Text.Percent

/-!
# Percent encoding and back

What `encode` writes, `decode` reads back, also where encoded texts and other characters stand one
after the other. Encoded text is ASCII without slashes, and empty only if the text is.

* `unescape_escape_append`: a byte is read as it was written;
* `decode_encode`: so is a text;
* `decode_intercalate`: so are texts with slashes between them.
-/

namespace HttpDispatch.Percent

theorem pair?_digits : ∀ n : Fin 256,
    pair? (digit (UInt8.ofNat n / 16)) (digit (UInt8.ofNat n % 16)) = some (UInt8.ofNat n) := by
  decide +kernel

theorem escape_ascii (n : Fin 256) :
    ∀ c ∈ escape (UInt8.ofNat n), c.toNat < 0x80 ∧ c ≠ 0x2F := by
  -- as a test, so that only the bytes of the list are gone through
  have hall : ∀ n : Fin 256,
      (escape (UInt8.ofNat n)).all (fun c => decide (c.toNat < 0x80 ∧ c ≠ 0x2F)) = true := by
    decide +kernel
  intro c hc
  exact of_decide_eq_true (List.all_eq_true.mp (hall n) c hc)

theorem exists_eq_ofNat (b : UInt8) : ∃ n : Fin 256, b = UInt8.ofNat n :=
  ⟨⟨b.toNat, b.toNat_lt⟩, (UInt8.ofNat_toNat).symm⟩

theorem unescape_cons {c : UInt8} (h : c ≠ 0x25) (r : Bytes) :
    unescape (c :: r) = c :: unescape r := by
  rw [unescape.eq_def]
  exact if_neg h

/-- **A byte is read as it was written**, whatever comes behind it. -/
@[simp] theorem unescape_escape_append (b : UInt8) (r : Bytes) :
    unescape (escape b ++ r) = b :: unescape r := by
  unfold escape
  split
  · next h =>
    have hb : b ≠ 0x25 := by
      rintro rfl
      revert h
      decide
    exact unescape_cons hb r
  · obtain ⟨n, rfl⟩ := exists_eq_ofNat b
    rw [List.cons_append, List.cons_append, List.cons_append, List.nil_append, unescape, if_pos rfl]
    simp only [pair?_digits]

@[simp] theorem unescape_flatMap_append (l r : Bytes) :
    unescape (l.flatMap escape ++ r) = l ++ unescape r := by
  induction l with
  | nil => rfl
  | cons b l ih => simp [ih]

@[simp] theorem unescape_flatMap (l : Bytes) : unescape (l.flatMap escape) = l := by
  simpa [unescape] using unescape_flatMap_append l []

/-! ### Texts -/

theorem ascii_of_mem_flatMap {l : Bytes} {c : UInt8} (h : c ∈ l.flatMap escape) :
    c.toNat < 0x80 ∧ c ≠ 0x2F := by
  obtain ⟨b, -, hc⟩ := List.mem_flatMap.mp h
  obtain ⟨n, rfl⟩ := exists_eq_ofNat b
  exact escape_ascii n c hc

theorem toNat_ofNat_of_ascii {c : UInt8} (h : c.toNat < 0x80) :
    (Char.ofNat c.toNat).toNat = c.toNat := by
  have hvalid : c.toNat.isValidChar := .inl (by omega)
  rw [Char.ofNat, dif_pos hvalid]
  rfl

@[simp] theorem utf8_encode (s : String) :
    Utf8.encode (encode s) = (Utf8.encode s).flatMap escape := by
  have hascii : ∀ c ∈ (Utf8.encode s).flatMap escape, (Char.ofNat c.toNat).toNat = c.toNat :=
    fun c hc => toNat_ofNat_of_ascii (ascii_of_mem_flatMap hc).1
  rw [Utf8.encode_of_ascii, encode, String.toList_ofList, List.map_map]
  · refine (List.map_congr_left fun c hc => ?_).trans (List.map_id _)
    show UInt8.ofNat (Char.ofNat c.toNat).toNat = c
    rw [hascii c hc, UInt8.ofNat_toNat]
  · intro x hx
    rw [encode, String.toList_ofList] at hx
    obtain ⟨c, hc, rfl⟩ := List.mem_map.mp hx
    rw [hascii c hc]
    exact (ascii_of_mem_flatMap hc).1

/-- **A text is read as it was written.** -/
@[simp] theorem decode_encode (s : String) : decode (encode s) = some s := by
  simp [decode]

@[simp] theorem decodeOrKeep_encode (s : String) : decodeOrKeep (encode s) = s := by
  simp [decodeOrKeep]

theorem map_decodeOrKeep_encode (l : List String) : (l.map encode).map decodeOrKeep = l := by
  induction l with
  | nil => rfl
  | cons s l ih => rw [List.map_cons, List.map_cons, ih, decodeOrKeep_encode]

theorem slash_not_mem_encode (s : String) : '/' ∉ (encode s).toList := by
  intro h
  rw [encode, String.toList_ofList] at h
  obtain ⟨c, hc, heq⟩ := List.mem_map.mp h
  obtain ⟨hlt, hne⟩ := ascii_of_mem_flatMap hc
  have hnat : c.toNat = 0x2F := by
    rw [← toNat_ofNat_of_ascii hlt, heq]
    rfl
  exact hne (UInt8.toNat_inj.mp hnat)

theorem encode_ne_empty {s : String} (h : s ≠ "") : encode s ≠ "" := by
  intro hempty
  have hs := decode_encode s
  rw [hempty] at hs
  exact h (Option.some.inj hs).symm

/-- **Texts with slashes between them** are read as they were written. -/
@[simp] theorem decode_intercalate (l : List String) :
    decode ("/".intercalate (l.map encode)) = some ("/".intercalate l) := by
  have hslash : Utf8.encode "/" = [0x2F] := by decide
  have hbytes : unescape (Utf8.encode ("/".intercalate (l.map encode))) =
      Utf8.encode ("/".intercalate l) := by
    induction l with
    | nil => decide
    | cons s l ih =>
      cases l with
      | nil => simp
      | cons t l =>
        simp only [List.map_cons, String.intercalate_cons_cons] at ih ⊢
        simp [hslash, unescape_cons, ih]
  simp [decode, hbytes]

@[simp] theorem decodeOrKeep_intercalate (l : List String) :
    decodeOrKeep ("/".intercalate (l.map encode)) = "/".intercalate l := by
  simp [decodeOrKeep]

end HttpDispatch.Percent
