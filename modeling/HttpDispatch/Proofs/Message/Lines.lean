import HttpDispatch.Message.Fields
import HttpDispatch.Proofs.Message.Marks
import HttpDispatch.Proofs.Text.Utf8

/-!
# Lines on the wire

A head is written line by line, a name and a value on each. Names are tokens and values have no
breaks, which is why a reader finds the lines and the names again.

* `cutLine`, `cutLine_append`: the line at the front;
* `IsToken`, `IsToken.ascii_encode`: names, and that their bytes are the names;
* `NoBreak`, `NoBreak.not_mem`: texts that stay on their line;
* `fieldLine`, `encode_renderField`: the bytes of a line;
* `mapM_map_eq_some`: what is written piece by piece is read piece by piece.
-/

namespace HttpDispatch

/-- The bytes that end a line. -/
def lineBreak : Bytes := [0x0D, 0x0A]

/-! ### Lines -/

/-- The line at the front of the bytes, and what stands behind its line break. -/
def cutLine (bytes : Bytes) : Option (Bytes × Bytes) := Multipart.cutAt lineBreak bytes

/-- **A line without a carriage return** ends at the line break behind it. -/
theorem cutLine_append {l : Bytes} (h : 0x0D ∉ l) (rest : Bytes) :
    cutLine (l ++ lineBreak ++ rest) = some (l, rest) :=
  Multipart.cutAt_append (by decide) (fun hin => h (hin.mem List.mem_cons_self)) rest

theorem cutLine_eq_none {l : Bytes} (h : 0x0D ∉ l) : cutLine l = none :=
  Option.isNone_iff_eq_none.mp
    (Multipart.isNone_cutAt.mpr fun hin => h (hin.mem List.mem_cons_self))

@[grind →] theorem length_of_cutLine {bytes line rest : Bytes}
    (h : cutLine bytes = some (line, rest)) : rest.length < bytes.length := by
  grind [cutLine, lineBreak]

/-! ### Names -/

/-- A text that is a name of a header field: letters, digits and some marks, at least one. -/
structure IsToken (s : String) : Prop where
  ne : s.toList ≠ []
  ascii : ∀ c ∈ s.toList, c.toNat < 0x80
  token : ∀ c ∈ s.toList, Scan.isToken (UInt8.ofNat c.toNat)

-- `all` goes through the characters of the text, a quantifier might go through all that there are
instance (s : String) : Decidable (IsToken s) :=
  decidable_of_iff (s.toList ≠ [] ∧ s.toList.all (fun c => c.toNat < 0x80) ∧
      s.toList.all fun c => Scan.isToken (UInt8.ofNat c.toNat))
    ⟨fun h => ⟨h.1, by simpa using h.2.1, List.all_eq_true.mp h.2.2⟩,
      fun h => ⟨h.ne, by simpa using h.ascii, List.all_eq_true.mpr h.token⟩⟩

namespace IsToken

variable {s : String}

theorem encode (h : IsToken s) : Utf8.encode s = s.toList.map fun c => UInt8.ofNat c.toNat :=
  Utf8.encode_of_ascii h.ascii

theorem isToken_of_mem (h : IsToken s) {b : UInt8} (hb : b ∈ Utf8.encode s) : Scan.isToken b := by
  rw [h.encode] at hb
  obtain ⟨c, hc, rfl⟩ := List.mem_map.mp hb
  exact h.token c hc

theorem not_mem_encode (h : IsToken s) {b : UInt8} (hb : Scan.isToken b = false) :
    b ∉ Utf8.encode s := fun hm => by
  have := h.isToken_of_mem hm
  rw [hb] at this
  cases this

/-- **The bytes of a name are the name.** -/
theorem ascii_encode (h : IsToken s) : Scan.ascii (Utf8.encode s) = s := by
  have hchars : (s.toList.map fun c => UInt8.ofNat c.toNat).map (fun b => Char.ofNat b.toNat) =
      s.toList := by
    rw [List.map_map]
    refine (List.map_congr_left fun c hc => ?_).trans (List.map_id _)
    show Char.ofNat (UInt8.ofNat c.toNat).toNat = c
    have := h.ascii c hc
    rw [Utf8.toNat_ofNat (by omega), Char.ofNat_toNat]
  rw [Scan.ascii, h.encode, hchars, String.ofList_toList]

theorem encode_ne_nil (h : IsToken s) : Utf8.encode s ≠ [] := by
  rw [h.encode]
  simpa using h.ne

end IsToken

/-! ### Values -/

/-- A text without the two characters that lines end with. -/
structure NoBreak (s : String) : Prop where
  cr : '\r' ∉ s.toList
  lf : '\n' ∉ s.toList

instance (s : String) : Decidable (NoBreak s) :=
  decidable_of_iff ('\r' ∉ s.toList ∧ '\n' ∉ s.toList) ⟨fun h => ⟨h.1, h.2⟩, fun h => ⟨h.cr, h.lf⟩⟩

theorem NoBreak.not_mem {s : String} (h : NoBreak s) : 0x0D ∉ Utf8.encode s := fun hm =>
  h.cr (Utf8.mem_encode hm (by decide))

/-- The line of a field, without its end. -/
def fieldLine (field : String × String) : Bytes :=
  Utf8.encode field.1 ++ 0x3A :: 0x20 :: Utf8.encode field.2

@[simp] theorem encode_renderField (field : String × String) :
    Utf8.encode (Fields.renderField field) = fieldLine field ++ lineBreak := by
  rw [Fields.renderField, Utf8.encode_append, Utf8.encode_append, Utf8.encode_append]
  show Utf8.encode field.1 ++ [0x3A, 0x20] ++ Utf8.encode field.2 ++ lineBreak = _
  simp [fieldLine]

/-- **What is written piece by piece** is read piece by piece. -/
theorem mapM_map_eq_some {α β γ : Type} {write : α → β} {read : β → Option γ} {meaning : α → γ}
    {l : List α} (h : ∀ x ∈ l, read (write x) = some (meaning x)) :
    (l.map write).mapM read = some (l.map meaning) := by
  induction l with
  | nil => rfl
  | cons x l ih =>
    rw [List.map_cons, List.mapM_cons, h x List.mem_cons_self,
      ih fun y hy => h y (List.mem_cons_of_mem _ hy)]
    rfl

end HttpDispatch
