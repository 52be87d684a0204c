import HttpDispatch.Proofs.Head.Prefix
import HttpDispatch.Proofs.Message.Lines

/-!
# Fields as they are written

Header fields that are written on lines are read again, each with its name and the bytes of its
value, up to the empty line behind them. A value has no controls, and no blanks at its ends, where
they would be lost.

* `PlainField`: a field that can be read again;
* `Scan.run_field`, `Scan.run_fields`: one field, and all fields up to the empty line.
-/

namespace HttpDispatch

/-- The name of a field is a token; its value has no controls and no blanks at its ends. -/
structure PlainField (field : String × String) : Prop where
  name : IsToken field.1
  value : ∀ b ∈ Utf8.encode field.2, Scan.isValue b
  first : ∀ b ∈ (Utf8.encode field.2).head?, ¬ Scan.isGap b
  last : ∀ b ∈ (Utf8.encode field.2).getLast?, ¬ Scan.isGap b

theorem PlainField.not_mem {field : String × String} (h : PlainField field) :
    0x0D ∉ fieldLine field := by
  have hname := h.name.not_mem_encode (b := 0x0D) (by decide)
  have hvalue : 0x0D ∉ Utf8.encode field.2 := fun hm => absurd (h.value _ hm) (by decide)
  simp [fieldLine, hname, hvalue]

namespace Scan

@[simp] theorem run_next (b : UInt8) (rest : Bytes) : next.run (b :: rest) = .ok (b, rest) := rfl

theorem run_takeWhile_append {p : UInt8 → Bool} {l : Bytes} {b : UInt8} (hl : ∀ b ∈ l, p b)
    (hb : ¬ p b) (rest : Bytes) : (takeWhile p).run (l ++ b :: rest) = .ok (l, b :: rest) := by
  rw [run_takeWhile, List.takeWhile_append_of_pos hl, List.dropWhile_append_of_pos hl,
    List.takeWhile_cons_of_neg hb, List.dropWhile_cons_of_neg hb, List.append_nil]

theorem trimEnd_eq_self {bytes : Bytes} (h : ∀ b ∈ bytes.getLast?, ¬ isGap b) :
    trimEnd bytes = bytes := by
  rw [trimEnd]
  cases hrev : bytes.reverse with
  | nil => simpa using hrev.symm
  | cons b l =>
    have hb : ¬ isGap b := h b (by rw [← List.head?_reverse, hrev]; rfl)
    rw [List.dropWhile_cons_of_neg hb, ← hrev, List.reverse_reverse]

/-- **The value of a field** is read up to the end of its line. -/
theorem run_fieldValue {value : Bytes} (hvalue : ∀ b ∈ value, isValue b)
    (hfirst : ∀ b ∈ value.head?, ¬ isGap b) (hlast : ∀ b ∈ value.getLast?, ¬ isGap b)
    (rest : Bytes) : fieldValue.run (0x20 :: (value ++ lineBreak ++ rest)) = .ok (value, rest) := by
  have hgap : (takeWhile isGap).run (0x20 :: (value ++ lineBreak ++ rest)) =
      .ok ([0x20], value ++ lineBreak ++ rest) := by
    cases value with
    | nil => exact run_takeWhile_append (l := [0x20]) (List.forall_mem_singleton.mpr rfl) (by decide) (0x0A :: rest)
    | cons b value =>
      exact run_takeWhile_append (l := [0x20]) (List.forall_mem_singleton.mpr rfl) (hfirst b rfl)
        (value ++ lineBreak ++ rest)
  have htake : (takeWhile isValue).run (value ++ lineBreak ++ rest) =
      .ok (value, lineBreak ++ rest) := by
    rw [List.append_assoc]
    exact run_takeWhile_append hvalue (by decide) (0x0A :: rest)
  rw [fieldValue, run_bind_of_ok hgap, run_bind_of_ok htake]
  show Except.ok (trimEnd value, rest) = _
  rw [trimEnd_eq_self hlast]

variable {f : String × String} {fs : List (String × String)}

/-- **A field** is read after the first byte of its name. -/
theorem run_field (h : PlainField f) {b : UInt8} {name : Bytes} (hname : Utf8.encode f.1 = b :: name)
    (rest : Bytes) :
    (field b).run (name ++ 0x3A :: 0x20 :: (Utf8.encode f.2 ++ lineBreak ++ rest)) =
      .ok ((f.1, Utf8.encode f.2), rest) := by
  have htoken : ∀ x ∈ name, isToken x := fun x hx =>
    h.name.isToken_of_mem (by rw [hname]; exact List.mem_cons_of_mem _ hx)
  rw [field, run_bind_of_ok (run_takeWhile_append htoken (by decide) _),
    run_bind_of_ok (run_next 0x3A _)]
  show (do return (ascii (b :: name), ← fieldValue)).run _ = _
  rw [run_bind_of_ok (run_fieldValue h.value h.first h.last rest), ← hname, h.name.ascii_encode]
  rfl

theorem run_fieldStart_token {b : UInt8} (h : isToken b) (rest : Bytes) :
    fieldStart.run (b :: rest) = .ok (some b, rest) := by
  have hlf : b ≠ 0x0A := by rintro rfl; exact absurd h (by decide)
  have hcr : b ≠ 0x0D := by rintro rfl; exact absurd h (by decide)
  rw [fieldStart, run_bind_of_ok (run_next b rest), if_neg hlf, if_neg hcr, if_pos h]
  rfl

/-- **Fields** are read up to the empty line, if there are not too many. -/
theorem run_fields (h : ∀ f ∈ fs, PlainField f) {limit : Nat} (hlimit : fs.length ≤ limit)
    (rest : Bytes) :
    (fields limit).run (fs.flatMap (fun f => fieldLine f ++ lineBreak) ++ lineBreak ++ rest) =
      .ok (fs.map fun f => (f.1, Utf8.encode f.2), rest) := by
  induction fs generalizing limit with
  | nil =>
    cases limit with
    | zero => rfl
    | succ limit => rfl
  | cons f fs ih =>
    cases limit with
    | zero => exact absurd hlimit (by simp)
    | succ limit =>
      have hf := h f List.mem_cons_self
      obtain ⟨b, name, hname⟩ := List.exists_cons_of_ne_nil hf.name.encode_ne_nil
      have hb : isToken b := hf.name.isToken_of_mem (by rw [hname]; exact List.mem_cons_self)
      have hrest := ih (fun f hmem => h f (List.mem_cons_of_mem _ hmem)) (Nat.le_of_succ_le_succ hlimit)
      have hline : (f :: fs).flatMap (fun f => fieldLine f ++ lineBreak) ++ lineBreak ++ rest =
          b :: (name ++ 0x3A :: 0x20 :: (Utf8.encode f.2 ++ lineBreak ++
            (fs.flatMap (fun f => fieldLine f ++ lineBreak) ++ lineBreak ++ rest))) := by
        simp [fieldLine, hname]
      rw [hline, fields, run_bind_of_ok (run_fieldStart_token hb _)]
      show (do return (← field b) :: (← fields limit)).run _ = _
      rw [run_bind_of_ok (run_field hf hname _), run_bind_of_ok hrest]
      rfl

end Scan

end HttpDispatch
