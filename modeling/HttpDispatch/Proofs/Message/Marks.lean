import HttpDispatch.Message.Multipart

/-!
# Marks in bytes

A mark is looked for from left to right and found where it stands first. It stands first where it was
put if it does not occur before and cannot begin within itself again.

* `IsCut`: what stands before the first occurrence of a mark, and what behind it;
* `cutAt_cases`: a mark is found there, or there is none;
* `isCut_of_not_mem`: marks whose first byte does not occur in them again.
-/

namespace HttpDispatch

namespace Multipart

/-- `before` stands before the first `mark` in `before ++ mark ++ after`. -/
def IsCut (mark before after : Bytes) : Prop :=
  ∀ b a, b ++ mark ++ a = before ++ mark ++ after → before.length ≤ b.length

theorem isCut_nil (mark after : Bytes) : IsCut mark [] after := fun b _ _ => Nat.zero_le b.length

theorem isCut_cons_iff {x : UInt8} {mark before after : Bytes} :
    IsCut mark (x :: before) after ↔
      ¬ mark <+: x :: before ++ mark ++ after ∧ IsCut mark before after := by
  constructor
  · intro h
    refine ⟨fun ⟨a, ha⟩ => ?_, fun b a hba => ?_⟩
    · have := h [] a (by simpa using ha)
      simp at this
    · have := h (x :: b) a (by simpa using hba)
      simpa using this
  · rintro ⟨hfirst, hcut⟩ b a hba
    cases b with
    | nil => exact absurd ⟨a, by simpa using hba⟩ hfirst
    | cons y b =>
      have hrest : b ++ mark ++ a = before ++ mark ++ after := by
        simpa using (List.cons.inj hba).2
      have := hcut b a hrest
      simpa using this

/-- **A mark is found where it stands first.** -/
theorem cutAt_append_of_isCut {mark before after : Bytes} (h : IsCut mark before after) :
    cutAt mark (before ++ mark ++ after) = some (before, after) := by
  induction before with
  | nil =>
    cases hbytes : mark ++ after with
    | nil =>
      obtain ⟨rfl, rfl⟩ := List.append_eq_nil_iff.mp hbytes
      rfl
    | cons y bytes =>
      have hp : mark.isPrefixOf (y :: bytes) := by
        rw [← hbytes, List.isPrefixOf_iff_prefix]
        exact List.prefix_append ..
      rw [List.nil_append, hbytes, cutAt, if_pos hp, ← hbytes, List.drop_left]
  | cons x before ih =>
    obtain ⟨hfirst, hcut⟩ := isCut_cons_iff.mp h
    have hp : ¬ mark.isPrefixOf (x :: (before ++ mark ++ after)) := by
      rw [List.isPrefixOf_iff_prefix]
      exact hfirst
    rw [List.cons_append, List.cons_append, cutAt, if_neg hp, ih hcut]
    rfl

/-- **A mark is found or there is none.** -/
theorem cutAt_cases (mark bytes : Bytes) :
    (cutAt mark bytes = none ∧ ¬ mark <:+: bytes) ∨
      ∃ before after, bytes = before ++ mark ++ after ∧ IsCut mark before after := by
  induction bytes with
  | nil =>
    cases mark with
    | nil => exact .inr ⟨[], [], rfl, isCut_nil _ _⟩
    | cons x mark => exact .inl ⟨rfl, by simp⟩
  | cons b bytes ih =>
    by_cases hp : mark <+: b :: bytes
    · obtain ⟨after, hafter⟩ := hp
      exact .inr ⟨[], after, hafter.symm, isCut_nil _ _⟩
    · rcases ih with ⟨hnone, hin⟩ | ⟨before, after, rfl, hcut⟩
      · refine .inl ⟨?_, ?_⟩
        · rw [cutAt, if_neg (by rwa [List.isPrefixOf_iff_prefix]), hnone]
          rfl
        · rw [List.infix_cons_iff, not_or]
          exact ⟨hp, hin⟩
      · exact .inr ⟨b :: before, after, rfl, isCut_cons_iff.mpr ⟨hp, hcut⟩⟩

/-- **No mark is found** where there is none. -/
theorem isNone_cutAt {mark bytes : Bytes} : (cutAt mark bytes).isNone ↔ ¬ mark <:+: bytes := by
  rcases cutAt_cases mark bytes with ⟨hnone, hin⟩ | ⟨before, after, rfl, hcut⟩
  · simp [hnone, hin]
  · rw [cutAt_append_of_isCut hcut]
    exact ⟨fun h => (by cases h), fun hin => absurd ⟨before, after, rfl⟩ hin⟩

/-- A mark that does not occur before the place where it was put stands first there, if its first
byte does not occur in it again. -/
theorem isCut_of_not_mem {x : UInt8} {mark before : Bytes} (hx : x ∉ mark)
    (hnone : ¬ (x :: mark) <:+: before) (after : Bytes) : IsCut (x :: mark) before after := by
  induction before with
  | nil => exact isCut_nil _ _
  | cons b before ih =>
    rw [List.infix_cons_iff, not_or] at hnone
    refine isCut_cons_iff.mpr ⟨fun hmark => ?_, ih hnone.2⟩
    -- a mark at this place would lie before, or its first byte would be in it once more
    have hbefore : b :: before <+: b :: before ++ x :: mark ++ after := by
      rw [List.append_assoc]
      exact List.prefix_append ..
    rcases List.prefix_or_prefix_of_prefix hmark hbefore with h | ⟨t, ht⟩
    · exact hnone.1 h
    · obtain ⟨u, hu⟩ := hmark
      have hrest : b :: before ++ (t ++ u) = b :: before ++ (x :: mark ++ after) := by
        rw [← List.append_assoc, ht, hu, List.append_assoc]
      have hrest : t ++ u = x :: mark ++ after := List.append_cancel_left hrest
      cases t with
      | nil =>
        rw [List.append_nil] at ht
        exact hnone.1 (ht ▸ List.prefix_refl _)
      | cons y t =>
        obtain ⟨rfl, -⟩ := List.cons.inj hrest
        obtain ⟨-, hmem⟩ := List.cons.inj ht
        exact hx (hmem ▸ List.mem_append_right _ List.mem_cons_self)

/-- **A mark is found where it was put**, if it does not occur before, and its first byte occurs
only there. -/
theorem cutAt_append {x : UInt8} {mark before : Bytes} (hx : x ∉ mark)
    (hnone : ¬ (x :: mark) <:+: before) (after : Bytes) :
    cutAt (x :: mark) (before ++ x :: mark ++ after) = some (before, after) :=
  cutAt_append_of_isCut (isCut_of_not_mem hx hnone after)

end Multipart

end HttpDispatch
