import HttpDispatch.Text.Case
import HttpDispatch.Proofs.Text.Split

/-!
# Lower case

Putting a text in lower case moves its capital letters and nothing else: a second time it changes
nothing, no separator appears or goes, and blanks stay where they are.

* `toLower_cases`: what becomes of a character;
* `lower_lower`: once is enough;
* `mem_lower_iff`: characters that are no letters are those that were there;
* `EndsWithout.lower`: a text that trimming leaves alone stays one.
-/

namespace HttpDispatch.Text

/-- **A character stays** unless it is a capital letter, which is moved to the small one. -/
theorem toLower_cases (c : Char) : c.toLower = c ∨
    0x41 ≤ c.toNat ∧ c.toNat ≤ 0x5A ∧ c.toLower.toNat = c.toNat + 0x20 := by
  unfold Char.toLower
  split
  · next h =>
    obtain ⟨hge, hle⟩ := h
    have hge : 0x41 ≤ c.toNat := hge
    have hle : c.toNat ≤ 0x5A := hle
    refine .inr ⟨hge, hle, ?_⟩
    show (c.val + 0x20).toNat = c.val.toNat + 0x20
    have hval : c.val.toNat ≤ 0x5A := hle
    rw [UInt32.toNat_add]
    exact Nat.mod_eq_of_lt (by show c.val.toNat + 0x20 < 2 ^ 32; omega)
  · exact .inl rfl

@[simp] theorem toLower_toLower (c : Char) : c.toLower.toLower = c.toLower := by
  rcases toLower_cases c.toLower with h | ⟨hge, hle, -⟩
  · exact h
  · rcases toLower_cases c with h' | ⟨hge', -, h'⟩
    · rw [h', h']
    · omega

theorem toLower_eq_iff {c d : Char} (hd : ¬ (0x61 ≤ d.toNat ∧ d.toNat ≤ 0x7A))
    (hd' : ¬ (0x41 ≤ d.toNat ∧ d.toNat ≤ 0x5A)) : c.toLower = d ↔ c = d := by
  constructor
  · rintro rfl
    rcases toLower_cases c with h | ⟨hge, hle, h⟩
    · exact h.symm
    · omega
  · rintro rfl
    rcases toLower_cases c with h | ⟨hge, hle, h⟩
    · exact h
    · omega

/-- The characters from the first capital letter to the last small one are not blank. -/
theorem isBlank_eq_false {c : Char} (hge : 0x41 ≤ c.toNat) (hle : c.toNat ≤ 0x7A) :
    isBlank c = false := by
  simp only [isBlank, Bool.or_eq_false_iff, Bool.and_eq_false_iff, decide_eq_false_iff_not,
    beq_eq_false_iff_ne]
  omega

@[simp] theorem isBlank_toLower (c : Char) : isBlank c.toLower = isBlank c := by
  rcases toLower_cases c with h | ⟨hge, hle, h⟩
  · rw [h]
  · rw [isBlank_eq_false (c := c) hge (by omega), isBlank_eq_false (by omega) (by omega)]

variable {s : String}

@[simp] theorem toList_lower (s : String) : (lower s).toList = s.toList.map Char.toLower :=
  String.toList_ofList

@[simp] theorem lower_lower (s : String) : lower (lower s) = lower s := by
  rw [← String.toList_inj]
  simp [Function.comp_def]

theorem mem_lower_iff {d : Char} (hd : ¬ (0x61 ≤ d.toNat ∧ d.toNat ≤ 0x7A))
    (hd' : ¬ (0x41 ≤ d.toNat ∧ d.toNat ≤ 0x5A)) : d ∈ (lower s).toList ↔ d ∈ s.toList := by
  simp [toLower_eq_iff hd hd']

theorem EndsWithout.lower (h : EndsWithout isBlank s) : EndsWithout isBlank (Text.lower s) := by
  refine ⟨fun c hc => ?_, fun c hc => ?_⟩
  · obtain ⟨d, hd, rfl⟩ : ∃ d, s.toList.head? = some d ∧ d.toLower = c := by simpa using hc
    simpa using h.first d hd
  · obtain ⟨d, hd, rfl⟩ : ∃ d, s.toList.getLast? = some d ∧ d.toLower = c := by simpa using hc
    simpa using h.last d hd

end HttpDispatch.Text
