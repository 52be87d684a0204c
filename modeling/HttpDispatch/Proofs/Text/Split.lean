import HttpDispatch.Text.Split

/-!
# Text that is put together and cut again

A separator cuts a text where it was put between stretches that do not have it, and what was put
around a text is stripped off again, as long as the text itself does not begin or end with it.

* `mem_of_mem_pieces`: what the stretches of a text consist of;
* `pieces_append_pieces`, `pieces_append`, `cutAt_append`: a separator behind a stretch without one;
* `pieces_flatMap`: all stretches of a text, and `exists_pieces_cons`: the first of them;
* `stripEnds_append`: what is put around a text;
* `stripEnds_eq_self`: a text that has nothing to strip off;
* `exists_stripEnds`: what is stripped off a text, and `head?_stripEnds`, `getLast?_stripEnds`: what
  stays;
* `EndsWithout`: the texts that are left as they are, and `trim_eq_self_iff`, `unquote_eq_self_iff`;
* `unquote_trim_quoted`: what stands between quotes.
-/

namespace HttpDispatch.Text

variable {sep : Char} {l r : List Char}

theorem pieces_of_not_mem (h : sep ∉ l) : pieces sep l = [l] := by
  induction l with
  | nil => rfl
  | cons c l ih =>
    rw [List.mem_cons, not_or] at h
    rw [pieces, if_neg (Ne.symm h.1), ih h.2]

theorem mem_of_mem_pieces {q : List Char} {c : Char} (hq : q ∈ pieces sep l) (hc : c ∈ q) :
    c ∈ l ∧ c ≠ sep := by
  induction l generalizing q with
  | nil =>
    rw [pieces, List.mem_singleton] at hq
    rw [hq] at hc
    cases hc
  | cons d l ih =>
    rw [pieces] at hq
    split at hq
    · rcases List.mem_cons.mp hq with rfl | hq
      · cases hc
      · exact ⟨List.mem_cons_of_mem _ (ih hq hc).1, (ih hq hc).2⟩
    · next hd =>
      have htail : ∀ p ∈ pieces sep l, c ∈ p → c ∈ d :: l ∧ c ≠ sep := by
        intro p hp hc
        exact ⟨List.mem_cons_of_mem _ (ih hp hc).1, (ih hp hc).2⟩
      split at hq
      · rw [List.mem_singleton.mp hq, List.mem_singleton] at hc
        exact ⟨hc ▸ List.mem_cons_self, hc ▸ hd⟩
      · next p ps hpieces =>
        rw [hpieces] at htail
        rcases List.mem_cons.mp hq with rfl | hq
        · rcases List.mem_cons.mp hc with rfl | hc
          · exact ⟨List.mem_cons_self, hd⟩
          · exact htail p List.mem_cons_self hc
        · exact htail q (List.mem_cons_of_mem _ hq) hc

theorem not_mem_of_mem_split {s part : String} (h : part ∈ split sep s) : sep ∉ part.toList := by
  obtain ⟨q, hq, rfl⟩ := List.mem_map.mp h
  rw [String.toList_ofList]
  exact fun hmem => (mem_of_mem_pieces hq hmem).2 rfl

theorem pieces_ne_nil (sep : Char) (l : List Char) : pieces sep l ≠ [] := by
  unfold pieces
  split
  · exact List.cons_ne_nil _ _
  · split
    · exact List.cons_ne_nil _ _
    · split <;> exact List.cons_ne_nil _ _

theorem exists_pieces_cons {c : Char} (h : c ≠ sep) (l : List Char) :
    ∃ p ps, pieces sep l = p :: ps ∧ pieces sep (c :: l) = (c :: p) :: ps := by
  obtain ⟨p, ps, hl⟩ := List.exists_cons_of_ne_nil (pieces_ne_nil sep l)
  refine ⟨p, ps, hl, ?_⟩
  rw [pieces, if_neg h, hl]

/-- The stretches around a separator are cut by themselves. -/
theorem pieces_append_pieces (l r : List Char) :
    pieces sep (l ++ sep :: r) = pieces sep l ++ pieces sep r := by
  induction l with
  | nil => exact if_pos rfl
  | cons c l ih =>
    obtain ⟨p, ps, hl⟩ := List.exists_cons_of_ne_nil (pieces_ne_nil sep l)
    rw [List.cons_append, pieces, pieces, ih, hl]
    split <;> rfl

/-- **A separator ends the first stretch** if that does not have one. -/
theorem pieces_append (h : sep ∉ l) (r : List Char) :
    pieces sep (l ++ sep :: r) = l :: pieces sep r := by
  rw [pieces_append_pieces, pieces_of_not_mem h, List.singleton_append]

/-- **Stretches with a separator before each** are cut apart again. -/
theorem pieces_flatMap (hl : sep ∉ l) {qs : List (List Char)} (hqs : ∀ q ∈ qs, sep ∉ q) :
    pieces sep (l ++ qs.flatMap (sep :: ·)) = l :: qs := by
  induction qs generalizing l with
  | nil => rw [List.flatMap_nil, List.append_nil, pieces_of_not_mem hl]
  | cons q qs ih =>
    rw [List.flatMap_cons, List.cons_append, pieces_append hl,
      ih (hqs q List.mem_cons_self) fun q hq => hqs q (List.mem_cons_of_mem _ hq)]

/-- **A text is cut at the separator** that was put behind a stretch without one. -/
theorem cutAt_append (h : sep ∉ l) (r : List Char) : cutAt sep (l ++ sep :: r) = some (l, r) := by
  induction l with
  | nil => rw [List.nil_append, cutAt, if_pos rfl]
  | cons c l ih =>
    rw [List.mem_cons, not_or] at h
    rw [List.cons_append, cutAt, if_neg (Ne.symm h.1), ih h.2]
    rfl

theorem eq_append_of_cutAt {a b : List Char} (h : cutAt sep l = some (a, b)) :
    l = a ++ sep :: b ∧ sep ∉ a := by
  induction l generalizing a with
  | nil => cases h
  | cons c l ih =>
    rw [cutAt] at h
    split at h
    · next hc =>
      cases h
      exact ⟨by rw [hc, List.nil_append], by simp⟩
    · next hc =>
      obtain ⟨⟨a', b'⟩, hcut, heq⟩ := Option.map_eq_some_iff.mp h
      cases heq
      obtain ⟨hl, hsep⟩ := ih hcut
      refine ⟨by rw [hl, List.cons_append], ?_⟩
      rw [List.mem_cons, not_or]
      exact ⟨Ne.symm hc, hsep⟩

theorem eq_append_of_splitOnce {s a b : String} (h : splitOnce sep s = some (a, b)) :
    s.toList = a.toList ++ sep :: b.toList ∧ sep ∉ a.toList := by
  obtain ⟨⟨a', b'⟩, hcut, heq⟩ := Option.map_eq_some_iff.mp h
  cases heq
  rw [String.toList_ofList, String.toList_ofList]
  exact eq_append_of_cutAt hcut

theorem splitOnce_append {s a b : String} (hs : s.toList = a.toList ++ sep :: b.toList)
    (h : sep ∉ a.toList) : splitOnce sep s = some (a, b) := by
  rw [splitOnce, hs, cutAt_append h, Option.map_some, String.ofList_toList, String.ofList_toList]

theorem cutAt_eq_none (h : sep ∉ l) : cutAt sep l = none := by
  induction l with
  | nil => rfl
  | cons c l ih =>
    rw [List.mem_cons, not_or] at h
    rw [cutAt, if_neg (Ne.symm h.1), ih h.2]
    rfl

/-! ### Both ends -/

variable {p : Char → Bool} {a b : List Char}

/-- **What is put around a text is stripped off again.** -/
theorem stripEnds_append (ha : ∀ c ∈ a, p c) (hb : ∀ c ∈ b, p c) (hhead : ∀ c ∈ l.head?, ¬ p c)
    (hlast : ∀ c ∈ l.getLast?, ¬ p c) : stripEnds p (a ++ l ++ b) = l := by
  have hends : (l ++ b).dropWhile p = if l = [] then [] else l ++ b := by
    cases l with
    | nil =>
      have hdrop : (b ++ []).dropWhile p = [] := List.dropWhile_append_of_pos hb
      simpa using hdrop
    | cons c l =>
      have hc : ¬ p c := hhead c rfl
      simp [hc]
  rw [stripEnds, List.append_assoc, List.dropWhile_append_of_pos ha, hends, stripEnd]
  split
  · next hl => rw [hl]; rfl
  · next hl =>
    have hrev : l.reverse.dropWhile p = l.reverse := by
      obtain ⟨c, m, hm⟩ := List.exists_cons_of_ne_nil (List.reverse_ne_nil_iff.mpr hl)
      have hc : ¬ p c := hlast c (by rw [← List.head?_reverse, hm]; rfl)
      rw [hm, List.dropWhile_cons_of_neg hc]
    rw [List.reverse_append,
      List.dropWhile_append_of_pos fun c hc => hb c (List.mem_reverse.mp hc), hrev,
      List.reverse_reverse]

theorem stripEnds_eq_self (hhead : ∀ c ∈ l.head?, ¬ p c) (hlast : ∀ c ∈ l.getLast?, ¬ p c) :
    stripEnds p l = l := by
  have h := stripEnds_append (a := []) (b := []) (fun _ h => by cases h) (fun _ h => by cases h)
    hhead hlast
  rwa [List.nil_append, List.append_nil] at h

theorem stripEnds_eq_nil (h : ∀ c ∈ l, p c) : stripEnds p l = [] := by
  have hstrip := stripEnds_append (l := []) (b := []) h (fun c hc => by cases hc)
    (fun c hc => by cases hc) fun c hc => by cases hc
  rwa [List.append_nil, List.append_nil] at hstrip

/-! ### What is stripped -/

theorem exists_stripEnd (p : Char → Bool) (l : List Char) :
    ∃ b, l = stripEnd p l ++ b ∧ ∀ c ∈ b, p c := by
  refine ⟨(l.reverse.takeWhile p).reverse, ?_, fun c hc => ?_⟩
  · rw [stripEnd, ← List.reverse_append, List.takeWhile_append_dropWhile, List.reverse_reverse]
  · exact List.all_eq_true.mp List.all_takeWhile c (List.mem_reverse.mp hc)

theorem exists_stripEnds (p : Char → Bool) (l : List Char) :
    ∃ a b, l = a ++ stripEnds p l ++ b ∧ (∀ c ∈ a, p c) ∧ ∀ c ∈ b, p c := by
  obtain ⟨b, hb, hstripped⟩ := exists_stripEnd p (l.dropWhile p)
  refine ⟨l.takeWhile p, b, ?_, List.all_eq_true.mp List.all_takeWhile, hstripped⟩
  rw [List.append_assoc, stripEnds, ← hb, List.takeWhile_append_dropWhile]

theorem head?_stripEnds (p : Char → Bool) (l : List Char) : ∀ c ∈ (stripEnds p l).head?, ¬ p c := by
  intro c hc
  obtain ⟨b, hb, -⟩ := exists_stripEnd p (l.dropWhile p)
  have hc : (stripEnd p (l.dropWhile p)).head? = some c := hc
  have hfront : (l.dropWhile p).head? = some c := by rw [hb, List.head?_append, hc, Option.some_or]
  have hnot := List.head?_dropWhile_not p l
  rw [hfront] at hnot
  simpa using hnot

theorem getLast?_stripEnd (p : Char → Bool) (l : List Char) :
    ∀ c ∈ (stripEnd p l).getLast?, ¬ p c := by
  intro c hc
  rw [stripEnd, List.getLast?_reverse] at hc
  have hnot := List.head?_dropWhile_not p l.reverse
  rw [hc] at hnot
  simpa using hnot

theorem getLast?_stripEnds (p : Char → Bool) (l : List Char) :
    ∀ c ∈ (stripEnds p l).getLast?, ¬ p c := getLast?_stripEnd p (l.dropWhile p)

theorem stripEnds_eq_self_iff :
    stripEnds p l = l ↔ (∀ c ∈ l.head?, ¬ p c) ∧ ∀ c ∈ l.getLast?, ¬ p c := by
  constructor
  · intro h
    rw [← h]
    exact ⟨head?_stripEnds p l, getLast?_stripEnds p l⟩
  · rintro ⟨hhead, hlast⟩
    exact stripEnds_eq_self hhead hlast

theorem mem_of_mem_stripEnds {c : Char} (h : c ∈ stripEnds p l) : c ∈ l := by
  obtain ⟨a, b, hl, -⟩ := exists_stripEnds p l
  rw [hl]
  exact List.mem_append_left _ (List.mem_append_right _ h)

theorem stripEnds_cons_of_pos {c : Char} (hc : p c) (l : List Char) :
    stripEnds p (c :: l) = stripEnds p l := by
  rw [stripEnds, List.dropWhile_cons_of_pos hc, stripEnds]

theorem stripEnds_infix (p : Char → Bool) (l : List Char) : stripEnds p l <:+: l := by
  obtain ⟨a, b, hl, -⟩ := exists_stripEnds p l
  exact ⟨a, b, hl.symm⟩

/-- What has been stripped at its end is stripped at both ends like the whole. -/
@[simp] theorem stripEnds_stripEnd (p : Char → Bool) (l : List Char) :
    stripEnds p (stripEnd p l) = stripEnds p l := by
  obtain ⟨b, hl, hb⟩ := exists_stripEnd p l
  obtain ⟨a, b', hcore, ha, hb'⟩ := exists_stripEnds p (stripEnd p l)
  have hwhole : l = a ++ stripEnds p (stripEnd p l) ++ (b' ++ b) := by
    rw [← List.append_assoc, ← hcore, ← hl]
  have hback : ∀ c ∈ b' ++ b, p c := by
    intro c hc
    rcases List.mem_append.mp hc with hc | hc
    · exact hb' c hc
    · exact hb c hc
  have hstrip := stripEnds_append ha hback (head?_stripEnds p (stripEnd p l))
    (getLast?_stripEnds p (stripEnd p l))
  rw [← hwhole] at hstrip
  exact hstrip.symm

theorem dropWhile_append_cons {c : Char} (hc : ¬ p c) (l r : List Char) :
    (l ++ c :: r).dropWhile p = l.dropWhile p ++ c :: r := by
  induction l with
  | nil => exact List.dropWhile_cons_of_neg hc
  | cons d l ih =>
    by_cases hd : p d
    · rw [List.cons_append, List.dropWhile_cons_of_pos hd, List.dropWhile_cons_of_pos hd, ih]
    · rw [List.cons_append, List.dropWhile_cons_of_neg hd, List.dropWhile_cons_of_neg hd]
      rfl

/-- A character that stays keeps all that stands before it. -/
theorem stripEnd_append_cons {c : Char} (hc : ¬ p c) (l r : List Char) :
    stripEnd p (l ++ c :: r) = l ++ c :: stripEnd p r := by
  have hreverse : (l ++ c :: r).reverse = r.reverse ++ c :: l.reverse := by simp
  rw [stripEnd, hreverse, dropWhile_append_cons hc, stripEnd]
  simp

/-- **What stands around a character that stays** is stripped at its outer ends. -/
theorem stripEnds_append_cons (hl : ∀ c ∈ l.head?, ¬ p c) {c : Char} (hc : ¬ p c) (r : List Char) :
    stripEnds p (l ++ c :: r) = l ++ c :: stripEnd p r := by
  have hfront : l.dropWhile p = l := by
    cases l with
    | nil => rfl
    | cons d l => exact List.dropWhile_cons_of_neg (hl d rfl)
  rw [stripEnds, dropWhile_append_cons hc, hfront, stripEnd_append_cons hc]

/-! ### Texts that keep their ends -/

/-- Neither the first nor the last character of a text has a property. -/
structure EndsWithout (p : Char → Bool) (s : String) : Prop where
  first : ∀ c ∈ s.toList.head?, ¬ p c
  last : ∀ c ∈ s.toList.getLast?, ¬ p c

instance (p : Char → Bool) (s : String) : Decidable (EndsWithout p s) :=
  decidable_of_iff ((s.toList.head?.all fun c => !p c) ∧ s.toList.getLast?.all fun c => !p c)
    ⟨fun h => ⟨by simpa [Option.all_eq_true] using h.1, by simpa [Option.all_eq_true] using h.2⟩,
      fun h => ⟨by simpa [Option.all_eq_true] using h.first,
        by simpa [Option.all_eq_true] using h.last⟩⟩

variable {s : String}

theorem ofList_stripEnds_eq_self_iff :
    String.ofList (stripEnds p s.toList) = s ↔ EndsWithout p s := by
  rw [← String.toList_inj, String.toList_ofList, stripEnds_eq_self_iff]
  exact ⟨fun h => ⟨h.1, h.2⟩, fun h => ⟨h.first, h.last⟩⟩

theorem trim_eq_self_iff : trim s = s ↔ EndsWithout isBlank s := ofList_stripEnds_eq_self_iff

theorem unquote_eq_self_iff : unquote s = s ↔ EndsWithout (· == '"') s :=
  ofList_stripEnds_eq_self_iff

theorem endsWithout_ofList_stripEnds (p : Char → Bool) (l : List Char) :
    EndsWithout p (String.ofList (stripEnds p l)) := by
  refine ⟨?_, ?_⟩
  · rw [String.toList_ofList]
    exact head?_stripEnds p l
  · rw [String.toList_ofList]
    exact getLast?_stripEnds p l

theorem endsWithout_trim (s : String) : EndsWithout isBlank (trim s) :=
  endsWithout_ofList_stripEnds isBlank s.toList

theorem endsWithout_or {q : Char → Bool} :
    EndsWithout (fun c => p c || q c) s ↔ EndsWithout p s ∧ EndsWithout q s := by
  constructor
  · intro h
    exact ⟨⟨fun c hc hp => h.first c hc (Bool.or_eq_true_iff.mpr (.inl hp)),
        fun c hc hp => h.last c hc (Bool.or_eq_true_iff.mpr (.inl hp))⟩,
      ⟨fun c hc hq => h.first c hc (Bool.or_eq_true_iff.mpr (.inr hq)),
        fun c hc hq => h.last c hc (Bool.or_eq_true_iff.mpr (.inr hq))⟩⟩
  · rintro ⟨hp, hq⟩
    exact ⟨fun c hc h => (Bool.or_eq_true_iff.mp h).elim (hp.first c hc) (hq.first c hc),
      fun c hc h => (Bool.or_eq_true_iff.mp h).elim (hp.last c hc) (hq.last c hc)⟩

theorem mem_of_mem_trim {c : Char} (h : c ∈ (trim s).toList) : c ∈ s.toList := by
  rw [trim, String.toList_ofList] at h
  exact mem_of_mem_stripEnds h

theorem mem_of_mem_unquote {c : Char} (h : c ∈ (unquote s).toList) : c ∈ s.toList := by
  rw [unquote, String.toList_ofList] at h
  exact mem_of_mem_stripEnds h

theorem endsWithout_of_forall_not (h : ∀ c ∈ s.toList, ¬ p c) : EndsWithout p s :=
  ⟨fun c hc => h c (List.mem_of_mem_head? hc), fun c hc => h c (List.mem_of_mem_getLast? hc)⟩

theorem endsWithout_of_not_mem {d : Char} (h : d ∉ s.toList) : EndsWithout (· == d) s :=
  endsWithout_of_forall_not fun _ hc heq => h (eq_of_beq heq ▸ hc)

theorem trim_eq_empty (h : ∀ c ∈ s.toList, isBlank c) : trim s = "" := by
  rw [trim, stripEnds_eq_nil h, String.ofList_nil]

theorem trim_space (l : List Char) : trim (String.ofList (' ' :: l)) = trim (String.ofList l) := by
  rw [trim, trim, String.toList_ofList, String.toList_ofList, stripEnds_cons_of_pos rfl]

/-- **What stands between quotes** is read as it is. -/
theorem unquote_trim_quoted (h : EndsWithout (· == '"') s) :
    unquote (trim (String.ofList ('"' :: s.toList ++ ['"']))) = s := by
  have hquoted : EndsWithout isBlank (String.ofList ('"' :: s.toList ++ ['"'])) := by
    refine ⟨fun c hc => ?_, fun c hc => ?_⟩
    · rw [String.toList_ofList] at hc
      cases hc
      decide
    · rw [String.toList_ofList, List.getLast?_concat] at hc
      cases hc
      decide
  have hstrip := stripEnds_append (p := (· == '"')) (a := ['"']) (b := ['"'])
    (List.forall_mem_singleton.mpr rfl) (List.forall_mem_singleton.mpr rfl) h.first h.last
  rw [trim_eq_self_iff.mpr hquoted, unquote, String.toList_ofList]
  exact (congrArg String.ofList hstrip).trans String.ofList_toList

end HttpDispatch.Text
