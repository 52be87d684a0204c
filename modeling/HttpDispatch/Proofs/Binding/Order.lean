import HttpDispatch.Binding.Wiring

/-!
# Order and registration

What is registered is consulted by ascending order, and among equal orders as it was registered: the
first item with a property is the one with the least order and, among those, the least place.

* `IsFirst`: the first of the registered items with a property;
* `find?_byOrder_eq_some`: it is the one that is found in the ordered list;
* `isOrdered_byOrder`, `IsOrdered.unique`: what the ordered list is;
* `eq_of_filter_eq`: an ordered list is known when the items of each order are;
* `exists_byOrder_insert`, `filter_byOrder`: one more item, or some less, leave the order of the
  others as it is;
* `Registration.factories`, `Registration.codecs` and the like: what one registration enters;
* `Wiring.ofList_eq`: the wiring of a list of registrations, list by list;
* `Wiring.bindPlain_cases`, `Wiring.bindReply_cases`: the first factory makes the resolver.
-/

namespace HttpDispatch

section Order

variable {α : Type} {order : α → Int} {items : List α} {p : α → Bool} {x y : α}

/-- `x` has the property, and every item that has it comes later by its order or, if the orders are
equal, by its place. -/
def IsFirst (order : α → Int) (items : List α) (p : α → Bool) (x : α) : Prop :=
  ∃ i : Nat, items[i]? = some x ∧ p x = true ∧
    ∀ (j : Nat) (y : α), items[j]? = some y → p y = true →
      order x < order y ∨ order x = order y ∧ i ≤ j

theorem IsFirst.mem (h : IsFirst order items p x) : x ∈ items := by
  obtain ⟨i, hi, -⟩ := h
  exact List.mem_of_getElem? hi

theorem IsFirst.holds (h : IsFirst order items p x) : p x = true := by
  obtain ⟨i, -, hx, -⟩ := h
  exact hx

theorem IsFirst.unique (h : IsFirst order items p x) (k : IsFirst order items p y) : x = y := by
  obtain ⟨i, hi, hx, hfirst⟩ := h
  obtain ⟨j, hj, hy, hfirst'⟩ := k
  have hij := hfirst j y hj hy
  have hji := hfirst' i x hi hx
  have hplace : i = j := by omega
  subst hplace
  rw [hi] at hj
  exact Option.some.inj hj

theorem byOrder_of_pairwise (h : (items.map order).Pairwise (· ≤ ·)) :
    byOrder order items = items :=
  List.mergeSort_of_pairwise (by simpa [List.pairwise_map] using h)

theorem map_byOrder_zipIdx :
    (items.zipIdx.mergeSort (List.zipIdxLE fun a b => order a ≤ order b)).map (·.1)
      = byOrder order items :=
  List.mergeSort_zipIdx

theorem decide_le_trans (order : α → Int) (a b c : α) (hab : decide (order a ≤ order b) = true)
    (hbc : decide (order b ≤ order c) = true) : decide (order a ≤ order c) = true :=
  decide_eq_true (Int.le_trans (of_decide_eq_true hab) (of_decide_eq_true hbc))

theorem decide_le_total (order : α → Int) (a b : α) :
    (decide (order a ≤ order b) || decide (order b ≤ order a)) = true := by
  simpa using Int.le_total (order a) (order b)

theorem pairwise_zipIdx_byOrder (order : α → Int) (items : List α) :
    (items.zipIdx.mergeSort (List.zipIdxLE fun a b => order a ≤ order b)).Pairwise fun a b =>
      order a.1 < order b.1 ∨ order a.1 = order b.1 ∧ a.2 ≤ b.2 := by
  have hsorted := List.pairwise_mergeSort (List.zipIdxLE_trans (decide_le_trans order))
    (List.zipIdxLE_total (decide_le_total order)) items.zipIdx
  refine hsorted.imp ?_
  rintro ⟨a, i⟩ ⟨b, j⟩ hab
  show order a < order b ∨ order a = order b ∧ i ≤ j
  simp only [List.zipIdxLE, decide_eq_true_eq] at hab
  split at hab
  · next hle =>
    split at hab
    · next hge =>
      right
      exact ⟨by omega, of_decide_eq_true hab⟩
    · left
      omega
  · cases hab

/-- **The items by ascending order**, those of equal order by their places. -/
def IsOrdered (order : α → Int) (items ordered : List α) : Prop :=
  ∃ placed : List (α × Nat), placed.Perm items.zipIdx ∧ ordered = placed.map Prod.fst ∧
    placed.Pairwise fun a b => order a.1 < order b.1 ∨ order a.1 = order b.1 ∧ a.2 < b.2

theorem isOrdered_byOrder (order : α → Int) (items : List α) :
    IsOrdered order items (byOrder order items) := by
  have hperm := List.mergeSort_perm items.zipIdx (List.zipIdxLE fun a b => order a ≤ order b)
  refine ⟨_, hperm, map_byOrder_zipIdx.symm, ?_⟩
  have hplaces : (items.zipIdx.map Prod.snd).Nodup := by
    rw [List.zipIdx_map_snd]
    exact List.nodup_range'
  have hdiffer := List.pairwise_map.mp ((hperm.map Prod.snd).nodup_iff.mpr hplaces)
  refine ((pairwise_zipIdx_byOrder order items).and hdiffer).imp ?_
  rintro a b ⟨hle, hne⟩
  omega

/-- **There is only one such list.** -/
theorem IsOrdered.unique {l m : List α} (h : IsOrdered order items l) (k : IsOrdered order items m) :
    l = m := by
  obtain ⟨placed, hperm, rfl, hpairwise⟩ := h
  obtain ⟨placed', hperm', rfl, hpairwise'⟩ := k
  refine congrArg (List.map Prod.fst) (List.Perm.eq_of_pairwise ?_ hpairwise hpairwise'
    (hperm.trans hperm'.symm))
  rintro a b - - hab hba
  omega

/-- An item of the greatest order, registered last, comes last. -/
theorem IsOrdered.concat {l : List α} (h : IsOrdered order items l)
    (hx : ∀ y ∈ items, order y ≤ order x) : IsOrdered order (items ++ [x]) (l ++ [x]) := by
  obtain ⟨placed, hperm, rfl, hpairwise⟩ := h
  refine ⟨placed ++ [(x, items.length)], ?_, by rw [List.map_append]; rfl, ?_⟩
  · rw [List.zipIdx_append, Nat.zero_add]
    exact hperm.append_right _
  · rw [List.pairwise_append]
    refine ⟨hpairwise, List.pairwise_singleton _ _, ?_⟩
    intro a ha b hb
    obtain rfl := List.mem_singleton.mp hb
    have hplace := List.mem_zipIdx_iff_getElem?.mp (hperm.mem_iff.mp ha)
    have hle := hx a.1 (List.mem_of_getElem? hplace)
    have hlt := (List.getElem?_eq_some_iff.mp hplace).1
    show order a.1 < order x ∨ order a.1 = order x ∧ a.2 < items.length
    omega

theorem byOrder_concat (hx : ∀ y ∈ items, order y ≤ order x) :
    byOrder order (items ++ [x]) = byOrder order items ++ [x] :=
  (isOrdered_byOrder order (items ++ [x])).unique ((isOrdered_byOrder order items).concat hx)

/-- One item in front of others comes before the first of them whose order is not less. -/
theorem exists_byOrder_cons (order : α → Int) (x : α) (items : List α) :
    ∃ front back, byOrder order (x :: items) = front ++ x :: back ∧
      byOrder order items = front ++ back ∧ (∀ y ∈ front, order y < order x) ∧
      ∀ y ∈ back, order x ≤ order y := by
  obtain ⟨front, back, hcons, hitems, hfront⟩ :=
    List.mergeSort_cons (decide_le_trans order) (decide_le_total order) x items
  have hsorted :=
    List.pairwise_mergeSort (decide_le_trans order) (decide_le_total order) (x :: items)
  rw [hcons, List.pairwise_append, List.pairwise_cons] at hsorted
  refine ⟨front, back, hcons, hitems, fun y hy => ?_, fun y hy => ?_⟩
  · have hlt := hfront y hy
    simp only [Bool.not_eq_true', decide_eq_false_iff_not] at hlt
    omega
  · exact of_decide_eq_true (hsorted.2.1.1 y hy)

theorem byOrder_cons (order : α → Int) (x : α) (items : List α) : byOrder order (x :: items) =
    (byOrder order items).filter (fun y => order y < order x) ++
      x :: (byOrder order items).filter (fun y => order x ≤ order y) := by
  obtain ⟨front, back, hcons, hitems, hfront, hback⟩ := exists_byOrder_cons order x items
  have hless : ∀ y ∈ back, ¬ order y < order x := fun y hy => by have := hback y hy; omega
  have hnot : ∀ y ∈ front, ¬ order x ≤ order y := fun y hy => by have := hfront y hy; omega
  rw [hcons, hitems, List.filter_append, List.filter_append,
    List.filter_eq_self.mpr (by simpa using hfront),
    List.filter_eq_nil_iff.mpr (by simpa using hless),
    List.filter_eq_nil_iff.mpr (by simpa using hnot),
    List.filter_eq_self.mpr (by simpa using hback), List.append_nil, List.nil_append]

/-- **One more item** among others leaves the order of the others as it is. -/
theorem exists_byOrder_insert (order : α → Int) (before : List α) (x : α) (after : List α) :
    ∃ front back, byOrder order (before ++ x :: after) = front ++ x :: back ∧
      byOrder order (before ++ after) = front ++ back := by
  induction before with
  | nil =>
    obtain ⟨front, back, hcons, hitems, -⟩ := exists_byOrder_cons order x after
    exact ⟨front, back, hcons, hitems⟩
  | cons y before ih =>
    obtain ⟨front, back, hwith, hwithout⟩ := ih
    rw [List.cons_append, List.cons_append, byOrder_cons order y, byOrder_cons order y, hwith,
      hwithout]
    simp only [List.filter_append, List.filter_cons]
    by_cases hx : order x < order y
    · rw [if_pos (decide_eq_true hx), if_neg (by simpa using hx)]
      exact ⟨front.filter fun z => order z < order y, _,
        by rw [List.append_assoc, List.cons_append], by rw [List.append_assoc]⟩
    · rw [if_neg (by simpa using hx), if_pos (by simpa using hx)]
      refine ⟨front.filter (fun z => order z < order y) ++
        back.filter (fun z => order z < order y) ++
        y :: front.filter (fun z => order y ≤ order z),
        back.filter fun z => order y ≤ order z, ?_, ?_⟩
      · rw [List.append_assoc _ (y :: _), List.cons_append]
      · rw [List.append_assoc _ (y :: _), List.cons_append]

/-- **Items that are left out** leave the order of the others as it is. -/
theorem filter_byOrder (order : α → Int) (items : List α) (p : α → Bool) :
    (byOrder order items).filter p = byOrder order (items.filter p) := by
  induction items with
  | nil => simp only [byOrder, List.filter_nil, List.mergeSort_nil]
  | cons x items ih =>
    by_cases hx : p x = true
    · rw [List.filter_cons_of_pos hx, byOrder_cons, byOrder_cons, ← ih, List.filter_append,
        List.filter_cons_of_pos hx]
      simp only [List.filter_filter, Bool.and_comm]
    · obtain ⟨front, back, hcons, hitems, -⟩ := exists_byOrder_cons order x items
      rw [List.filter_cons_of_neg hx, ← ih, hcons, hitems, List.filter_append, List.filter_append,
        List.filter_cons_of_neg hx]

theorem pairwise_byOrder (order : α → Int) (items : List α) :
    (byOrder order items).Pairwise fun a b => order a ≤ order b :=
  (List.pairwise_mergeSort (decide_le_trans order) (decide_le_total order) items).imp
    fun h => of_decide_eq_true h

/-- **Two ordered lists are equal** if those of their items that have the same order are. -/
theorem eq_of_filter_eq {l m : List α} (hl : l.Pairwise fun a b => order a ≤ order b)
    (hm : m.Pairwise fun a b => order a ≤ order b)
    (h : ∀ x, l.filter (fun y => order y = order x) = m.filter fun y => order y = order x) :
    l = m := by
  have hmem : ∀ z, z ∈ l ↔ z ∈ m := by
    intro z
    have hz : z ∈ l.filter (fun y => order y = order z) ↔
        z ∈ m.filter fun y => order y = order z := by rw [h]
    simpa using hz
  induction l generalizing m with
  | nil => exact (List.eq_nil_iff_forall_not_mem.mpr fun z hz => by simpa using (hmem z).mpr hz).symm
  | cons x l ih =>
    obtain ⟨y, m, rfl⟩ := List.exists_cons_of_ne_nil
      (List.ne_nil_of_mem ((hmem x).mp List.mem_cons_self))
    rw [List.pairwise_cons] at hl hm
    have hle : order x ≤ order y := by
      rcases List.mem_cons.mp ((hmem y).mpr List.mem_cons_self) with rfl | hy
      · exact Int.le_refl _
      · exact hl.1 y hy
    have hge : order y ≤ order x := by
      rcases List.mem_cons.mp ((hmem x).mp List.mem_cons_self) with rfl | hx
      · exact Int.le_refl _
      · exact hm.1 x hx
    -- the heads are the first items of the same order
    have hheads := h x
    rw [List.filter_cons_of_pos (by simp), List.filter_cons_of_pos (by simp; omega)] at hheads
    obtain ⟨rfl, -⟩ := List.cons.inj hheads
    have htails : ∀ z, l.filter (fun w => order w = order z) =
        m.filter fun w => order w = order z := by
      intro z
      have hz := h z
      rw [List.filter_cons, List.filter_cons] at hz
      split at hz
      · exact (List.cons.inj hz).2
      · exact hz
    refine congrArg (x :: ·) (ih hl.2 hm.2 htails fun z => ?_)
    have hz : z ∈ l.filter (fun y => order y = order z) ↔
        z ∈ m.filter fun y => order y = order z := by rw [htails]
    simpa using hz

/-- **What is found first** in the ordered list is the first of the items. -/
theorem isFirst_of_find? (h : (byOrder order items).find? p = some x) :
    IsFirst order items p x := by
  -- search the items with their places: those before the hit do not have the property, those behind
  -- it are greater by order and place
  rw [← map_byOrder_zipIdx, List.find?_map, Option.map_eq_some_iff] at h
  obtain ⟨⟨x, i⟩, hfind, rfl⟩ := h
  obtain ⟨hx, before, after, hsplit, hbefore⟩ := List.find?_eq_some_iff_append.mp hfind
  have hmem : ∀ (j : Nat) (y : α), items[j]? = some y ↔ (y, j) ∈ before ++ (x, i) :: after := by
    intro j y
    rw [← hsplit, List.mem_mergeSort, List.mem_zipIdx_iff_getElem?]
  refine ⟨i, (hmem i x).mpr (by simp), hx, ?_⟩
  intro j y hj hy
  have hlater : (y, j) = (x, i) ∨ (y, j) ∈ after := by
    rcases List.mem_append.mp ((hmem j y).mp hj) with hearly | hlate
    · have hno := hbefore _ hearly
      simp [hy] at hno
    · exact List.mem_cons.mp hlate
  rcases hlater with heq | hafter
  · obtain ⟨rfl, rfl⟩ := Prod.mk.inj heq
    exact .inr ⟨rfl, Nat.le_refl _⟩
  · have hsorted := pairwise_zipIdx_byOrder order items
    rw [hsplit, List.pairwise_append, List.pairwise_cons] at hsorted
    exact hsorted.2.1.1 (y, j) hafter

theorem find?_byOrder_eq_none :
    (byOrder order items).find? p = none ↔ ∀ y ∈ items, p y = false := by
  simp [byOrder, List.find?_eq_none]

theorem find?_byOrder_eq_some :
    (byOrder order items).find? p = some x ↔ IsFirst order items p x := by
  constructor
  · exact isFirst_of_find?
  · intro h
    cases hfind : (byOrder order items).find? p with
    | none =>
      have hno := find?_byOrder_eq_none.mp hfind x h.mem
      simp [h.holds] at hno
    | some y => rw [h.unique (isFirst_of_find? hfind)]

end Order

variable {σ : Type}

/-! ### What is registered -/

namespace Registration

/-- The factories that are entered. -/
def factories : Registration σ → List (Factory σ)
  | .defaults => defaultFactories
  | .factory f => [f]
  | _ => []

/-- The advices that are entered. -/
def advices : Registration σ → List (Advice σ)
  | .advice a => [a]
  | _ => []

/-- The factories for replies that are entered. -/
def replyFactories : Registration σ → List (ReplyFactory σ)
  | .defaults => [pinnedFactory, negotiatingFactory]
  | .replyFactory f => [f]
  | _ => []

/-- The advices for replies that are entered. -/
def replyAdvices : Registration σ → List (ReplyAdvice σ)
  | .replyAdvice a => [a]
  | _ => []

/-- The codecs that are entered. -/
def codecs : Registration σ → List Codec
  | .defaults => [.json]
  | .codec c => [c]
  | _ => []

/-- The setting of the query parameter that names a format. -/
def formatParam? : Registration σ → Option (Option String)
  | .formatParam name => some name
  | _ => none

end Registration

namespace Wiring

theorem enter_eq (w : Wiring σ) (x : Registration σ) :
    w.enter x = ⟨w.factories ++ x.factories, w.advices ++ x.advices,
      w.replyFactories ++ x.replyFactories, w.replyAdvices ++ x.replyAdvices,
      ⟨w.codecs.list ++ x.codecs, x.formatParam?.getD w.codecs.formatParam⟩⟩ := by
  cases x <;> simp [enter, Registration.factories, Registration.advices,
    Registration.replyFactories, Registration.replyAdvices, Registration.codecs,
    Registration.formatParam?]

theorem foldl_enter (l : List (Registration σ)) (w : Wiring σ) :
    l.foldl enter w = ⟨w.factories ++ l.flatMap Registration.factories,
      w.advices ++ l.flatMap Registration.advices,
      w.replyFactories ++ l.flatMap Registration.replyFactories,
      w.replyAdvices ++ l.flatMap Registration.replyAdvices,
      ⟨w.codecs.list ++ l.flatMap Registration.codecs,
        (l.filterMap Registration.formatParam?).getLastD w.codecs.formatParam⟩⟩ := by
  induction l generalizing w with
  | nil => simp
  | cons x l ih =>
    have hformat : (l.filterMap Registration.formatParam?).getLastD
        (x.formatParam?.getD w.codecs.formatParam) =
        ((x :: l).filterMap Registration.formatParam?).getLastD w.codecs.formatParam := by
      cases hx : x.formatParam? <;>
        simp only [List.filterMap_cons, hx, Option.getD, List.getLastD_cons]
    rw [List.foldl_cons, ih, enter_eq]
    simp only [hformat, List.flatMap_cons, List.append_assoc]

/-- **The wiring of what is registered**: all that is entered, ordered, and the last setting of the
query parameter that names a format. -/
theorem ofList_eq (l : List (Registration σ)) :
    ofList l = ⟨byOrder Factory.order (l.flatMap Registration.factories),
      byOrder Advice.order (l.flatMap Registration.advices),
      byOrder ReplyFactory.order (l.flatMap Registration.replyFactories),
      byOrder ReplyAdvice.order (l.flatMap Registration.replyAdvices),
      ⟨byOrder Codec.order (l.flatMap Registration.codecs),
        (l.filterMap Registration.formatParam?).getLastD (some "format")⟩⟩ := by
  rw [ofList, foldl_enter]
  simp [ordered, empty]

theorem factories_ofList (l : List (Registration σ)) :
    (ofList l).factories = byOrder Factory.order (l.flatMap Registration.factories) := by
  rw [ofList_eq]

theorem replyFactories_ofList (l : List (Registration σ)) :
    (ofList l).replyFactories =
      byOrder ReplyFactory.order (l.flatMap Registration.replyFactories) := by
  rw [ofList_eq]

theorem codecs_ofList (l : List (Registration σ)) :
    (ofList l).codecs.list = byOrder Codec.order (l.flatMap Registration.codecs) := by
  rw [ofList_eq]

/-- **Which factory makes the resolver** of a parameter that is no bean. -/
theorem bindPlain_cases (l : List (Registration σ)) (handler : String) (p : Param σ) :
    (∃ f, IsFirst Factory.order (l.flatMap Registration.factories) (fun f => f.supports p) f ∧
      (ofList l).bindPlain handler p = ExceptT.mk (f.create p (ofList l).codecs)) ∨
    (∀ f ∈ l.flatMap Registration.factories, f.supports p = false) ∧
      (ofList l).bindPlain handler p = throw (.noResolver handler p.index p.name) := by
  unfold bindPlain
  rw [factories_ofList]
  cases hfind : (byOrder Factory.order (l.flatMap Registration.factories)).find?
      fun f => f.supports p with
  | none => exact .inr ⟨find?_byOrder_eq_none.mp hfind, rfl⟩
  | some f => exact .inl ⟨f, isFirst_of_find? hfind, rfl⟩

/-- **Which factory makes the resolver** of a handler's replies. -/
theorem bindReply_cases (l : List (Registration σ)) (h : Handler σ) :
    (∃ f, IsFirst ReplyFactory.order (l.flatMap Registration.replyFactories)
        (fun f => f.supports h) f ∧
      (ofList l).bindReply h = (ExceptT.mk (f.create h (ofList l).codecs) >>= fun inner =>
        pure (advisedReply ((ofList l).replyAdvices.filter fun a => a.supports h) inner) :
          Binder σ (ReplyResolver σ))) ∨
    (∀ f ∈ l.flatMap Registration.replyFactories, f.supports h = false) ∧
      (ofList l).bindReply h = throw (.noReplyResolver h.render) := by
  unfold bindReply
  rw [replyFactories_ofList]
  cases hfind : (byOrder ReplyFactory.order (l.flatMap Registration.replyFactories)).find?
      fun f => f.supports h with
  | none => exact .inr ⟨find?_byOrder_eq_none.mp hfind, rfl⟩
  | some f => exact .inl ⟨f, isFirst_of_find? hfind, rfl⟩

end Wiring

end HttpDispatch
