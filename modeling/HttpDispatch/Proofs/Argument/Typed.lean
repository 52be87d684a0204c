import HttpDispatch.Argument.Shape

/-!
# Arguments of a shape

What is decoded by a shape has that shape, all the way down: the items of a list have the shape of
its items, and a record has its fields in their order, each with a value of a shape that the field
has. That it has the type of the shape as well is part of `EntityType.ofShape`.

* `bind_eq_ok_iff`, `exists_of_mapM_ok`: what computations that succeed consist of;
* `Shape.Holds`: the arguments of a shape;
* `Shape.decode_holds`: what is decoded has the shape;
* `Args.get_of_typed`: an argument is given out under the name of its type.
-/

namespace HttpDispatch

theorem Args.get_of_typed {args : Args} {a : Arg} {index : Nat} {name : String}
    (h : a.typeName? = some name) (hget : args[index]? = some a) :
    args.get name index = .ok a := by
  rw [get, hget]
  exact if_pos h

/-! ### Computations that succeed -/

section Succeed

variable {ε α β : Type}

@[simp] theorem bind_eq_ok_iff {x : Except ε α} {f : α → Except ε β} {b : β} :
    x >>= f = .ok b ↔ ∃ a, x = .ok a ∧ f a = .ok b := by
  cases x <;> simp [bind, Except.bind]

@[simp] theorem map_eq_ok_iff {x : Except ε α} {f : α → β} {b : β} :
    x.map f = .ok b ↔ ∃ a, x = .ok a ∧ f a = b := by
  cases x <;> simp [Except.map]

@[simp] theorem mapError_eq_ok_iff {δ : Type} {x : Except ε α} {f : ε → δ} {a : α} :
    x.mapError f = .ok a ↔ x = .ok a := by
  cases x with
  | error e => exact ⟨nofun, nofun⟩
  | ok b =>
    show (.ok b : Except δ α) = .ok a ↔ (.ok b : Except ε α) = .ok a
    simp

theorem exists_of_mapM_ok {f : α → Except ε β} {l : List α} {out : List β}
    (h : l.mapM f = .ok out) : ∀ b ∈ out, ∃ a ∈ l, f a = .ok b := by
  induction l generalizing out with
  | nil =>
    cases h
    intro b hb
    cases hb
  | cons a l ih =>
    rw [List.mapM_cons] at h
    obtain ⟨b, hb, h⟩ := bind_eq_ok_iff.mp h
    obtain ⟨bs, hbs, h⟩ := bind_eq_ok_iff.mp h
    cases h
    intro c hc
    rcases List.mem_cons.mp hc with rfl | hc
    · exact ⟨a, List.mem_cons_self, hb⟩
    · obtain ⟨x, hx, hxc⟩ := ih hbs c hc
      exact ⟨x, List.mem_cons_of_mem _ hx, hxc⟩

end Succeed

namespace Shape

mutual

/-- **The arguments of a shape.** -/
def Holds : Shape → Arg → Prop
  | any, a => ∃ v, a = .json v
  | text, a => ∃ s, a = .ofText s
  | whole t, a => ∃ n, t.holds n ∧ a = .scalar (.whole t n)
  | list item, a => ∃ items, a = .list item.typeName items ∧ ∀ x ∈ items, Holds item x
  | record _ typeName fields, a => ∃ values, a = .record typeName values ∧
      values.map (·.1) = fields.map (·.1) ∧ ∀ q ∈ values, FieldHolds fields q

/-- Some field has the name, and a shape that the value has. -/
def FieldHolds : List (String × Shape) → String × Arg → Prop
  | [], _ => False
  | (name, s) :: fields, q => (name = q.1 ∧ Holds s q.2) ∨ FieldHolds fields q

end

/-! ### Slots -/

/-- Every slot that is filled has a value that its field may have. -/
def Slots.Fit (fields : List (String × Shape)) (slots : Slots) : Prop :=
  ∀ q ∈ slots, ∀ a ∈ q.2, FieldHolds fields (q.1, a)

variable {fields : List (String × Shape)} {slots : Slots} {name : String} {a : Arg}

@[simp] theorem Slots.names_fill (name : String) (a : Arg) (slots : Slots) :
    (Slots.fill name a slots).map (·.1) = slots.map (·.1) := by
  rw [fill, List.map_map]
  refine List.map_congr_left fun q _ => ?_
  by_cases hq : q.1 = name <;> simp [hq]

theorem Slots.Fit.fill (h : Slots.Fit fields slots) (ha : FieldHolds fields (name, a)) :
    Slots.Fit fields (Slots.fill name a slots) := by
  intro q hq b hb
  obtain ⟨q', hq', rfl⟩ := List.mem_map.mp hq
  by_cases hname : q'.1 = name
  · rw [if_pos hname] at hb ⊢
    cases hb
    exact hname ▸ ha
  · rw [if_neg hname] at hb ⊢
    exact h q' hq' b hb

theorem Slots.complete_ok : ∀ {slots : Slots} {values : List (String × Arg)},
    Slots.complete slots = .ok values → slots = values.map fun q => (q.1, some q.2)
  | [], _, h => by
    cases h
    rfl
  | (name, none) :: slots, _, h => by cases h
  | (name, some a) :: slots, _, h => by
    rw [complete] at h
    obtain ⟨values, hvalues, rfl⟩ := map_eq_ok_iff.mp h
    rw [complete_ok hvalues]
    rfl

/-- Members keep the names of slots and the shapes of their values, if each of them does. -/
theorem Slots.foldlM_fit {members : List (String × Json.Value)} {slots' : Slots}
    {step : Slots → String × Json.Value → Except Json.Mismatch Slots}
    (hstep : ∀ {slots slots' m}, step slots m = .ok slots' → slots' = slots ∨
      ∃ a, FieldHolds fields (m.1, a) ∧ slots' = Slots.fill m.1 a slots)
    (hfit : Slots.Fit fields slots) (h : members.foldlM step slots = .ok slots') :
    slots'.map (·.1) = slots.map (·.1) ∧ Slots.Fit fields slots' := by
  induction members generalizing slots with
  | nil =>
    cases h
    exact ⟨rfl, hfit⟩
  | cons m members ih =>
    rw [List.foldlM_cons] at h
    obtain ⟨next, hm, hrest⟩ := bind_eq_ok_iff.mp h
    rcases hstep hm with rfl | ⟨a, ha, rfl⟩
    · exact ih hfit hrest
    · obtain ⟨hnames, hfit'⟩ := ih (hfit.fill ha) hrest
      exact ⟨hnames.trans (names_fill ..), hfit'⟩

/-! ### Decoding -/

mutual

/-- **What is decoded by a shape has the shape.** -/
theorem decode_holds : ∀ (s : Shape) {v : Json.Value} {a : Arg}, s.decode v = .ok a → s.Holds a
  | .any, v, a, h => by
    rw [decode] at h
    cases h
    exact ⟨v, rfl⟩
  | .text, v, a, h => by
    unfold decode decodeText at h
    split at h
    · cases h
      exact ⟨_, rfl⟩
    · cases h
  | .whole t, v, a, h => by
    unfold decode decodeWhole at h
    split at h
    · split at h
      · next hrange =>
        cases h
        exact ⟨_, hrange, rfl⟩
      · cases h
    · cases h
  | .list item, v, a, h => by
    unfold decode at h
    split at h
    · next items =>
      obtain ⟨values, hvalues, rfl⟩ := map_eq_ok_iff.mp h
      refine ⟨values, rfl, fun a ha => ?_⟩
      obtain ⟨v, -, hv⟩ := exists_of_mapM_ok hvalues a ha
      exact decode_holds item hv
    · cases h
  | .record name typeName fields, v, a, h => by
    unfold decode at h
    split at h
    · next items =>
      obtain ⟨values, hitems, h⟩ := bind_eq_ok_iff.mp h
      obtain ⟨hnames, hvalues⟩ := decodeList_holds fields hitems
      split at h
      · cases h
      · cases h
        exact ⟨values, rfl, hnames, hvalues⟩
    · next members =>
      obtain ⟨slots, hslots, h⟩ := bind_eq_ok_iff.mp h
      obtain ⟨values, hvalues, h⟩ := bind_eq_ok_iff.mp h
      cases h
      have hempty : Slots.Fit fields (fields.map fun f => (f.1, none)) := by
        intro q hq a ha
        obtain ⟨f, -, rfl⟩ := List.mem_map.mp hq
        cases ha
      obtain ⟨hnames, hfit⟩ := Slots.foldlM_fit (decodeMember_holds fields) hempty hslots
      rw [Slots.complete_ok hvalues] at hnames hfit
      rw [List.map_map, List.map_map] at hnames
      exact ⟨values, rfl, hnames, fun q hq => hfit _ (List.mem_map_of_mem hq) q.2 rfl⟩
    · cases h

theorem decodeList_holds {name : String} {count : Nat} : ∀ (fields : List (String × Shape))
    {index : Nat} {items : List Json.Value} {values : List (String × Arg)},
    decodeList name count index fields items = .ok values →
      values.map (·.1) = fields.map (·.1) ∧ ∀ q ∈ values, FieldHolds fields q
  | [], index, items, values, h => by
    rw [decodeList] at h
    cases h
    exact ⟨rfl, fun q hq => by cases hq⟩
  | (field, shape) :: fields, index, [], values, h => by
    rw [decodeList] at h
    cases h
  | (field, shape) :: fields, index, v :: items, values, h => by
    rw [decodeList] at h
    obtain ⟨a, hv, h⟩ := bind_eq_ok_iff.mp h
    obtain ⟨rest, hrest, h⟩ := bind_eq_ok_iff.mp h
    cases h
    obtain ⟨hnames, hvalues⟩ := decodeList_holds fields hrest
    refine ⟨by rw [List.map_cons, List.map_cons, hnames], fun q hq => ?_⟩
    rcases List.mem_cons.mp hq with rfl | hq
    · exact .inl ⟨rfl, decode_holds shape hv⟩
    · exact .inr (hvalues q hq)

/-- A member gives its field a value of the field's shape, or is passed over. -/
theorem decodeMember_holds {name : String} {v : Json.Value} {slots slots' : Slots} :
    ∀ (fields : List (String × Shape)), decodeMember fields name v slots = .ok slots' →
      slots' = slots ∨ ∃ a, FieldHolds fields (name, a) ∧ slots' = Slots.fill name a slots
  | [], h => by
    rw [decodeMember] at h
    cases h
    exact .inl rfl
  | (field, shape) :: fields, h => by
    rw [decodeMember] at h
    split at h
    · next hname =>
      obtain ⟨a, hv, h⟩ := bind_eq_ok_iff.mp h
      cases h
      exact .inr ⟨a, .inl ⟨hname, decode_holds shape hv⟩, rfl⟩
    · rcases decodeMember_holds fields h with hsame | ⟨a, ha, hfill⟩
      · exact .inl hsame
      · exact .inr ⟨a, .inr ha, hfill⟩

end

end Shape

end HttpDispatch
