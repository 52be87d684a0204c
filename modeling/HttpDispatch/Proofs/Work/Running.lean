import HttpDispatch.Work.Act

/-!
# Acts that run

The run of an act that is made of others, and the run of an act on a part of a larger state: it is
the run on that part, and ends as that one does.

* `Act.run_bind_of_some`, `Act.exists_of_run_bind`: one act after the other;
* `Act.run_bindVariables`: the scene when the variables of a path are given;
* `Act.run_through`: an act on a part of the state;
* `Act.Returns`: the act does not crash, whatever it finds;
* `Attempt.run_bind_of_ok`, `Attempt.run_bind_of_error`, `Attempt.run_bind_eq_ok_iff`: one attempt
  after the other.
-/

namespace HttpDispatch

variable {σ τ α β : Type}

/-- The same scene beside another state of the application. -/
def Scene.on (s : Scene σ) (app : τ) : Scene τ := ⟨s.response, s.notes.withApp app⟩

/-- The same scene with the variables of a path, unless it has some. -/
def Scene.withVariables (s : Scene σ) (v : Variables) : Scene σ :=
  { s with notes := { s.notes with pathVars := some (s.notes.pathVars.getD v) } }

namespace Act

variable {a : Act σ α} {f : α → Act σ β} {s t : Scene σ} {x : α}

theorem run_bind_of_some (h : a.run s = (some x, t)) : (a >>= f).run s = (f x).run t := by
  show (a.bind f).run s = _
  rw [run_bind, h]

theorem run_bind_of_none (h : a.run s = (none, t)) : (a >>= f).run s = (none, t) := by
  show (a.bind f).run s = _
  rw [run_bind, h]

theorem run_bindVariables (v : Variables) (s : Scene σ) :
    (bindVariables v).run s = (some s.notes.pathVars.isNone, s.withVariables v) := rfl

theorem run_bind_pure (a : Act σ α) (g : α → β) (s : Scene σ) :
    (a >>= fun x => pure (g x) : Act σ β).run s = ((a.run s).1.map g, (a.run s).2) := by
  rcases hrun : a.run s with ⟨_ | x, t⟩
  · exact run_bind_of_none hrun
  · exact run_bind_of_some hrun

theorem exists_of_run_bind {y : β} (h : (a >>= f).run s = (some y, t)) :
    ∃ x u, a.run s = (some x, u) ∧ (f x).run u = (some y, t) := by
  rcases hrun : a.run s with ⟨x, u⟩
  cases x with
  | none =>
    rw [run_bind_of_none hrun] at h
    cases h
  | some x =>
    rw [run_bind_of_some hrun] at h
    exact ⟨x, u, rfl, h⟩

theorem bind_bind {γ : Type} (a : Act σ α) (f : α → Act σ β) (g : β → Act σ γ) :
    (a.bind f).bind g = a.bind fun x => (f x).bind g := by
  induction a with
  | done x => rfl
  | crash => rfl
  | look next ih => exact congrArg look (funext ih)
  | write op next ih => exact congrArg (write op) (funext ih)
  | note change next ih => exact congrArg (note change) (funext ih)

theorem bind_done (a : Act σ α) : a.bind done = a := by
  induction a with
  | done x => rfl
  | crash => rfl
  | look next ih => exact congrArg look (funext ih)
  | write op next ih => exact congrArg (write op) (funext ih)
  | note change next ih => exact congrArg (note change) (funext ih)

instance : LawfulMonad (Act σ) := LawfulMonad.mk' (Act σ) bind_done (fun _ _ => rfl) bind_bind

theorem evolves_of_run {y : Option α} (h : a.run s = (y, t)) :
    s.response.Evolves t.response := by
  have he := evolves_run a s
  rw [h] at he
  exact he

section Through

variable {get : τ → σ} {put : σ → τ → τ}

theorem through_bind (a : Act σ α) (f : α → Act σ β) :
    (a >>= f).through get put = a.through get put >>= fun x => (f x).through get put := by
  show (a.bind f).through get put = (a.through get put).bind _
  induction a with
  | done x => rfl
  | crash => rfl
  | look next ih => exact congrArg look (funext ih)
  | write op next ih => exact congrArg (write op) (funext ih)
  | note change next ih => exact congrArg (note _) (funext fun n => ih _)

/-- **An act on a part of the state** does there what it does on the part alone. -/
theorem run_through (hget : ∀ app whole, get (put app whole) = app) (a : Act σ α) (s : Scene τ) :
    a.run (s.on (get s.notes.app)) =
      (((a.through get put).run s).1,
        ((a.through get put).run s).2.on (get ((a.through get put).run s).2.notes.app)) := by
  induction a generalizing s with
  | done x => rfl
  | crash => rfl
  | look next ih => exact ih s.response s
  | write op next ih =>
    exact ih (s.response.apply op).1 { s with response := (s.response.apply op).2 }
  | note change next ih =>
    let n := change (s.notes.withApp (get s.notes.app))
    have hn : Scene.mk s.response n =
        Scene.on ⟨s.response, n.withApp (put n.app s.notes.app)⟩ (get (put n.app s.notes.app)) := by
      rw [hget]
      rfl
    have h := ih (s.notes.withApp (get s.notes.app))
      ⟨s.response, n.withApp (put n.app s.notes.app)⟩
    exact (congrArg (next (s.notes.withApp (get s.notes.app))).run hn).trans h

end Through

/-! ### Acts that return -/

/-- **The act comes to an end** with a result, whatever it finds. -/
def Returns (a : Act σ α) : Prop := ∀ s, ∃ x s', a.run s = (some x, s')

theorem returns_through {get : τ → σ} {put : σ → τ → τ}
    (hget : ∀ app whole, get (put app whole) = app) (h : a.Returns) :
    (a.through get put).Returns := by
  intro s
  obtain ⟨x, s', hrun⟩ := h (s.on (get s.notes.app))
  rw [run_through hget a s] at hrun
  have hx : ((a.through get put).run s).1 = some x := congrArg Prod.fst hrun
  exact ⟨x, ((a.through get put).run s).2, Prod.ext hx rfl⟩

end Act

/-! ### Attempts -/

namespace Attempt

variable {x : Attempt σ α} {g : α → Attempt σ β} {s t : Scene σ}

theorem run_bind_of_ok {a : α} (h : x.run.run s = (some (.ok a), t)) :
    (x >>= g).run.run s = (g a).run.run t := by
  show (x.run >>= ExceptT.bindCont fun a => (g a).run).run s = _
  rw [Act.run_bind_of_some h]
  rfl

theorem run_bind_of_error {e : Failure} (h : x.run.run s = (some (.error e), t)) :
    (x >>= g).run.run s = (some (.error e), t) := by
  show (x.run >>= ExceptT.bindCont fun a => (g a).run).run s = _
  rw [Act.run_bind_of_some h]
  rfl

theorem run_bind_of_none (h : x.run.run s = (none, t)) : (x >>= g).run.run s = (none, t) := by
  show (x.run >>= ExceptT.bindCont fun a => (g a).run).run s = _
  rw [Act.run_bind_of_none h]

theorem run_bind_eq_ok_iff {b : β} : (x >>= g).run.run s = (some (.ok b), t) ↔
    ∃ a u, x.run.run s = (some (.ok a), u) ∧ (g a).run.run u = (some (.ok b), t) := by
  rcases hrun : x.run.run s with ⟨_ | e | a, u⟩
  · rw [run_bind_of_none hrun]
    simp
  · rw [run_bind_of_error hrun]
    simp
  · rw [run_bind_of_ok hrun]
    constructor
    · exact fun h => ⟨a, u, rfl, h⟩
    · rintro ⟨_, _, heq, h⟩
      cases heq
      exact h

theorem run_lift_eq_ok_iff {a : Act σ α} {y : α} :
    (ExceptT.lift a : Attempt σ α).run.run s = (some (.ok y), t) ↔ a.run s = (some y, t) := by
  have hlift : (ExceptT.lift a : Attempt σ α).run.run s =
      ((a.run s).1.map Except.ok, (a.run s).2) :=
    Act.run_bind_pure a Except.ok s
  rw [hlift]
  rcases a.run s with ⟨_ | x, u⟩ <;> simp

end Attempt

end HttpDispatch
