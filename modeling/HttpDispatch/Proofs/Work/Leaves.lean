import HttpDispatch.Proofs.Message.Committed
import HttpDispatch.Work.Act

/-!
# What acts leave behind

`Act.Leaves Q c a` says that every result of the act `a` satisfies `Q`, whatever others do to the
response and to the notes between its steps. The only thing that is known of the response is
whether it is committed: that is so at the beginning if `c` is true, it can be seen, and a step
may bring it about; once it is so, it stays.

* `Act.leaves_bind`, `Act.leaves_after`: the rules for acts one after the other;
* `Act.Leaves.run`: what it says about an act that nobody interferes with.
-/

namespace HttpDispatch

/-- A response is committed after the step, whoever has been faster. -/
def Response.Op.commits : Response.Op → Bool
  | .commit => true
  | .send _ _ _ => true
  | _ => false

theorem Response.committed_apply {op : Response.Op} (h : op.commits) (r : Response) :
    (r.apply op).2.committed := by
  cases op with
  | commit => rfl
  | send status contentType body => exact committed_send ..
  | _ => cases h

namespace Act

variable {σ α β : Type} {Q : Bool → α → Prop} {R : Bool → β → Prop} {c : Bool}

/-- **What an act leaves behind** if it comes to an end, where the response is known to be committed
if the flag is true. -/
def Leaves (Q : Bool → α → Prop) : Bool → Act σ α → Prop
  | c, done a => Q c a
  | _, crash => True
  | c, look next => ∀ r : Response, (c → r.committed) → Leaves Q (c || r.committed) (next r)
  | c, write op next => ∀ b, Leaves Q (c || op.commits) (next b)
  | c, note _ next => ∀ n, Leaves Q c (next n)

theorem leaves_pure {x : α} (h : Q c x) : Leaves Q c (pure x : Act σ α) := h

/-- **Acts one after the other**: what the first leaves, the second begins with. -/
theorem leaves_bind {a : Act σ β} {f : β → Act σ α} (ha : Leaves R c a)
    (hf : ∀ c x, R c x → Leaves Q c (f x)) : Leaves Q c (a >>= f) := by
  show Leaves Q c (a.bind f)
  induction a generalizing c with
  | done x => exact hf c x ha
  | crash => trivial
  | look next ih => exact fun r hr => ih r (ha r hr)
  | write op next ih => exact fun b => ih b (ha b)
  | note change next ih => exact fun n => ih n (ha n)

theorem leaves_after {a : Act σ β} {f : β → Act σ α} (hf : ∀ c x, Leaves Q c (f x)) :
    Leaves Q c (a >>= f) := by
  show Leaves Q c (a.bind f)
  induction a generalizing c with
  | done x => exact hf c x
  | crash => trivial
  | look next ih => exact fun r _ => ih r
  | write op next ih => exact fun b => ih b
  | note change next ih => exact fun n => ih n

theorem leaves_edit {Q : Bool → Unit → Prop} {op : Response.Op}
    (h : Q (c || op.commits) ()) :
    Leaves Q c (edit op : Act σ Unit) := fun _ => h

theorem leaves_response {Q : Bool → Response → Prop}
    (h : ∀ r, (c → r.committed) → Q (c || r.committed) r) :
    Leaves Q c (response : Act σ Response) := h

/-- **An act that nobody interferes with** leaves the same. -/
theorem Leaves.run {a : Act σ α} {s : Scene σ} {x : α} (h : Leaves Q c a)
    (hc : c → s.response.committed) (hr : (a.run s).1 = some x) :
    ∃ c' : Bool, Q c' x ∧ (c' → (a.run s).2.response.committed) := by
  induction a generalizing c s with
  | done y =>
    cases hr
    exact ⟨c, h, hc⟩
  | crash => cases hr
  | look next ih =>
    refine ih s.response (h s.response hc) (fun hcc => ?_) hr
    rcases (Bool.or_eq_true _ _).mp hcc with hcc | hcc
    · exact hc hcc
    · exact hcc
  | write op next ih =>
    refine ih _ (h _) (fun hcc => ?_) hr
    rcases (Bool.or_eq_true _ _).mp hcc with hcc | hcc
    · exact (Response.fixed_apply (hc hcc) op).after
    · exact Response.committed_apply hcc _
  | note change next ih => exact ih s.notes (h _) hc hr

end Act

end HttpDispatch
