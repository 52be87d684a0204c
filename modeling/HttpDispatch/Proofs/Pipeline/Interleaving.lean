import Mathlib.Logic.Relation
import HttpDispatch.Proofs.Pipeline.Committing
import HttpDispatch.Proofs.Pipeline.Script

/-!
# Interleaved calls

Calls on the tasks of a server take their steps in any order, and between them handlers that kept a
response write to it. Whatever the order, a task ends once, and its outcome tells the truth about
its response.

* `World.Truthful`: the invariant of the world: who completes a promise does so once, after the
  response was committed, and with its status;
* `Script.Honest`: a call that keeps the world truthful and in the end has done what it is to do,
  whatever becomes of the world between its steps;
* `Call.honest`: all calls are honest;
* `System.Step.invariant`: the invariant of the system, kept by every step;
* `System.tasks_end_once`: what this means for tasks.
-/

namespace HttpDispatch

variable {σ α : Type}

/-! ### Truthful worlds -/

/-- **A completed promise tells the truth**: the response is committed and has the status that the
outcome says, and one call was told to be the first. -/
structure World.Truthful (w : World) : Prop where
  outcome : ∀ {id : Nat} {t o}, w.tasks[id]? = some t → t.promise.value = some o →
    t.response.committed ∧ o.status = t.response.status
  firsts : ∀ id, w.firsts.count id = if w.tasks[id]?.any (·.promise.isDone) then 1 else 0

/-- What a world may become while others are at work. -/
structure World.Becomes (w w' : World) : Prop where
  later : w.Later w'
  truthful : w'.Truthful

theorem World.Later.becomes {w w' w'' : World} (h : w.Later w') (k : w'.Becomes w'') :
    w.Becomes w'' :=
  ⟨h.trans k.later, k.truthful⟩

/-! ### Honest calls -/

namespace Script

/-- **A call that can be trusted** in a world and in all that it may become: it completes a promise
only if the response is committed and has the status that it gives, and in the end it has seen to
what it is called for. -/
def Honest (post : World → Prop) : Script σ → World → Prop
  | returned, w => ∀ w', w.Becomes w' → post w'
  | crashed, _ => True
  | count next, w => ∀ w', w.Becomes w' → Honest post next w'
  | look id next, w => ∀ w' t, w.Becomes w' → w'.tasks[id]? = some t →
      Honest post (next t.response) w'
  | write id op next, w => ∀ w' t, w.Becomes w' → w'.tasks[id]? = some t →
      Honest post (next (t.response.apply op).1) (w'.write id t op)
  | note next, w => ∀ w' n, w.Becomes w' → Honest post (next n) w'
  | isDone id next, w => ∀ w' t, w.Becomes w' → w'.tasks[id]? = some t →
      Honest post (next t.promise.isDone) w'
  | complete id o next, w => ∀ w' t, w.Becomes w' → w'.tasks[id]? = some t →
      t.response.committed ∧ o.status = t.response.status ∧
        Honest post (next (t.promise.complete o).1) (w'.complete id t o)
  | await next, w => ∀ w' v, w.Becomes w' → Honest post (next v) w'

variable {post : World → Prop} {w w' : World} {id : Nat}

theorem Honest.later {s : Script σ} (h : Honest post s w) (k : w.Later w') : Honest post s w' := by
  cases s with
  | returned => exact fun v hv => h v (k.becomes hv)
  | crashed => trivial
  | count next => exact fun v hv => h v (k.becomes hv)
  | look id next => exact fun v t hv => h v t (k.becomes hv)
  | write id op next => exact fun v t hv => h v t (k.becomes hv)
  | note next => exact fun v n hv => h v n (k.becomes hv)
  | isDone id next => exact fun v t hv => h v t (k.becomes hv)
  | complete id o next => exact fun v t hv => h v t (k.becomes hv)
  | await next => exact fun v x hv => h v x (k.becomes hv)

theorem honest_finish {error : Option Failure} {next : Script σ} (hc : w.Committed id)
    (hnext : ∀ w', w.Later w' → w'.Ended id → Honest post next w') :
    Honest post (finish id error next) w := by
  intro w₁ t₁ h₁ ht₁ w₂ t₂ h₂ ht₂
  obtain ⟨t, ht, hcommitted⟩ := h₁.later.committed hc
  rw [ht₁] at ht
  cases ht
  obtain ⟨t', ht', hlater⟩ := h₂.later.tasks ht₁
  rw [ht₂] at ht'
  cases ht'
  have hfixed := hlater.response.fixed hcommitted
  refine ⟨hfixed.after, hfixed.status.symm, hnext _ ?_ ?_⟩
  · exact (h₁.later.trans h₂.later).trans (World.later_complete ht₂ _)
  · exact ⟨_, World.task_complete ht₂ _, Promise.isDone_complete .., hfixed.after⟩

/-- **An act is honest**, and what follows begins with what the act leaves behind. -/
theorem honest_ofAct {Q : Bool → α → Prop} {a : Act (Hub σ) α} {k : α → Script σ} {c : Bool}
    (ha : a.Leaves Q c) (hc : c → w.Committed id)
    (hk : ∀ (c' : Bool) x w', w.Later w' → Q c' x → (c' → w'.Committed id) →
      Honest post (k x) w') :
    Honest post (ofAct id a k) w := by
  induction a generalizing c w with
  | done x => exact hk c x w (.refl w) ha hc
  | crash => trivial
  | look next ih =>
    intro w₁ t hb ht
    have hknown : c → t.response.committed := fun hcc => by
      obtain ⟨t', ht', h⟩ := hb.later.committed (hc hcc)
      rw [ht] at ht'
      cases ht'
      exact h
    refine ih t.response (ha t.response hknown) (fun hcc => ⟨t, ht, ?_⟩) fun c' x w₂ h₂ =>
      hk c' x w₂ (hb.later.trans h₂)
    rcases (Bool.or_eq_true _ _).mp hcc with hcc | hcc
    · exact hknown hcc
    · exact hcc
  | write op next ih =>
    intro w₁ t hb ht
    have hwrite := World.later_write ht op
    refine ih _ (ha _) (fun hcc => ?_) fun c' x w₂ h₂ =>
      hk c' x w₂ (hb.later.trans (hwrite.trans h₂))
    rcases (Bool.or_eq_true _ _).mp hcc with hcc | hcc
    · exact hwrite.committed (hb.later.committed (hc hcc))
    · exact ⟨_, World.task_write ht op, Response.committed_apply hcc _⟩
  | note change next ih =>
    intro w₁ n hb
    exact ih n (ha n) (fun hcc => hb.later.committed (hc hcc)) fun c' x w₂ h₂ =>
      hk c' x w₂ (hb.later.trans h₂)

theorem honest_returned (hpost : ∀ w, w.Ended id → post w) (he : w.Ended id) :
    Honest post (returned : Script σ) w :=
  fun w' hb => hpost w' (hb.later.ended he)

theorem honest_ofProgress (hpost : ∀ w, w.Ended id → post w) {p : Progress (Hub σ)} {c : Bool}
    (hp : p.Commits c) (hc : c → w.Committed id) : Honest post (ofProgress id p) w := by
  unfold Progress.Commits at hp
  unfold ofProgress
  split
  · next error hstage =>
    rw [hstage] at hp
    exact honest_finish (hc hp) fun _ _ => honest_returned hpost
  · next resume hstage =>
    rw [hstage] at hp
    intro w₁ v hb
    refine honest_ofAct (hp v) (fun h => by cases h) fun c' error w₂ h₂ hcc hc' => ?_
    exact honest_finish (hc' hcc) fun _ _ => honest_returned hpost

theorem honest_send {op : Response.Op} {error : Option Failure} {next : Script σ}
    (hop : op.commits) (hnext : ∀ w', w.Later w' → w'.Ended id → Honest post next w') :
    Honest post (write id op fun _ => finish id error next) w := by
  intro w₁ t hb ht
  have hwrite := World.later_write ht op
  exact honest_finish ⟨_, World.task_write ht op, Response.committed_apply hop _⟩ fun w₂ h₂ =>
    hnext w₂ (hb.later.trans (hwrite.trans h₂))

/-- **To end tasks because the server goes down is honest**: those that have ended are left alone,
and the others end. -/
theorem honest_drain : ∀ (hs : List Handle) {w : World},
    (∀ w', w.Later w' → (∀ h ∈ hs, w'.Ended h.id) → post w') →
      Honest post (drain hs : Script σ) w
  | [], _, hpost => fun w₁ hb => hpost w₁ hb.later fun _ hmem => by cases hmem
  | h :: rest, w, hpost => by
    have hrest : ∀ w', w.Later w' → w'.Ended h.id → Honest post (drain rest : Script σ) w' := by
      intro w₁ h₁ he
      refine honest_drain rest fun w₂ h₂ hall => hpost w₂ (h₁.trans h₂) fun x hx => ?_
      rcases List.mem_cons.mp hx with hx | hx
      · rw [hx]
        exact h₂.ended he
      · exact hall x hx
    intro w₁ t hb ht
    dsimp only
    split
    · next hdone =>
      obtain ⟨o, ho⟩ := Option.isSome_iff_exists.mp hdone
      exact hrest w₁ hb.later ⟨t, ht, hdone, (hb.truthful.outcome ht ho).1⟩
    · exact honest_send rfl fun w₂ h₂ => hrest w₂ (hb.later.trans h₂)

end Script

/-! ### Steps keep the world truthful -/

namespace World

variable {w : World} {id : Nat} {t : Task}

theorem Truthful.write (h : w.Truthful) (ht : w.tasks[id]? = some t) (op : Response.Op) :
    (w.write id t op).Truthful where
  outcome {j u o} hu ho := by
    by_cases hj : id = j
    · subst hj
      rw [task_write ht] at hu
      cases hu
      obtain ⟨hc, hs⟩ := h.outcome ht ho
      have hfixed := Response.fixed_apply hc op
      exact ⟨hfixed.after, hs.trans hfixed.status.symm⟩
    · have hu' : (w.tasks.set id _)[j]? = some u := hu
      rw [List.getElem?_set_ne hj] at hu'
      exact h.outcome hu' ho
  firsts j := by
    rw [show (w.write id t op).firsts = w.firsts from rfl, h.firsts]
    by_cases hj : id = j
    · subst hj
      rw [task_write ht, ht]
      rfl
    · rw [show (w.write id t op).tasks[j]? = w.tasks[j]? from List.getElem?_set_ne hj]

theorem complete_of_done (ht : w.tasks[id]? = some t) {o o' : Outcome}
    (ho : t.promise.value = some o') : w.complete id t o = w := by
  obtain ⟨hlt, hget⟩ := List.getElem?_eq_some_iff.mp ht
  unfold complete
  rw [Promise.complete_of_done ho]
  show { w with tasks := w.tasks.set id t } = w
  rw [← hget, List.set_getElem_self]

/-- **A promise is completed once and truthfully** if the response is committed and the outcome has
its status. -/
theorem Truthful.complete (h : w.Truthful) (ht : w.tasks[id]? = some t) {o : Outcome}
    (hc : t.response.committed) (hs : o.status = t.response.status) :
    (w.complete id t o).Truthful := by
  cases hv : t.promise.value with
  | some o' => rwa [complete_of_done ht hv]
  | none =>
    have hnew : (w.complete id t o).tasks[id]? =
        some { t with promise := { t.promise with value := some o } } := by
      rw [task_complete ht, Promise.complete_of_new hv]
    have hother : ∀ {j}, id ≠ j → (w.complete id t o).tasks[j]? = w.tasks[j]? := fun hj =>
      List.getElem?_set_ne hj
    have hfirsts : (w.complete id t o).firsts = w.firsts ++ [id] := by
      unfold World.complete
      rw [Promise.complete_of_new hv]
      rfl
    constructor
    · intro j u o' hu ho
      by_cases hj : id = j
      · subst hj
        rw [hnew] at hu
        cases hu
        cases ho
        exact ⟨hc, hs⟩
      · rw [hother hj] at hu
        exact h.outcome hu ho
    · intro j
      rw [hfirsts, List.count_append, h.firsts]
      by_cases hj : id = j
      · subst hj
        rw [hnew, ht, List.count_singleton_self, Option.any_some, Option.any_some, Promise.isDone,
          hv]
        rfl
      · have hnone : [id].count j = 0 :=
          List.count_eq_zero.mpr fun hmem => hj (List.mem_singleton.mp hmem).symm
        rw [hother hj, hnone, Nat.add_zero]

theorem Truthful.count (h : w.Truthful) : w.count.Truthful := ⟨h.outcome, h.firsts⟩

theorem Truthful.enter (h : w.Truthful) (request : Request) :
    { w with tasks := w.tasks ++ [Task.of request] }.Truthful := by
  have hnew : ∀ {k : Nat} {u}, [Task.of request][k]? = some u → u.promise.value = none := by
    intro k u hu
    rw [List.mem_singleton.mp (List.mem_of_getElem? hu)]
    rfl
  constructor
  · intro j u o hu ho
    rw [List.getElem?_append] at hu
    split at hu
    · exact h.outcome hu ho
    · rw [hnew hu] at ho
      cases ho
  · intro j
    rw [List.getElem?_append]
    split
    · exact h.firsts j
    · next hj =>
      rw [h.firsts j, List.getElem?_eq_none (by omega)]
      cases hu : [Task.of request][j - w.tasks.length]? with
      | none => rfl
      | some u => rw [Option.any_some, Promise.isDone, hnew hu]; rfl

end World

/-- **A step of an honest call** keeps the world truthful, and leaves an honest call. -/
theorem Script.Step.honest {post : World → Prop} {s s' : Script σ} {w w' : World}
    (step : Step s w s' w') (hw : w.Truthful) (hs : Honest post s w) :
    w'.Truthful ∧ Honest post s' w' := by
  have hb : w.Becomes w := ⟨.refl w, hw⟩
  cases step with
  | count => exact ⟨hw.count, (hs w hb).later ⟨fun ht => ⟨_, ht, .refl _⟩⟩⟩
  | look task => exact ⟨hw, hs w _ hb task⟩
  | write task => exact ⟨hw.write task _, hs w _ hb task⟩
  | note n => exact ⟨hw, hs w n hb⟩
  | isDone task => exact ⟨hw, hs w _ hb task⟩
  | complete task =>
    obtain ⟨hc, hstatus, hnext⟩ := hs w _ hb task
    exact ⟨hw.complete task hc hstatus, hnext⟩
  | await v => exact ⟨hw, hs w v hb⟩

/-! ### Counting -/

namespace Script

/-- The call counts no rejection. -/
def Plain : Script σ → Prop
  | returned => True
  | crashed => True
  | count _ => False
  | look _ next => ∀ r, Plain (next r)
  | write _ _ next => ∀ b, Plain (next b)
  | note next => ∀ n, Plain (next n)
  | isDone _ next => ∀ b, Plain (next b)
  | complete _ _ next => ∀ b, Plain (next b)
  | await next => ∀ v, Plain (next v)

/-- The call counts a rejection at the beginning, if at all. -/
def CountsFirst : Script σ → Prop
  | count next => Plain next
  | s => Plain s

theorem plain_ofAct {id : Nat} {k : α → Script σ} (hk : ∀ x, Plain (k x)) (a : Act (Hub σ) α) :
    Plain (ofAct id a k) := by
  induction a with
  | done x => exact hk x
  | crash => trivial
  | look next ih => exact ih
  | write op next ih => exact ih
  | note change next ih => exact ih

theorem plain_finish {id : Nat} {error : Option Failure} {next : Script σ} (h : Plain next) :
    Plain (finish id error next) :=
  fun _ _ => h

theorem plain_service (d : Dispatcher σ) (h : Handle) : Plain (service d h) := by
  have hend : ∀ error, Plain (finish h.id error returned : Script σ) := fun _ _ _ => trivial
  refine plain_ofAct (fun p => ?_) _
  unfold ofProgress
  split
  · exact hend _
  · exact fun v => plain_ofAct hend _

theorem plain_drain : ∀ hs : List Handle, Plain (drain hs : Script σ)
  | [] => trivial
  | h :: rest => by
    intro b
    dsimp only
    split
    · exact plain_drain rest
    · exact fun _ => plain_finish (plain_drain rest)

theorem Plain.countsFirst {s : Script σ} (h : Plain s) : CountsFirst s := by
  cases s with
  | count next => exact absurd h id
  | _ => exact h

/-- The call is about to count a rejection. -/
def isCount : Script σ → Bool
  | count _ => true
  | _ => false

theorem Plain.isCount {s : Script σ} (h : Plain s) : s.isCount = false := by
  cases s with
  | count next => exact absurd h id
  | _ => rfl

theorem Step.rejected {s s' : Script σ} {w w' : World} (step : Step s w s' w') :
    w'.rejected = w.rejected + if s.isCount then 1 else 0 := by
  cases step <;> rfl

theorem Step.plain {s s' : Script σ} {w w' : World} (step : Step s w s' w') (h : CountsFirst s) :
    Plain s' := by
  cases step with
  | count => exact h
  | look _ => exact h _
  | write _ => exact h _
  | note n => exact h n
  | isDone _ => exact h _
  | complete _ => exact h _
  | await v => exact h v

end Script

/-! ### The system -/

/-- What may be called, for tasks that somebody has handles to. -/
inductive Operation where
  /-- The way through the dispatcher. -/
  | service (h : Handle)
  /-- A rejection. -/
  | reject (h : Handle) (reason : String)
  /-- The end of what is unfinished when the server goes down. -/
  | drain (hs : List Handle)
  /-- The end of a task whose handler has crashed. -/
  | bury (h : Handle)

namespace Operation

/-- The tasks that a call is given. -/
def handles : Operation → List Handle
  | service h => [h]
  | reject h _ => [h]
  | drain hs => hs
  | bury h => [h]

/-- The call is a rejection. -/
def isReject : Operation → Bool
  | reject _ _ => true
  | _ => false

/-- The steps of a call. -/
def script (d : Dispatcher σ) : Operation → Script σ
  | service h => .service d h
  | reject h reason => .reject h reason
  | drain hs => .drain hs
  | bury h => .bury h

/-- **Every call is honest**, and in the end the tasks that it was given have ended. -/
theorem honest (d : Dispatcher σ) (call : Operation) (w : World) :
    Script.Honest (fun w => ∀ h ∈ call.handles, w.Ended h.id) (call.script d) w := by
  have hone : ∀ (h : Handle) (w : World), w.Ended h.id → ∀ x ∈ [h], w.Ended x.id := by
    intro h w he x hx
    rwa [List.mem_singleton.mp hx]
  cases call with
  | service h =>
    refine Script.honest_ofAct (c := false) (d.leaves_service h.request) (fun hc => by cases hc)
      fun c' p w' _ hp hc => ?_
    exact Script.honest_ofProgress (hone h) hp hc
  | reject h reason =>
    intro w' _
    exact Script.honest_send rfl fun _ _ => Script.honest_returned (hone h)
  | drain hs => exact Script.honest_drain hs fun _ _ hall => hall
  | bury h => exact Script.honest_send rfl fun _ _ => Script.honest_returned (hone h)

theorem countsFirst (d : Dispatcher σ) (call : Operation) : (call.script d).CountsFirst := by
  cases call with
  | service h => exact (Script.plain_service d h).countsFirst
  | reject h reason => exact fun _ _ _ => trivial
  | drain hs => exact (Script.plain_drain hs).countsFirst
  | bury h => exact fun _ _ _ => trivial

theorem isCount_script (d : Dispatcher σ) (call : Operation) :
    (call.script d).isCount = call.isReject := by
  cases call with
  | service h => exact (Script.plain_service d h).isCount
  | reject h reason => rfl
  | drain hs => exact (Script.plain_drain hs).isCount
  | bury h => rfl

end Operation

/-- The tasks and the calls that were made, with the steps that are left of each. -/
structure System (σ : Type) where
  world : World
  calls : List (Operation × Script σ)

namespace System

/-- Nothing has happened. -/
def start : System σ := ⟨⟨[], 0, []⟩, []⟩

/-- One step of the system. -/
inductive Step : System σ → System σ → Prop where
  /-- A request comes in. -/
  | enter (s : System σ) (request : Request) :
    Step s { s with world.tasks := s.world.tasks ++ [.of request] }
  /-- Something is called. -/
  | begin (s : System σ) (d : Dispatcher σ) (call : Operation)
    (h : ∀ x ∈ call.handles, s.world.Has x) :
    Step s { s with calls := s.calls ++ [(call, call.script d)] }
  /-- A call takes its next step. -/
  | go {s : System σ} {i : Nat} {call : Operation} {script script' : Script σ} {w : World}
    (called : s.calls[i]? = some (call, script)) (step : script.Step s.world script' w) :
    Step s ⟨w, s.calls.set i (call, script')⟩
  /-- Somebody who has kept a response takes a step in writing it. -/
  | write {s : System σ} {id : Nat} {t : Task} (task : s.world.tasks[id]? = some t)
    (op : Response.Op) : Step s { s with world := s.world.write id t op }

/-- What a system becomes by any number of steps. -/
def Reaches : System σ → System σ → Prop := Relation.ReflTransGen Step

/-- **The invariant of the system**: the world is truthful, calls are honest, and every rejection is
counted or still to be counted. -/
structure Invariant (s : System σ) : Prop where
  truthful : s.world.Truthful
  honest : ∀ c ∈ s.calls, Script.Honest (fun w => ∀ h ∈ c.1.handles, w.Ended h.id) c.2 s.world
  steady : ∀ c ∈ s.calls, c.2.CountsFirst
  rejected : s.world.rejected + (s.calls.countP fun c => c.2.isCount) =
    s.calls.countP fun c => c.1.isReject

variable {s s' : System σ}

theorem Step.later (h : Step s s') : s.world.Later s'.world := by
  cases h with
  | enter request =>
    refine ⟨fun {id t} ht => ⟨t, ?_, .refl t⟩⟩
    exact (List.getElem?_append_left (List.getElem?_eq_some_iff.mp ht).1).trans ht
  | begin => exact .refl _
  | go _ step => exact step.later
  | write task op => exact World.later_write task op

theorem invariant_start : Invariant (start : System σ) where
  truthful := ⟨fun h => (by cases h), fun _ => rfl⟩
  honest c hc := by cases hc
  steady c hc := by cases hc
  rejected := rfl

/-- What a list counts when one of its elements is replaced. -/
theorem countP_set_add {β : Type} (p : β → Bool) {l : List β} {i : Nat} {a : β}
    (h : l[i]? = some a) (b : β) :
    (l.set i b).countP p + (if p a then 1 else 0) = l.countP p + if p b then 1 else 0 := by
  obtain ⟨hlt, hget⟩ := List.getElem?_eq_some_iff.mp h
  have hpos : p a → 0 < l.countP p := fun ha =>
    List.countP_pos_iff.mpr ⟨a, List.mem_of_getElem? h, ha⟩
  rw [List.countP_set hlt, hget]
  by_cases ha : p a
  · have := hpos ha
    rw [if_pos ha]
    omega
  · rw [if_neg ha]
    omega

theorem Invariant.begin (hs : s.Invariant) (d : Dispatcher σ) (call : Operation) :
    Invariant { s with calls := s.calls ++ [(call, call.script d)] } where
  truthful := hs.truthful
  honest c hc := by
    rcases List.mem_append.mp hc with hc | hc
    · exact hs.honest c hc
    · rw [List.mem_singleton.mp hc]
      exact call.honest d s.world
  steady c hc := by
    rcases List.mem_append.mp hc with hc | hc
    · exact hs.steady c hc
    · rw [List.mem_singleton.mp hc]
      exact call.countsFirst d
  rejected := by
    rw [List.countP_append, List.countP_append, ← Nat.add_assoc, hs.rejected]
    rw [List.countP_singleton, List.countP_singleton, call.isCount_script d]

theorem Invariant.go (hs : s.Invariant) {i : Nat} {call : Operation} {script script' : Script σ}
    {w : World} (called : s.calls[i]? = some (call, script))
    (step : script.Step s.world script' w) :
    Invariant ⟨w, s.calls.set i (call, script')⟩ := by
  have hmem : (call, script) ∈ s.calls := List.mem_of_getElem? called
  obtain ⟨htruthful, hhonest⟩ := step.honest hs.truthful (hs.honest _ hmem)
  have hplain := step.plain (hs.steady _ hmem)
  have hcases : ∀ c ∈ s.calls.set i (call, script'), c ∈ s.calls ∨ c = (call, script') :=
    fun c hc => List.mem_or_eq_of_mem_set hc
  refine ⟨htruthful, fun c hc => ?_, fun c hc => ?_, ?_⟩
  · rcases hcases c hc with hc | rfl
    · exact (hs.honest c hc).later step.later
    · exact hhonest
  · rcases hcases c hc with hc | rfl
    · exact hs.steady c hc
    · exact hplain.countsFirst
  · have hcount := countP_set_add (fun c => c.2.isCount) called (call, script')
    have hreject := countP_set_add (fun c => c.1.isReject) called (call, script')
    have hbalance := hs.rejected
    have hrejected := step.rejected
    rw [hplain.isCount, if_neg Bool.false_ne_true] at hcount
    dsimp only at hcount hreject ⊢
    omega

/-- **Every step keeps the invariant.** -/
theorem Step.invariant (h : Step s s') (hs : s.Invariant) : s'.Invariant := by
  have hlater := h.later
  cases h with
  | enter request =>
    exact ⟨hs.truthful.enter request, fun c hc => (hs.honest c hc).later hlater, hs.steady,
      hs.rejected⟩
  | begin d call => exact hs.begin d call
  | go called step => exact hs.go called step
  | write task op =>
    exact ⟨hs.truthful.write task op, fun c hc => (hs.honest c hc).later hlater, hs.steady,
      hs.rejected⟩

theorem Reaches.invariant (h : start.Reaches s) : s.Invariant := by
  induction h with
  | refl => exact invariant_start
  | tail _ step ih => exact step.invariant ih

theorem Reaches.later (h : s.Reaches s') : s.world.Later s'.world := by
  induction h with
  | refl => exact .refl _
  | tail _ step ih => exact ih.trans step.later

/-- **A task ends once, and its outcome tells the truth.** Requests come in, and the way through the
dispatcher, rejections, the end of what is unfinished and the end of what has crashed are called for
them in any number; the calls take their steps in any order, and who has kept a response writes to
it in between. Whatever state this comes to:

* of all who complete the promise of a task, at most one is told to be the first;
* if the promise is completed, the response is committed and has the status that the outcome says;
* a call that has returned has left the tasks that it was given with completed promises and
  committed responses;
* so many rejections are counted as were called for, but for those that have not yet begun;
* in all that follows, outcomes stay, and committed responses keep their status, fields and body. -/
theorem tasks_end_once (h : start.Reaches s) :
    (∀ id, s.world.firsts.count id ≤ 1) ∧
    (∀ (id : Nat) t o, s.world.tasks[id]? = some t → t.promise.value = some o →
      t.response.committed ∧ o.status = t.response.status) ∧
    (∀ call, (call, .returned) ∈ s.calls → ∀ x ∈ call.handles, s.world.Ended x.id) ∧
    (s.world.rejected + (s.calls.countP fun c => c.2.isCount) =
      s.calls.countP fun c => c.1.isReject) ∧
    ∀ s', s.Reaches s' → ∀ (id : Nat) t, s.world.tasks[id]? = some t →
      ∃ t', s'.world.tasks[id]? = some t' ∧
        (∀ o, t.promise.value = some o → t'.promise.value = some o) ∧
        (t.response.committed → t.response.Fixed t'.response) := by
  have hs := h.invariant
  refine ⟨fun id => ?_, fun id t o ht ho => hs.truthful.outcome ht ho, fun call hc => ?_,
    hs.rejected, fun s' h' id t ht => ?_⟩
  · rw [hs.truthful.firsts id]
    split
    · exact Nat.le_refl 1
    · exact Nat.zero_le 1
  · exact hs.honest _ hc s.world ⟨.refl _, hs.truthful⟩
  · obtain ⟨t', ht', hl⟩ := h'.later.tasks ht
    exact ⟨t', ht', fun o ho => hl.outcome ho, fun hc => hl.response.fixed hc⟩

/-- A dispatcher without routes. -/
def bareDispatcher : Dispatcher Unit :=
  ⟨[], ⟨[], [], [], [], ⟨[], none⟩⟩, [], [defaultErrorHandler false]⟩

/-- The request that is called for by several. -/
def contested : Handle := ⟨0, ⟨.get, "/", none, 1, .empty, []⟩⟩

/-- A request is led through a dispatcher while it is rejected and, because the server goes down,
drained. The rejection sends its response first, but it is the drain that completes the promise: the
outcome has the status of the rejection all the same, and that is how it stays. -/
theorem contested_request_ends_once :
    ∃ (s : System Unit) (t : Task), start.Reaches s ∧
      s.calls = [(.service contested, .returned), (.reject contested "full", .returned),
        (.drain [contested], .returned)] ∧
      s.world.tasks = [t] ∧ s.world.rejected = 1 ∧ s.world.firsts.count 0 = 1 ∧
      (∃ o, t.promise.value = some o ∧ o.status = .tooManyRequests ∧
        o.error = some (.unavailable "server is shutting down")) ∧
      t.response.status = .tooManyRequests ∧ t.response.committed := by
  have hhas : ∀ x ∈ [contested], World.Has ⟨[.of contested.request], 0, []⟩ x := by
    intro x hx
    rw [List.mem_singleton.mp hx]
    exact ⟨.of contested.request, rfl, rfl⟩
  have entered : start.Reaches (σ := Unit) _ := .tail .refl (.enter _ contested.request)
  have serviced := entered.tail (.begin _ bareDispatcher (.service contested) hhas)
  have rejected := serviced.tail (.begin _ bareDispatcher (.reject contested "full") hhas)
  have drained := rejected.tail (.begin _ bareDispatcher (.drain [contested]) hhas)
  -- the rejection commits the response before the dispatcher does
  have counted := drained.tail (.go (i := 1) rfl .count)
  have asked := counted.tail (.go (i := 2) rfl (.isDone rfl))
  have sent := asked.tail (.go (i := 1) rfl (.write rfl))
  have sent := sent.tail (.go (i := 0) rfl (.write rfl))
  have sent := sent.tail (.go (i := 2) rfl (.write rfl))
  have committed := sent.tail (.go (i := 0) rfl (.write rfl))
  have closed := committed.tail (.go (i := 0) rfl (.look rfl))
  -- all three look at it before the drain completes the promise
  have seen := closed.tail (.go (i := 0) rfl (.look rfl))
  have seen := seen.tail (.go (i := 1) rfl (.look rfl))
  have seen := seen.tail (.go (i := 2) rfl (.look rfl))
  have ended := seen.tail (.go (i := 2) rfl (.complete rfl))
  have ended := ended.tail (.go (i := 1) rfl (.complete rfl))
  have ended := ended.tail (.go (i := 0) rfl (.complete rfl))
  obtain ⟨honce, htruth, -, hcount, -⟩ := tasks_end_once ended
  obtain ⟨hcommitted, hstatus⟩ := htruth 0 _ _ rfl rfl
  exact ⟨_, _, ended, rfl, rfl, hcount, Nat.le_antisymm (honce 0) (Nat.le_refl 1),
    ⟨_, rfl, hstatus, rfl⟩, rfl, hcommitted⟩

end System

end HttpDispatch
