import HttpDispatch.Proofs.Pipeline.Later

/-!
# Deeds

What is done for a request and can be seen by others: steps in writing its response, and signals,
each with the answer that was given to it. `Act.Does` says which deeds a run of an act consists of;
it is for acts that treat the completer of a handler as a completer, and nothing else: who holds a
handle to it may signal, and may make more handles.

* `Deed.writes`, `Deed.first?`: the steps in writing, and the first verdict, among deeds;
* `Deed.FirstOnly`: whether signals are answered as they should be;
* `Promise.Told`: what deeds make of a promise; `Promise.Told.answered`, `Promise.Told.spent`;
* `Act.Does`: the deeds of a run; `Act.Does.run`, `Act.Does.told`, `Act.Does.response`.
-/

namespace HttpDispatch

variable {σ α β : Type}

/-- A step in writing a response, or a signal with its answer. -/
inductive Deed where
  | write (op : Response.Op)
  | signal (v : Verdict) (first : Bool)

namespace Deed

/-- The step in writing that the deed is. -/
def op? : Deed → Option Response.Op
  | write op => some op
  | signal _ _ => none

/-- The verdict that the deed signals. -/
def verdict? : Deed → Option Verdict
  | write _ => none
  | signal v _ => some v

/-- The steps in writing among deeds. -/
def writes (ds : List Deed) : List Response.Op := ds.filterMap op?

/-- The first verdict that is signalled. -/
def first? (ds : List Deed) : Option Verdict := ds.findSome? verdict?

/-- **Signals are answered as they should be**: the first one is told that it is the first, and no
other is. -/
def FirstOnly (ds : List Deed) : Prop :=
  ∀ before v first after, ds = before ++ signal v first :: after →
    (first = true ↔ first? before = none)

@[simp] theorem writes_append (ds ds' : List Deed) : writes (ds ++ ds') = writes ds ++ writes ds' :=
  List.filterMap_append

@[simp] theorem first?_append (ds ds' : List Deed) :
    first? (ds ++ ds') = (first? ds).or (first? ds') :=
  List.findSome?_append

/-- What deeds make of the value that a promise has, if they are answered as they should be. -/
inductive Answered : Option Verdict → List Deed → Option Verdict → Prop
  | nil (x : Option Verdict) : Answered x [] x
  | write {op : Response.Op} {x y : Option Verdict} {ds : List Deed} (rest : Answered x ds y) :
    Answered x (write op :: ds) y
  | first {v : Verdict} {y : Option Verdict} {ds : List Deed} (rest : Answered (some v) ds y) :
    Answered none (signal v true :: ds) y
  | again {v w : Verdict} {y : Option Verdict} {ds : List Deed} (rest : Answered (some w) ds y) :
    Answered (some w) (signal v false :: ds) y

variable {x y z : Option Verdict} {ds ds' : List Deed}

theorem Answered.append (h : Answered x ds y) (k : Answered y ds' z) :
    Answered x (ds ++ ds') z := by
  induction h with
  | nil => exact k
  | write _ ih => exact .write (ih k)
  | first _ ih => exact .first (ih k)
  | again _ ih => exact .again (ih k)

/-- The value stays if there is one; otherwise it is the first verdict that is signalled. -/
theorem Answered.eq (h : Answered x ds y) : y = x.or (first? ds) := by
  induction h with
  | nil x => exact (Option.or_none).symm
  | write _ ih => exact ih
  | first _ ih => exact ih
  | again _ ih => exact ih

theorem Answered.exists_of_append (h : Answered x (ds ++ ds') y) :
    ∃ z, Answered x ds z ∧ Answered z ds' y := by
  induction ds generalizing x with
  | nil => exact ⟨x, .nil x, h⟩
  | cons deed ds ih =>
    cases h with
    | write rest =>
      obtain ⟨z, hz, hy⟩ := ih rest
      exact ⟨z, .write hz, hy⟩
    | first rest =>
      obtain ⟨z, hz, hy⟩ := ih rest
      exact ⟨z, .first hz, hy⟩
    | again rest =>
      obtain ⟨z, hz, hy⟩ := ih rest
      exact ⟨z, .again hz, hy⟩

/-- **From an empty promise on**, the first signal is told that it is the first, and no other is. -/
theorem Answered.firstOnly (h : Answered none ds y) : FirstOnly ds := by
  rintro before v first after rfl
  obtain ⟨z, hbefore, hrest⟩ := h.exists_of_append
  have hz : z = first? before := hbefore.eq
  rw [← hz]
  cases hrest with
  | first => exact iff_of_true rfl rfl
  | again => exact iff_of_false Bool.false_ne_true nofun

end Deed

/-! ### Promises -/

namespace Promise

open Deed (first? Answered)

@[simp] theorem handles_complete (p : Promise α) (v : α) :
    (p.complete v).2.handles = p.handles := by
  unfold complete
  split <;> rfl

/-- Who waits receives the value, or nothing if there is none and nobody can give one. -/
theorem poll_eq_some_iff {p : Promise α} {x : Option α} :
    p.poll = some x ↔ x = p.value ∧ (p.value = none → p.handles = 0) := by
  unfold poll
  cases p.value with
  | some v => simp [eq_comm]
  | none => simp [eq_comm, and_comm]

/-- Who waits goes on to wait as long as there is no value and somebody may give one. -/
theorem poll_eq_none_iff {p : Promise α} : p.poll = none ↔ p.value = none ∧ p.handles ≠ 0 := by
  unfold poll
  cases p.value with
  | some v => simp
  | none => simp

/-- **What deeds make of a promise.** Who signals holds a handle; handles are made by who holds one,
and dropped. -/
inductive Told : Promise Verdict → List Deed → Promise Verdict → Prop
  | nil (p : Promise Verdict) : Told p [] p
  | write {op : Response.Op} {p q : Promise Verdict} {ds : List Deed} (rest : Told p ds q) :
    Told p (.write op :: ds) q
  | signal {v : Verdict} {p q : Promise Verdict} {ds : List Deed} (held : 0 < p.handles)
    (rest : Told (p.complete v).2 ds q) : Told p (.signal v (p.complete v).1 :: ds) q
  | count {handles : Nat} {p q : Promise Verdict} {ds : List Deed} (held : 0 < p.handles)
    (rest : Told { p with handles } ds q) : Told p ds q

variable {p q o : Promise Verdict} {ds ds' : List Deed}

theorem Told.append (h : Told p ds q) (k : Told q ds' o) : Told p (ds ++ ds') o := by
  induction h with
  | nil => exact k
  | write _ ih => exact .write (ih k)
  | signal held _ ih => exact .signal held (ih k)
  | count held _ ih => exact .count held (ih k)

theorem Told.quietly (h : Told p ds q) (k : Told q [] o) : Told p ds o := by
  rw [← List.append_nil ds]
  exact h.append k

theorem Told.of_spent (h : Told p ds q) (hp : p.handles = 0) (o : Promise Verdict) :
    Told o ds o := by
  induction h with
  | nil => exact .nil o
  | write _ ih => exact .write (ih hp)
  | signal held => exact absurd hp (Nat.pos_iff_ne_zero.mp held)
  | count held => exact absurd hp (Nat.pos_iff_ne_zero.mp held)

theorem told_drop (p : Promise Verdict) : Told p [] p.drop := by
  rcases Nat.eq_zero_or_pos p.handles with hzero | hpos
  · have hdrop : p.drop = p := by
      unfold drop
      rw [hzero]
      exact congrArg (Promise.mk p.value) hzero.symm
    rw [hdrop]
    exact .nil p
  · exact .count hpos (.nil _)

theorem Told.answered (h : Told p ds q) : Answered p.value ds q.value := by
  induction h with
  | nil p => exact .nil _
  | write _ ih => exact .write ih
  | count _ _ ih => exact ih
  | @signal v p q ds _ _ ih =>
    cases hvalue : p.value with
    | none =>
      rw [complete_of_new hvalue] at ih ⊢
      exact .first ih
    | some w =>
      rw [complete_of_done hvalue] at ih ⊢
      rw [hvalue] at ih
      exact .again ih

/-- **A promise that nobody has a handle to** is not signalled any more. -/
theorem Told.spent (h : Told p ds q) (hp : p.handles = 0) : q = p ∧ first? ds = none := by
  induction h with
  | nil p => exact ⟨rfl, rfl⟩
  | write _ ih => exact ih hp
  | signal held => exact absurd hp (Nat.pos_iff_ne_zero.mp held)
  | count held => exact absurd hp (Nat.pos_iff_ne_zero.mp held)

end Promise

/-! ### Acts -/

namespace Act

variable {a : Act (Hub σ) α} {s t : Scene (Hub σ)} {ds : List Deed} {x : Option α}

/-- **The deeds of an act** in a scene: what it comes to, and the scene then. Beside its deeds it may
look at everything, make handles if it has one, and note what is neither about the completer nor
about bound handlers. -/
inductive Does : Act (Hub σ) α → Scene (Hub σ) → List Deed → Option α → Scene (Hub σ) → Prop
  | done (a : α) (s : Scene (Hub σ)) : Does (done a) s [] (some a) s
  | crash (s : Scene (Hub σ)) : Does crash s [] none s
  | look {next : Response → Act (Hub σ) α} {s t : Scene (Hub σ)} {ds : List Deed} {x : Option α}
    (rest : Does (next s.response) s ds x t) : Does (look next) s ds x t
  | write {op : Response.Op} {next : Bool → Act (Hub σ) α} {s t : Scene (Hub σ)}
    {ds : List Deed} {x : Option α}
    (rest : Does (next (s.response.apply op).1) { s with response := (s.response.apply op).2 }
      ds x t) : Does (write op next) s (.write op :: ds) x t
  | signal {v : Verdict} {change : Notes (Hub σ) → Notes (Hub σ)}
    {next : Notes (Hub σ) → Act (Hub σ) α} {s t : Scene (Hub σ)} {ds : List Deed} {x : Option α}
    (signals : ∀ n, change n = { n with signal := (n.signal.complete v).2 })
    (held : 0 < s.notes.signal.handles)
    (rest : Does (next s.notes) { s with notes := change s.notes } ds x t) :
    Does (note change next) s (.signal v (s.notes.signal.complete v).1 :: ds) x t
  | clone {change : Notes (Hub σ) → Notes (Hub σ)} {next : Notes (Hub σ) → Act (Hub σ) α}
    {s t : Scene (Hub σ)} {ds : List Deed} {x : Option α}
    (clones : ∀ n, change n = { n with signal := n.signal.clone })
    (held : 0 < s.notes.signal.handles)
    (rest : Does (next s.notes) { s with notes := change s.notes } ds x t) :
    Does (note change next) s ds x t
  | note {change : Notes (Hub σ) → Notes (Hub σ)} {next : Notes (Hub σ) → Act (Hub σ) α}
    {s t : Scene (Hub σ)} {ds : List Deed} {x : Option α}
    (keeps : ∀ n, (change n).signal = n.signal ∧ (change n).app.bound = n.app.bound)
    (rest : Does (next s.notes) { s with notes := change s.notes } ds x t) :
    Does (note change next) s ds x t

theorem Does.run (h : a.Does s ds x t) : a.run s = (x, t) := by
  induction h with
  | done => rfl
  | crash => rfl
  | look _ ih => exact ih
  | write _ ih => exact ih
  | signal _ _ _ ih => exact ih
  | clone _ _ _ ih => exact ih
  | note _ _ ih => exact ih

theorem Does.told (h : a.Does s ds x t) : s.notes.signal.Told ds t.notes.signal := by
  induction h with
  | done => exact .nil _
  | crash => exact .nil _
  | look _ ih => exact ih
  | write _ ih => exact .write ih
  | @signal v change _ s _ _ _ signals held _ ih =>
    have hchange : (change s.notes).signal = (s.notes.signal.complete v).2 :=
      congrArg Notes.signal (signals s.notes)
    exact .signal held (hchange ▸ ih)
  | @clone change _ s _ _ _ clones held _ ih =>
    have hchange : (change s.notes).signal = s.notes.signal.clone :=
      congrArg Notes.signal (clones s.notes)
    exact .count held (hchange ▸ ih)
  | @note change _ s _ _ _ keeps _ ih => exact (keeps s.notes).1 ▸ ih

theorem Does.response (h : a.Does s ds x t) :
    t.response = s.response.applyAll (Deed.writes ds) := by
  induction h with
  | done => rfl
  | crash => rfl
  | look _ ih => exact ih
  | write _ ih => exact ih
  | signal _ _ _ ih => exact ih
  | clone _ _ _ ih => exact ih
  | note _ _ ih => exact ih

theorem Does.bound (h : a.Does s ds x t) : t.notes.app.bound = s.notes.app.bound := by
  induction h with
  | done => rfl
  | crash => rfl
  | look _ ih => exact ih
  | write _ ih => exact ih
  | @signal v change _ s _ _ _ signals _ _ ih =>
    have hchange : (change s.notes).app.bound = s.notes.app.bound := by rw [signals]
    exact ih.trans hchange
  | @clone change _ s _ _ _ clones _ _ ih =>
    have hchange : (change s.notes).app.bound = s.notes.app.bound := by rw [clones]
    exact ih.trans hchange
  | @note change _ s _ _ _ keeps _ ih => exact ih.trans (keeps s.notes).2

/-! ### Acts that have deeds -/

/-- **An act treats the completer as such.** If it holds a handle, it may signal and make handles;
otherwise it leaves the completer alone. -/
def Fair (held : Bool) : Act σ α → Prop
  | done _ => True
  | crash => True
  | look next => ∀ r, Fair held (next r)
  | write _ next => ∀ b, Fair held (next b)
  | note change next =>
    (held = true ∧ ((∃ v, ∀ n, change n = { n with signal := (n.signal.complete v).2 }) ∨
        ∀ n, change n = { n with signal := n.signal.clone }) ∨
      ∀ n, (change n).signal = n.signal) ∧ ∀ n, Fair held (next n)

/-- **An act of the application that treats the completer as such** has deeds, and drops no
handle. -/
theorem exists_does {held : Bool} (a : Act σ α) (h : a.Fair held) (s : Scene (Hub σ))
    (hs : held = true → 0 < s.notes.signal.handles) :
    ∃ ds x t, a.inHub.Does s ds x t ∧ s.notes.signal.handles ≤ t.notes.signal.handles := by
  unfold inHub
  induction a generalizing s with
  | done a => exact ⟨_, _, _, .done a s, Nat.le_refl _⟩
  | crash => exact ⟨_, _, _, .crash s, Nat.le_refl _⟩
  | look next ih =>
    obtain ⟨ds, x, t, hdoes, hle⟩ := ih _ (h s.response) s hs
    exact ⟨ds, x, t, .look hdoes, hle⟩
  | write op next ih =>
    obtain ⟨ds, x, t, hdoes, hle⟩ :=
      ih _ (h _) { s with response := (s.response.apply op).2 } hs
    exact ⟨_, x, t, .write hdoes, hle⟩
  | note change next ih =>
    obtain ⟨hchange, hnext⟩ := h
    let m := change (s.notes.withApp s.notes.app.app)
    let s' : Scene (Hub σ) := { s with notes := m.withApp { s.notes.app with app := m.app } }
    rcases hchange with ⟨rfl, ⟨v, hsignals⟩ | hclones⟩ | hkeeps
    · have hhandles : s'.notes.signal.handles = s.notes.signal.handles := by
        have hm : m = _ := hsignals _
        show m.signal.handles = _
        rw [hm]
        exact Promise.handles_complete ..
      obtain ⟨ds, x, t, hdoes, hle⟩ := ih _ (hnext _) s' fun _ => hhandles ▸ hs rfl
      refine ⟨.signal v (s.notes.signal.complete v).1 :: ds, x, t,
        .signal (fun n => ?_) (hs rfl) hdoes, hhandles ▸ hle⟩
      dsimp only
      rw [hsignals]
      rfl
    · have hhandles : s'.notes.signal.handles = s.notes.signal.handles + 1 := by
        have hm : m = _ := hclones _
        show m.signal.handles = _
        rw [hm]
        rfl
      obtain ⟨ds, x, t, hdoes, hle⟩ := ih _ (hnext _) s' fun _ => hhandles ▸ Nat.succ_pos _
      refine ⟨ds, x, t, .clone (fun n => ?_) (hs rfl) hdoes, by omega⟩
      dsimp only
      rw [hclones]
      rfl
    · have hsignal : s'.notes.signal = s.notes.signal := hkeeps _
      obtain ⟨ds, x, t, hdoes, hle⟩ := ih _ (hnext _) s' fun hheld => hsignal ▸ hs hheld
      exact ⟨ds, x, t, .note (fun n => ⟨hkeeps _, rfl⟩) hdoes, hsignal ▸ hle⟩

theorem Does.bind {g : α → Act (Hub σ) β} {y : α} {z : Option β} {u : Scene (Hub σ)}
    {ds' : List Deed} (h : a.Does s ds (some y) t) (k : (g y).Does t ds' z u) :
    (a >>= g).Does s (ds ++ ds') z u := by
  generalize hx : some y = x at h
  induction h with
  | done a s =>
    cases hx
    exact k
  | crash => cases hx
  | look _ ih => exact .look (ih k hx)
  | write _ ih => exact .write (ih k hx)
  | signal signals held _ ih => exact .signal signals held (ih k hx)
  | clone clones held _ ih => exact .clone clones held (ih k hx)
  | note keeps _ ih => exact .note keeps (ih k hx)

theorem Does.bind_of_none (h : a.Does s ds none t) (g : α → Act (Hub σ) β) :
    (a >>= g).Does s ds none t := by
  generalize hx : none = x at h
  induction h with
  | done => cases hx
  | crash => exact .crash _
  | look _ ih => exact .look (ih hx)
  | write _ ih => exact .write (ih hx)
  | signal signals held _ ih => exact .signal signals held (ih hx)
  | clone clones held _ ih => exact .clone clones held (ih hx)
  | note keeps _ ih => exact .note keeps (ih hx)

/-- An act has deeds, whatever it finds. -/
def HasDeeds (a : Act (Hub σ) α) : Prop := ∀ s, ∃ ds x t, a.Does s ds x t

theorem hasDeeds_pure (x : α) : (pure x : Act (Hub σ) α).HasDeeds :=
  fun s => ⟨_, _, _, .done x s⟩

theorem hasDeeds_edit (op : Response.Op) : (edit op : Act (Hub σ) Unit).HasDeeds :=
  fun _ => ⟨_, _, _, .write (.done _ _)⟩

theorem hasDeeds_response : (response : Act (Hub σ) Response).HasDeeds :=
  fun _ => ⟨_, _, _, .look (.done _ _)⟩

theorem hasDeeds_inHub {a : Act σ α} (h : a.Fair false) : a.inHub.HasDeeds := by
  intro s
  obtain ⟨ds, x, t, hdoes, -⟩ := exists_does a h s nofun
  exact ⟨ds, x, t, hdoes⟩

theorem hasDeeds_bind {a : Act (Hub σ) α} {g : α → Act (Hub σ) β} (ha : a.HasDeeds)
    (hg : ∀ x, (g x).HasDeeds) : (a >>= g).HasDeeds := by
  intro s
  obtain ⟨ds, x, t, hdoes⟩ := ha s
  cases x with
  | none => exact ⟨_, _, _, hdoes.bind_of_none g⟩
  | some x =>
    obtain ⟨ds', y, u, hdoes'⟩ := hg x t
    exact ⟨_, _, _, hdoes.bind hdoes'⟩

end Act

end HttpDispatch
