/-!
# Promises

A promise is a place for one value that several handles share. The first value that is given to it
stays; `complete` says whether it was the first. Who waits for it receives that value, or nothing
once the last handle is dropped without one.
-/

namespace HttpDispatch

/-- A place for one value, and how many handles to it there are. -/
structure Promise (α : Type) where
  value : Option α
  handles : Nat
  deriving DecidableEq, Repr

namespace Promise

variable {α : Type}

/-- An empty place with one handle. -/
def new : Promise α := ⟨none, 1⟩

/-- A place that nobody has a handle to. -/
def closed : Promise α := ⟨none, 0⟩

variable (p : Promise α)

/-- A value was given. -/
def isDone : Bool := p.value.isSome

/-- Gives a value; true if it is the first. -/
def complete (v : α) : Bool × Promise α :=
  match p.value with
  | some _ => (false, p)
  | none => (true, { p with value := some v })

/-- One more handle. -/
def clone : Promise α := { p with handles := p.handles + 1 }

/-- One handle less. -/
def drop : Promise α := { p with handles := p.handles - 1 }

/-- What who waits receives: none as long as a value may still come, then the value if there is
one. -/
def poll : Option (Option α) :=
  match p.value with
  | some v => some (some v)
  | none => if p.handles = 0 then some none else none

/-- The promise in short, for diagnostics. -/
def inspect : String := "Promise \x7b done: " ++ toString p.isDone ++ " \x7d"

end Promise

end HttpDispatch
