import HttpDispatch.Pipeline.Service

/-!
# Pools

A pool bounds how many requests are handled at a time. `Pool.submit` takes a request in and has it
handled, rejects it if there is no room, or abandons it if the pool is closing. A request that
waits for a signal keeps its place; one whose handler has crashed is answered and gives it back.
-/

namespace HttpDispatch

/-- A dispatcher at work on a bounded number of requests. -/
structure Pool (σ : Type) where
  service : Service σ
  capacity : Nat
  admitted : List Nat := []
  isClosing : Bool := false

namespace Pool

variable {σ : Type} (p : Pool σ)

/-- The exchange of a number has not come to its end. -/
def isPending (id : Nat) : Bool := (p.service.exchanges[id]?).any fun e => !e.isDone

/-- The exchanges that were admitted and have not come to their ends. -/
def atWork : List Nat := p.admitted.filter p.isPending

/-- The response of an exchange that has come to its end. -/
def answer? (id : Nat) : Option Response :=
  ((p.service.exchanges[id]?).filter (·.isDone)).map (·.response)

/-- Begins an exchange that there is room for. -/
def start (id : Nat) : Pool σ :=
  { p with service := (p.service.start id).bury id, admitted := p.admitted ++ [id] }

/-- Takes in a request: the number of its exchange. -/
def submit (request : Request) : Nat × Pool σ :=
  let id := p.service.next
  let p := { p with service := p.service.submit request }
  if p.isClosing then (id, { p with service := p.service.abandon id })
  else if p.capacity ≤ p.atWork.length then
    (id, { p with service := p.service.reject id "too many concurrent requests" })
  else (id, p.start id)

/-- Has an exchange go on after something was signalled. -/
def settle (id : Nat) : Pool σ := { p with service := (p.service.settle id).bury id }

/-- Signals a verdict: whether there was one before, and whether this is the first. -/
def signal (t : Ticket) (v : Verdict) : (Bool × Bool) × Pool σ :=
  let (answer, service) := p.service.signal t v
  (answer, { p with service })

/-- Drops a handle to a signal. -/
def drop (t : Ticket) : Pool σ := { p with service := p.service.drop t }

/-- Takes in nothing any more. -/
def close : Pool σ := { p with isClosing := true }

/-- Ends everything that has not come to its end. -/
def abandon : Pool σ := { p with service := p.atWork.foldl Service.abandon p.service }

end Pool

end HttpDispatch
