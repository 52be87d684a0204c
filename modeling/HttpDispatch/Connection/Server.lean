import HttpDispatch.Connection.Basic
import HttpDispatch.Settings

/-!
# Servers

A server has a pool and connections, by their numbers. Whatever happens, be it that a peer sends
something, that an answer is signalled, or that the server stops, all connections go on as far as
they can. Once the server stops, what comes is abandoned and what is handled may come to its end
until `Server.expire`.
-/

namespace HttpDispatch

/-- A pool and the connections that lead to it. -/
structure Server (σ : Type) where
  limit : Nat
  pool : Pool σ
  connections : List Connection := []

namespace Server

variable {σ : Type}

/-- A server that nobody has connected to. -/
def of (settings : ServerSettings) (service : Service σ) : Server σ :=
  ⟨settings.maxRequestSize, ⟨service, settings.maxConcurrentRequests, [], false⟩, []⟩

variable (s : Server σ)

/-- Has connections go on as far as they can. -/
def advanceAll (limit : Nat) : List Connection → Pool σ → List Connection × Pool σ
  | [], p => ([], p)
  | c :: rest, p =>
    let (c, p) := c.advance limit p
    let (rest, p) := advanceAll limit rest p
    (c :: rest, p)

/-- Has all connections go on as far as they can. -/
def advance : Server σ :=
  let (connections, pool) := advanceAll s.limit s.connections s.pool
  { s with connections, pool }

/-- One more connection; none gets through once the server stops. -/
def accept : Server σ :=
  let c : Connection := { activity := if s.pool.isClosing then .closed else .reading }
  { s with connections := s.connections ++ [c] }

/-- Changes the connection of a number. -/
def on (id : Nat) (change : Connection → Connection) : Server σ :=
  { s with connections := s.connections.modify id change }.advance

/-- A peer sends a chunk. -/
def receive (id : Nat) (chunk : Bytes) : Server σ := s.on id fun c => c.receive chunk

/-- A peer will send nothing more. -/
def finish (id : Nat) : Server σ := s.on id Connection.finish

/-- Verdicts are signalled to a run, and a handle to its signal is dropped if asked: for each
whether there was one before, and whether it is the first. -/
def signal (t : Ticket) (verdicts : List Verdict) (drops : Bool) :
    List (Bool × Bool) × Server σ :=
  let step (a : List (Bool × Bool) × Pool σ) (v : Verdict) : List (Bool × Bool) × Pool σ :=
    let (answer, pool) := a.2.signal t v
    (a.1 ++ [answer], pool)
  let (answers, pool) := verdicts.foldl step ([], s.pool)
  let pool := if drops then pool.drop t else pool
  (answers, { s with pool := pool.settle t.exchange }.advance)

/-- Stops: nothing is taken in any more. -/
def stop : Server σ := { s with pool := s.pool.close }.advance

/-- The time for what is still handled is over. -/
def expire : Server σ := { s with pool := s.pool.abandon }.advance

/-- The server stops, and nothing is handled any more. -/
def isDrained : Bool := s.pool.isClosing && s.pool.atWork.isEmpty

end Server

end HttpDispatch
