import HttpDispatch.Connection.Frame
import HttpDispatch.Connection.Pool

/-!
# Connections

A connection reads requests from a peer and writes the responses in the same order, one request at
a time; what comes while a request is handled waits. It lasts until a request or the pool wants it
to end, until bytes are refused, or until the peer has nothing more to send.

`Connection.advance` has a connection go on as far as it can. Each turn takes a chunk of what has
come, or takes a request off the buffer, or gives an answer; that is why it ends.
-/

namespace HttpDispatch

/-- What a connection is doing. -/
inductive Connection.Activity where
  /-- It reads. -/
  | reading
  /-- It waits for the end of an exchange; the flag says that the client wants to go on. -/
  | serving (id : Nat) (keepAlive : Bool)
  /-- It is closed. -/
  | closed
  /-- It has broken off, at a request whose size is uncountable. -/
  | aborted
  deriving DecidableEq, Repr

/-- What is left to do with the same bytes. -/
def Connection.Activity.rank : Connection.Activity → Nat
  | .serving _ _ => 1
  | _ => 0

/-- A connection: what the peer has sent and is not read, whether there will be no more, what is
read and not served, and the responses that were written. -/
structure Connection where
  unread : List Bytes := []
  ended : Bool := false
  buffer : Bytes := []
  activity : Connection.Activity := .reading
  sent : List Response := []
  deriving DecidableEq, Repr

namespace Connection

variable {σ : Type} (c : Connection)

/-- The bytes that were written. -/
def output : Bytes := c.sent.flatMap Response.encode

/-- Nothing more is read or written. -/
def isOver : Bool := c.activity = .closed || c.activity = .aborted

/-- A connection whose peer sends chunks and then nothing more. -/
def ofChunks (chunks : List Bytes) : Connection := { unread := chunks, ended := true }

/-- The peer sends a chunk. -/
def receive (chunk : Bytes) : Connection := { c with unread := c.unread ++ [chunk] }

/-- The peer will send nothing more. -/
def finish : Connection := { c with ended := true }

/-- Reads a chunk. -/
def take (chunk : Bytes) (rest : List Bytes) : Connection :=
  { c with buffer := c.buffer ++ chunk, unread := rest }

/-- Writes a response, and goes on reading if the connection is kept. -/
def respond (response : Response) (keepAlive : Bool) : Connection :=
  { c with
    sent := c.sent ++ [response.setKeepAlive keepAlive]
    activity := if keepAlive then .reading else .closed }

/-- Refuses what is at the front of the buffer. -/
def refuse (why : Refusal) : Connection :=
  { c with sent := c.sent ++ [why.response], activity := .closed }

/-- Takes a request off the buffer and waits for its answer. -/
def await (id size : Nat) (keepAlive : Bool) : Connection :=
  { c with buffer := c.buffer.drop size, activity := .serving id keepAlive }

/-- Goes on as far as it can, where a request may be as large as a limit. At a request that is
uncountable it breaks off without an answer, which is what a failed overflow check does. -/
def advance (limit : Nat) (c : Connection) (p : Pool σ) : Connection × Pool σ :=
  match _ : c.activity with
  | .closed | .aborted => (c, p)
  | .serving id keepAlive =>
    match p.answer? id with
    | none => (c, p)
    | some response => advance limit (c.respond response (keepAlive && !p.isClosing)) p
  | .reading =>
    match _ : Frame.read limit c.buffer with
    | .refused why => (c.refuse why, p)
    | .uncountable => ({ c with activity := .aborted }, p)
    | .request r size =>
      let (id, p) := p.submit r
      advance limit (c.await id size r.isKeepAlive) p
    | .cut =>
      match _ : c.unread with
      | chunk :: rest => advance limit (c.take chunk rest) p
      | [] => if c.ended then ({ c with activity := .closed }, p) else (c, p)
termination_by (c.unread.length, c.buffer.length, c.activity.rank)
decreasing_by
  · apply Prod.Lex.right
    apply Prod.Lex.right
    rw [‹c.activity = .serving id keepAlive›]
    cases keepAlive && !p.isClosing <;> exact Nat.zero_lt_one
  · apply Prod.Lex.right
    apply Prod.Lex.left
    have read := ‹Frame.read limit c.buffer = .request r size›
    have := Frame.size_pos_of_read read
    have := Frame.size_le_of_read read
    simp only [await, List.length_drop]
    omega
  · apply Prod.Lex.left
    simp [take, ‹c.unread = chunk :: rest›]

end Connection

end HttpDispatch
