import HttpDispatch.Binding.Resolver

/-!
# Negotiation

How a reply becomes the body of a response. Replies that describe themselves are bodies as they
are; an entity needs a codec. Where the handler names one, that codec writes the entity
(`writePinned`); otherwise the client chooses (`negotiate`): by a format in the query, or else by
what it accepts, the codec being the first that writes the most wanted media type that any codec
writes.
-/

namespace HttpDispatch

/-- What a reply adds to the response. -/
inductive Payload where
  | body (contentType : MediaType) (data : Bytes)
  | written
  | nothing
  deriving DecidableEq, Repr

/-- The media type of text in UTF-8. -/
def utf8Text : MediaType := MediaType.plainText.withParam "charset" "utf-8"

/-- What a reply adds if it describes itself; an entity does not. -/
def Reply.payload? : Reply → Option Payload
  | .nothing => some .nothing
  | .written => some .written
  | .text s => some (.body utf8Text (Utf8.encode s))
  | .scalar s => some (.body utf8Text (Utf8.encode s))
  | .bytes data => some (.body .octetStream data)
  | .entity _ _ => none

/-- The entity as a codec writes it. -/
def writeEntity (codec : Codec) (e : EntityType) (v : Json.Value) : Except Failure Payload :=
  match codec.encode v e with
  | .ok data => .ok (.body codec.mediaType data)
  | .error f => .error (.internal s!"failed to serialize {e.simpleName}: {f.message}")

/-- The media type of a format that a request asks for. -/
def formatType (format : String) : Except Failure MediaType :=
  match MediaType.ofFormat? format with
  | some m => .ok m
  | none => .error (.unsupported s!"unknown format '{format}'")

/-- The codec that writes entities of a type in the format that the request asks for. -/
def codecForFormat (codecs : Codecs) (e : EntityType) (format : String) : Except Failure Codec := do
  let m ← formatType format
  match codecs.writer? m e with
  | some codec => .ok codec
  | none => .error (.unsupported s!"no serializer writes {e.simpleName} as '{m.essence}'")

/-- The codec that writes entities of a type in the most wanted media type that is possible. -/
def codecForAccept (codecs : Codecs) (e : EntityType) (accepted : List MediaType) :
    Except Failure Codec :=
  match accepted.findSome? fun m => codecs.writer? m e with
  | some codec => .ok codec
  | none =>
    let list := ", ".intercalate (accepted.map MediaType.render)
    .error (.notAcceptable s!"cannot produce {e.simpleName} for Accept [{list}]")

/-- The codec that the client's wishes lead to. -/
def negotiate (codecs : Codecs) (e : EntityType) (r : Request) : Except Failure Codec :=
  match codecs.format? r with
  | some format => codecForFormat codecs e format
  | none => codecForAccept codecs e r.accepted

/-- What a reply adds where the client chooses the codec. -/
def writeNegotiated (codecs : Codecs) (reply : Reply) (r : Request) : Except Failure Payload :=
  match reply with
  | .entity e v => do writeEntity (← negotiate codecs e r) e v
  | reply => .ok (reply.payload?.getD .nothing)

/-- What a reply adds where the codec is given; a format in the query has to suit it. -/
def writePinned (codec : Codec) (codecs : Codecs) (reply : Reply) (r : Request) :
    Except Failure Payload :=
  match reply with
  | .entity e v => do
    let m ← match codecs.format? r with
      | some format => formatType format
      | none => .ok codec.mediaType
    if codec.writes m e then writeEntity codec e v
    else
      .error (.unsupported
        s!"serializer '{codec.name}' cannot write {e.simpleName} as '{m.essence}'")
  | reply => .ok (reply.payload?.getD .nothing)

/-! ### Resolvers of replies -/

variable {σ : Type}

/-- Turns a reply into what it adds to the response. -/
abbrev ReplyResolver (σ : Type) := Reply → Request → Attempt σ Payload

/-- Makes resolvers of replies for the handlers that it supports; making one may change the state
of the application. -/
structure ReplyFactory (σ : Type) where
  order : Int
  supports : Handler σ → Bool
  create : Handler σ → Codecs → σ → Except BindFault (ReplyResolver σ) × σ

/-- A resolver without steps. -/
def ReplyResolver.ofExcept (f : Reply → Request → Except Failure Payload) : ReplyResolver σ :=
  fun reply r => Attempt.ofExcept (f reply r)

/-- The client chooses the codec. -/
def negotiatingFactory : ReplyFactory σ where
  order := lastOrder
  supports h := h.codec.isNone
  create _ codecs app := (.ok (ReplyResolver.ofExcept (writeNegotiated codecs)), app)

/-- The resolver of a handler that names its codec. -/
def pinnedResolver (h : Handler σ) (codecs : Codecs) : Except BindFault (ReplyResolver σ) :=
  let name := h.codec.getD ""
  match codecs.named? name with
  | some codec => .ok (ReplyResolver.ofExcept (writePinned codec codecs))
  | none => .error (.missingCodec h.render name)

/-- The handler names the codec. -/
def pinnedFactory : ReplyFactory σ where
  order := 0
  supports h := h.codec.isSome
  create h codecs app := (pinnedResolver h codecs, app)

end HttpDispatch
