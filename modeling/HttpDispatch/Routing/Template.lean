import HttpDispatch.Routing.Variables
import HttpDispatch.Text.Percent
import HttpDispatch.Text.Split

/-!
# Path templates

A template is a list of segments, each a literal text, a named capture written `:name` or between
braces, or a star for any one segment. A star as the last segment catches all that follows, under
the name `wildcard`. Slashes at the end and repeated slashes count for nothing in templates and in
paths.

`Template.capture` matches a path and gives what was captured; `Template.rank` orders templates so
that the more specific ones come first.
-/

namespace HttpDispatch

/-- A segment of a template. -/
inductive Segment where
  | literal (text : String)
  | capture (name : String)
  | any
  deriving DecidableEq, Repr

namespace Segment

/-- The name between braces, if there are any. -/
def braced? (s : List Char) : Option String :=
  match s with
  | '\x7b' :: r => if r.getLast? = some '\x7d' then some (String.ofList r.dropLast) else none
  | _ => none

/-- The segment that a text denotes. -/
def ofText (s : String) : Segment :=
  match s.toList with
  | ['*'] => any
  | ':' :: name => capture (String.ofList name)
  | l =>
    match braced? l with
    | some name => capture name
    | none => literal s

/-- The segment is a text. -/
def isLiteral : Segment → Bool
  | literal _ => true
  | _ => false

/-- What matching a piece of a path adds to the variables, if the piece matches. -/
def match? (s : Segment) (piece : String) (v : Variables) : Option Variables :=
  match s with
  | literal text => if text = piece then some v else none
  | capture name => some (v.insert name (Percent.decodeOrKeep piece))
  | any => some v

end Segment

/-- A path template, and the text that it is shown as. -/
structure Template where
  text : String
  segments : List Segment
  catchAll : Bool
  deriving DecidableEq, Repr

namespace Template

/-- The name of what a catch-all captures. -/
def wildcard : String := "wildcard"

/-- The path without slashes at the end, unless it is a slash alone. -/
def normal (path : String) : String :=
  if path = "/" then path else String.ofList (Text.stripEnd (· == '/') path.toList)

/-- The pieces of a path between slashes, empty ones left out. -/
def pieces (path : String) : List String := (Text.split '/' path).filter (· != "")

/-- The template without its last star, and whether it had one. -/
def cutStar (text : String) : String × Bool :=
  match text.toList.reverse with
  | ['*'] => ("", true)
  | '*' :: '/' :: r => (String.ofList r.reverse, true)
  | _ => (text, false)

/-- The template that a text denotes. -/
def ofText (s : String) : Template :=
  let text := normal s
  let cut := cutStar text
  ⟨text, (pieces cut.1).map Segment.ofText, cut.2⟩

/-- The template matches one path only. -/
def isExact (t : Template) : Bool := !t.catchAll && t.segments.all Segment.isLiteral

/-- Matches segments with the pieces at the front of a path: the variables, and the pieces that are
left. -/
def captureFront : List Segment → List String → Variables → Option (Variables × List String)
  | [], rest, v => some (v, rest)
  | _ :: _, [], _ => none
  | s :: segments, piece :: rest, v => (s.match? piece v).bind (captureFront segments rest)

/-- The variables that the pieces of a path give, if the template matches. -/
def capturePieces (t : Template) (path : List String) : Option Variables :=
  (captureFront t.segments path .empty).bind fun (v, rest) =>
    if t.catchAll then some (v.insert wildcard (Percent.decodeOrKeep ("/".intercalate rest)))
    else if rest.isEmpty then some v
    else none

/-- The variables that a path gives, if the template matches it. -/
def capture (t : Template) (path : String) : Option Variables :=
  t.capturePieces (pieces (normal path))

/-! ### Order -/

/-- The number of literal segments. -/
def literals (t : Template) : Nat := t.segments.countP Segment.isLiteral

/-- The number of other segments. -/
def captures (t : Template) : Nat := t.segments.length - t.literals

/-- Zero for templates of one path, one for those with captures, two for those that catch all. -/
def openness (t : Template) : Nat := if t.catchAll then 2 else if 0 < t.captures then 1 else 0

/-- The rank of a template; what is less open comes first, then what has more literals, then what
has fewer captures. -/
def rank (t : Template) : List Int := [t.openness, -t.literals, t.captures]

end Template

end HttpDispatch
