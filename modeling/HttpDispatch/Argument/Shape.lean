import HttpDispatch.Argument.Arg

/-!
# Shapes of entities

An entity in a body is read from a JSON value. An `EntityType` is a type name with any reader of its
values, or a name alone for what is written and never read; what the reader gives is of the type.

Most types are read by a `Shape`. `Shape.decode` turns a value into an argument of the shape's type
or says what does not fit. A record is an object with its fields, in any order and among others, or
the list of its fields in their order. A faulty field is reported before a missing one, and of
missing fields the first. `EntityType.ofShape` is the type that is read so.
-/

namespace HttpDispatch

/-- What an entity has to look like. -/
inductive Shape where
  | any
  | text
  | whole (t : WholeType)
  | list (item : Shape)
  | record (name typeName : String) (fields : List (String × Shape))
  deriving Inhabited

namespace Shape

/-- The name of the type of the arguments that have the shape. -/
def typeName : Shape → String
  | any => jsonName
  | text => textTypeName
  | whole t => t.name
  | list item => listName item.typeName
  | record _ typeName _ => typeName

/-- An integer of a width. -/
def decodeWhole (t : WholeType) (v : Json.Value) : Except Json.Mismatch Arg :=
  match v with
  | .number (.integer n) =>
    if t.holds n then .ok (.scalar (.whole t n)) else .error (.wrongValue v.found t.name)
  | v => .error (.wrongType v.found t.name)

/-- A text. -/
def decodeText (v : Json.Value) : Except Json.Mismatch Arg :=
  match v with
  | .text s => .ok (.ofText s)
  | v => .error (.wrongType v.found "a string")

/-- The fields of a record in their order, each with its value once it has one. -/
abbrev Slots := List (String × Option Arg)

/-- The values of all fields, or the first field without one. -/
def Slots.complete : Slots → Except Json.Mismatch (List (String × Arg))
  | [] => .ok []
  | (name, some a) :: r => (complete r).map ((name, a) :: ·)
  | (name, none) :: _ => .error (.missingField name)

/-- Gives a field its value. -/
def Slots.fill (name : String) (a : Arg) (slots : Slots) : Slots :=
  slots.map fun s => if s.1 = name then (s.1, some a) else s

/-- What a record with so many fields is called where a list is too short. -/
def expectedLength (name : String) (count : Nat) : String :=
  s!"struct {name} with {count} element" ++ (if count = 1 then "" else "s")

mutual

/-- The argument that a value of the shape is. -/
def decode : Shape → Json.Value → Except Json.Mismatch Arg
  | any, v => .ok (.json v)
  | text, v => decodeText v
  | whole t, v => decodeWhole t v
  | list item, v =>
    match v with
    | .list items => (items.mapM (decode item)).map (.list item.typeName)
    | v => .error (.wrongType v.found "a sequence")
  | record name typeName fields, v =>
    match v with
    | .list items => do
      let values ← decodeList name fields.length 0 fields items
      if fields.length < items.length then
        .error (.wrongLength items.length "fewer elements in array")
      else .ok (.record typeName values)
    | .object members => do
      let slots ← members.foldlM (fun slots m => decodeMember fields m.1 m.2 slots)
        (fields.map fun f => (f.1, none))
      return .record typeName (← Slots.complete slots)
    | v => .error (.wrongType v.found s!"struct {name}")

/-- The fields of a record from the items of a list; `count` is how many fields there are, and
`index` of them come before. -/
def decodeList (name : String) (count index : Nat) :
    List (String × Shape) → List Json.Value → Except Json.Mismatch (List (String × Arg))
  | [], _ => .ok []
  | _ :: _, [] => .error (.wrongLength index (expectedLength name count))
  | (field, shape) :: fields, v :: items => do
    let a ← decode shape v
    return (field, a) :: (← decodeList name count (index + 1) fields items)

/-- Gives the field that a member names the member's value; other members are passed over. -/
def decodeMember : List (String × Shape) → String → Json.Value → Slots → Except Json.Mismatch Slots
  | [], _, _, slots => .ok slots
  | (field, shape) :: fields, name, v, slots =>
    if field = name then do return slots.fill name (← decode shape v)
    else decodeMember fields name v slots

end

theorem typeName?_of_decode {s : Shape} {v : Json.Value} {a : Arg} (h : s.decode v = .ok a) :
    a.typeName? = some s.typeName := by
  cases s with
  | any =>
    rw [decode] at h
    cases h
    rfl
  | text =>
    unfold decode decodeText at h
    split at h <;> cases h
    rfl
  | whole t =>
    unfold decode decodeWhole at h
    split at h
    · split at h <;> cases h
      rfl
    · cases h
  | list item =>
    unfold decode at h
    split at h
    · next items =>
      cases hitems : items.mapM (decode item) with
      | error m => rw [hitems] at h; cases h
      | ok values => rw [hitems] at h; cases h; rfl
    · cases h
  | record name typeName fields =>
    unfold decode at h
    split at h
    · next items =>
      cases hitems : decodeList name fields.length 0 fields items with
      | error m => rw [hitems] at h; cases h
      | ok values =>
        rw [hitems] at h
        dsimp only [bind, Except.bind] at h
        split at h <;> cases h
        rfl
    · next members =>
      generalize members.foldlM (fun slots m => decodeMember fields m.1 m.2 slots) _ = filled at h
      cases filled with
      | error m => cases h
      | ok slots =>
        dsimp only [bind, Except.bind] at h
        cases hvalues : Slots.complete slots with
        | error m => rw [hvalues] at h; cases h
        | ok values => rw [hvalues] at h; cases h; rfl
    · cases h

end Shape

/-- A type of entities: its name, and the reader of its values if they can be read. -/
structure EntityType where
  name : String
  read : Option (Json.Value → Except Json.Mismatch Arg)
  typed : ∀ f ∈ read, ∀ v a, f v = .ok a → a.typeName? = some name

namespace EntityType

/-- The type of a shape. -/
def ofShape (s : Shape) : EntityType where
  name := s.typeName
  read := some s.decode
  typed f hf v a h := by
    cases hf
    exact Shape.typeName?_of_decode h

/-- A type of which only the name is known. -/
def ofName (name : String) : EntityType where
  name := name
  read := none
  typed f hf := by cases hf

/-- Entities of the type can be read. -/
def isReadable (e : EntityType) : Bool := e.read.isSome

/-- The name without path and parameters. -/
def simpleName (e : EntityType) : String :=
  Text.afterLast ':' ((Text.split '<' e.name).headD e.name)

/-- The type in short, for diagnostics. -/
def inspect (e : EntityType) : String := s!"EntityType({Text.quoted e.name})"

end EntityType

end HttpDispatch
