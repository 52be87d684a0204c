/-!
# Letter case

Names in messages are compared without regard to the case of ASCII letters; other letters keep
their case. `lower` is the normal form of a name, and two names agree when their normal forms do.
-/

namespace HttpDispatch.Text

/-- The text with its ASCII letters in lower case. -/
def lower (s : String) : String := String.ofList (s.toList.map Char.toLower)

/-- Two texts agree up to the case of ASCII letters. -/
def sameName (a b : String) : Bool := lower a == lower b

end HttpDispatch.Text
