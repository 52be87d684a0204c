import HttpDispatch.Message.Fields
import HttpDispatch.Message.MediaType

/-!
# What a client accepts

The ranges of an `Accept` header in the order of preference: higher quality first, and of equal
quality the more definite first; ranges equal in both keep their order. Entries that are no media
types or have no positive quality are left out. A client that says nothing accepts everything.
-/

namespace HttpDispatch.Accept

/-- The range is wanted at all. -/
def isWanted (m : MediaType) : Bool := Binary.lt Binary.single 0 m.quality

/-- `a` may stand before `b`. -/
def before (a b : MediaType) : Bool :=
  Binary.lt Binary.single b.quality a.quality ||
    (!Binary.lt Binary.single a.quality b.quality && b.definiteness ≤ a.definiteness)

/-- The ranges that entries name, most wanted first. -/
def ofEntries (entries : List String) : List MediaType :=
  ((entries.filterMap MediaType.ofText?).filter isWanted).mergeSort before

/-- The ranges that the fields of a request name. -/
def ofFields (h : Fields) : List MediaType :=
  match h.elements "accept" with
  | [] => [.all]
  | entries => ofEntries entries

end HttpDispatch.Accept
