/-!
# Request methods

The nine standard methods and any other token. Names are compared exactly: `ofName` and `name` are
inverse to each other on the methods that `ofName` gives.
-/

namespace HttpDispatch

/-- A request method. -/
inductive Method where
  | get
  | post
  | put
  | delete
  | head
  | options
  | patch
  | connect
  | trace
  | custom (token : String)
  deriving DecidableEq, Repr

namespace Method

/-- The standard methods with their names. -/
def standard : List (String × Method) :=
  [("GET", .get), ("POST", .post), ("PUT", .put), ("DELETE", .delete), ("HEAD", .head),
    ("OPTIONS", .options), ("PATCH", .patch), ("CONNECT", .connect), ("TRACE", .trace)]

/-- The method of a name; a name that is not standard is a method of its own. -/
def ofName (name : String) : Method := (standard.lookup name).getD (.custom name)

/-- The name of a method. -/
def name : Method → String
  | .get => "GET"
  | .post => "POST"
  | .put => "PUT"
  | .delete => "DELETE"
  | .head => "HEAD"
  | .options => "OPTIONS"
  | .patch => "PATCH"
  | .connect => "CONNECT"
  | .trace => "TRACE"
  | .custom token => token

/-- The method is not one of the standard ones. -/
def isCustom : Method → Bool
  | .custom _ => true
  | _ => false

end Method

end HttpDispatch
