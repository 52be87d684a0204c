import HttpDispatch.Message.Status

/-!
# Failures of requests

A `Failure` travels through the handling of a request and in the end decides its status. Failures
of handlers may have causes of their own.
-/

namespace HttpDispatch

/-- A failure of the application: a message alone, or an error with the messages of what caused
it. -/
inductive Raised where
  | plain (message : String)
  | chained (message : String) (causes : List String)
  deriving DecidableEq, Repr

/-- A failure of a request. -/
inductive Failure where
  | badRequest (message : String)
  | notFound (message : String)
  | tooManyRequests (message : String)
  | unavailable (message : String)
  | status (status : Status) (message : String)
  | unsupported (operation : String)
  | internal (message : String)
  | raised (error : Raised)
  deriving DecidableEq, Repr

namespace Failure

/-- A response that no accepted media type allows. -/
def notAcceptable (message : String) : Failure := .status .notAcceptable message

/-- A body of a media type that nobody reads. -/
def unsupportedMediaType (message : String) : Failure := .status .unsupportedMediaType message

/-- The wording of a failure. -/
def message : Failure → String
  | .badRequest m => m
  | .notFound m => m
  | .tooManyRequests m => m
  | .unavailable m => m
  | .status _ m => m
  | .unsupported m => "unsupported operation: " ++ m
  | .internal m => m
  | .raised (.plain m) => m
  | .raised (.chained m _) => m

/-- The status that answers a failure. -/
def answer : Failure → Status
  | .badRequest _ => .badRequest
  | .notFound _ => .notFound
  | .tooManyRequests _ => .tooManyRequests
  | .unavailable _ => .serviceUnavailable
  | .status s _ => s
  | .unsupported _ => .internalServerError
  | .internal _ => .internalServerError
  | .raised _ => .internalServerError

/-- The messages of what caused a failure, nearest first. -/
def causes : Failure → List String
  | .raised (.chained _ causes) => causes
  | _ => []

end Failure

end HttpDispatch
