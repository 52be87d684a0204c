import HttpDispatch.Text.Split

/-!
# Status codes

The status codes that a response can carry, each with its number and its reason phrase. `ofCode?`
finds the status of a number.
-/

namespace HttpDispatch

/-- A status code. -/
inductive Status where
  | proceed
  | ok
  | created
  | accepted
  | noContent
  | movedPermanently
  | found
  | seeOther
  | notModified
  | temporaryRedirect
  | permanentRedirect
  | badRequest
  | unauthorized
  | forbidden
  | notFound
  | methodNotAllowed
  | notAcceptable
  | conflict
  | gone
  | lengthRequired
  | payloadTooLarge
  | uriTooLong
  | unsupportedMediaType
  | unprocessableEntity
  | tooManyRequests
  | internalServerError
  | notImplemented
  | badGateway
  | serviceUnavailable
  | gatewayTimeout
  | httpVersionNotSupported
  deriving DecidableEq, Repr

namespace Status

/-- The number of a status. -/
def code : Status → Nat
  | .proceed => 100
  | .ok => 200
  | .created => 201
  | .accepted => 202
  | .noContent => 204
  | .movedPermanently => 301
  | .found => 302
  | .seeOther => 303
  | .notModified => 304
  | .temporaryRedirect => 307
  | .permanentRedirect => 308
  | .badRequest => 400
  | .unauthorized => 401
  | .forbidden => 403
  | .notFound => 404
  | .methodNotAllowed => 405
  | .notAcceptable => 406
  | .conflict => 409
  | .gone => 410
  | .lengthRequired => 411
  | .payloadTooLarge => 413
  | .uriTooLong => 414
  | .unsupportedMediaType => 415
  | .unprocessableEntity => 422
  | .tooManyRequests => 429
  | .internalServerError => 500
  | .notImplemented => 501
  | .badGateway => 502
  | .serviceUnavailable => 503
  | .gatewayTimeout => 504
  | .httpVersionNotSupported => 505

/-- The reason phrase of a status. -/
def reason : Status → String
  | .proceed => "Continue"
  | .ok => "OK"
  | .created => "Created"
  | .accepted => "Accepted"
  | .noContent => "No Content"
  | .movedPermanently => "Moved Permanently"
  | .found => "Found"
  | .seeOther => "See Other"
  | .notModified => "Not Modified"
  | .temporaryRedirect => "Temporary Redirect"
  | .permanentRedirect => "Permanent Redirect"
  | .badRequest => "Bad Request"
  | .unauthorized => "Unauthorized"
  | .forbidden => "Forbidden"
  | .notFound => "Not Found"
  | .methodNotAllowed => "Method Not Allowed"
  | .notAcceptable => "Not Acceptable"
  | .conflict => "Conflict"
  | .gone => "Gone"
  | .lengthRequired => "Length Required"
  | .payloadTooLarge => "Payload Too Large"
  | .uriTooLong => "URI Too Long"
  | .unsupportedMediaType => "Unsupported Media Type"
  | .unprocessableEntity => "Unprocessable Entity"
  | .tooManyRequests => "Too Many Requests"
  | .internalServerError => "Internal Server Error"
  | .notImplemented => "Not Implemented"
  | .badGateway => "Bad Gateway"
  | .serviceUnavailable => "Service Unavailable"
  | .gatewayTimeout => "Gateway Timeout"
  | .httpVersionNotSupported => "HTTP Version Not Supported"

/-- Every status. -/
def all : List Status :=
  [.proceed, .ok, .created, .accepted, .noContent, .movedPermanently, .found, .seeOther,
    .notModified, .temporaryRedirect, .permanentRedirect, .badRequest, .unauthorized, .forbidden,
    .notFound, .methodNotAllowed, .notAcceptable, .conflict, .gone, .lengthRequired,
    .payloadTooLarge, .uriTooLong, .unsupportedMediaType, .unprocessableEntity, .tooManyRequests,
    .internalServerError, .notImplemented, .badGateway, .serviceUnavailable, .gatewayTimeout,
    .httpVersionNotSupported]

/-- The status with a number, if there is one. -/
def ofCode? (n : Nat) : Option Status := all.find? fun s => s.code == n

/-- The number and the reason. -/
def render (s : Status) : String := s!"{s.code} {s.reason}"

/-- A word with a capital and otherwise small letters. -/
def capitalized (word : String) : String :=
  match word.toList with
  | [] => ""
  | c :: r => String.ofList (c.toUpper :: r.map Char.toLower)

/-- The reason as one word, for diagnostics. -/
def label (s : Status) : String := String.join ((Text.split ' ' s.reason).map capitalized)

/-- The request was served. -/
def isSuccess (s : Status) : Bool := 200 ≤ s.code && s.code < 300

/-- The client is at fault. -/
def isClientError (s : Status) : Bool := 400 ≤ s.code && s.code < 500

/-- The server is at fault. -/
def isServerError (s : Status) : Bool := 500 ≤ s.code

end Status

end HttpDispatch
