import HttpDispatch.Json.Printer
import HttpDispatch.Json.Record
import HttpDispatch.Number.Whole
import HttpDispatch.Text.Blank

/-!
# Settings

The settings of the dispatcher and of the server. `Settings.ofJson` reads them from a JSON text, in
which everything may be left out; `Settings.override` lets an environment override them one by one,
and the first value that cannot be used is the fault.
-/

namespace HttpDispatch

/-- Settings of the dispatcher: the query parameter that names a format, and whether error bodies
tell causes. -/
structure DispatcherSettings where
  formatParameter : Option String := some "format"
  includeErrorCauses : Bool := false
  deriving DecidableEq, Repr

/-- Settings of the server: how many requests are handled at a time, how large a request may be, how
large a buffer is at first, and how long requests may go on while the server stops. -/
structure ServerSettings where
  maxConcurrentRequests : Nat := 1024
  maxRequestSize : Nat := 8388608
  initialBufferSize : Nat := 4096
  drainTimeoutMs : Nat := 5000
  deriving DecidableEq, Repr

/-- All settings. -/
structure Settings where
  dispatcher : DispatcherSettings := {}
  server : ServerSettings := {}
  deriving DecidableEq, Repr

/-- Why there are no settings. -/
inductive SettingsFault where
  | json (f : Json.Fault)
  | environment (key value : String)
  deriving DecidableEq, Repr

/-- The wording of a fault. -/
def SettingsFault.message : SettingsFault → String
  | .json f => "failed to parse config: " ++ f.message
  | .environment key value => s!"invalid value {Text.quoted value} for {key}"

open Json

namespace DispatcherSettings

/-- The fields in their order. -/
def fields : List (RecordField DispatcherSettings) :=
  [⟨"format_parameter", fun s => do return { s with formatParameter := ← readOptionalText }⟩,
    ⟨"include_error_causes", fun s => do return { s with includeErrorCauses := ← readFlag }⟩]

/-- Reads the settings. -/
def read (s : DispatcherSettings) : Reader DispatcherSettings :=
  readRecord "struct DispatcherConfig" fields s

/-- The settings as a value. -/
def value (s : DispatcherSettings) : Value :=
  .object [("format_parameter", (s.formatParameter.map .text).getD .null),
    ("include_error_causes", .flag s.includeErrorCauses)]

end DispatcherSettings

namespace ServerSettings

/-- The fields in their order. -/
def fields : List (RecordField ServerSettings) :=
  let size := readNatural "usize"
  [⟨"max_concurrent_requests", fun s => do return { s with maxConcurrentRequests := ← size }⟩,
    ⟨"max_request_size", fun s => do return { s with maxRequestSize := ← size }⟩,
    ⟨"initial_buffer_size", fun s => do return { s with initialBufferSize := ← size }⟩,
    ⟨"drain_timeout_ms", fun s => do return { s with drainTimeoutMs := ← readNatural "u64" }⟩]

/-- Reads the settings. -/
def read (s : ServerSettings) : Reader ServerSettings := readRecord "struct ServerConfig" fields s

/-- The settings as a value. -/
def value (s : ServerSettings) : Value :=
  .object [("max_concurrent_requests", .ofNat s.maxConcurrentRequests),
    ("max_request_size", .ofNat s.maxRequestSize),
    ("initial_buffer_size", .ofNat s.initialBufferSize),
    ("drain_timeout_ms", .ofNat s.drainTimeoutMs)]

/-- The time for requests while the server stops, in seconds and thousandths. -/
def drainTimeout (s : ServerSettings) : Nat × Nat :=
  (s.drainTimeoutMs / 1000, s.drainTimeoutMs % 1000)

end ServerSettings

/-- What a JSON text gives to a reader that takes all of it. -/
def readAll {α : Type} (reader : Reader α) (text : String) : Except SettingsFault α :=
  (Reader.run (do
    let a ← reader
    expectEnd
    return a) (Utf8.encode text)).mapError .json

namespace DispatcherSettings

/-- The settings in a JSON text. -/
def ofJson (text : String) : Except SettingsFault DispatcherSettings := readAll (read {}) text

end DispatcherSettings

namespace ServerSettings

/-- The settings in a JSON text. -/
def ofJson (text : String) : Except SettingsFault ServerSettings := readAll (read {}) text

end ServerSettings

namespace Settings

/-- The fields in their order. -/
def fields : List (RecordField Settings) :=
  [⟨"dispatcher", fun s => do return { s with dispatcher := ← DispatcherSettings.read {} }⟩,
    ⟨"server", fun s => do return { s with server := ← ServerSettings.read {} }⟩]

/-- The settings in a JSON text. -/
def ofJson (text : String) : Except SettingsFault Settings :=
  readAll (readRecord "struct Config" fields {}) text

/-- The settings as a value. -/
def value (s : Settings) : Value :=
  .object [("dispatcher", s.dispatcher.value), ("server", s.server.value)]

/-! ### The environment -/

/-- A setting that the environment may give: its key, and the settings with a trimmed text for its
value, if that can be used. -/
structure Override where
  key : String
  apply : String → Settings → Option Settings

/-- The setting of a flag. -/
def flagOverride (key : String) (set : Bool → Settings → Settings) : Override :=
  ⟨key, fun text s =>
    match text with
    | "true" => some (set true s)
    | "false" => some (set false s)
    | _ => none⟩

/-- The setting of a size. -/
def sizeOverride (key : String) (set : Nat → Settings → Settings) : Override :=
  ⟨key, fun text s => (Whole.readSize? text).map fun n => set n s⟩

/-- The settings that the environment may give, in the order in which they are looked at. -/
def overrides : List Override :=
  [⟨"RESTLINE_FORMAT_PARAMETER", fun text s =>
      some { s with dispatcher.formatParameter := if text = "" then none else some text }⟩,
    flagOverride "RESTLINE_INCLUDE_ERROR_CAUSES" fun b s =>
      { s with dispatcher.includeErrorCauses := b },
    sizeOverride "RESTLINE_MAX_CONCURRENT_REQUESTS" fun n s =>
      { s with server.maxConcurrentRequests := n },
    sizeOverride "RESTLINE_MAX_REQUEST_SIZE" fun n s => { s with server.maxRequestSize := n },
    sizeOverride "RESTLINE_INITIAL_BUFFER_SIZE" fun n s => { s with server.initialBufferSize := n },
    sizeOverride "RESTLINE_DRAIN_TIMEOUT_MS" fun n s => { s with server.drainTimeoutMs := n }]

/-- The settings after one override, if the environment gives its key a value. -/
def overrideOne (lookup : String → Option String) (s : Settings) (o : Override) :
    Except SettingsFault Settings :=
  match lookup o.key with
  | none => .ok s
  | some raw =>
    match o.apply (Text.trim raw) s with
    | some s => .ok s
    | none => .error (.environment o.key raw)

/-- The settings after all overrides. -/
def override (s : Settings) (lookup : String → Option String) : Except SettingsFault Settings :=
  overrides.foldlM (overrideOne lookup) s

end Settings

end HttpDispatch
