import HttpDispatch.Number.Whole
import HttpDispatch.Text.Split

/-!
# Addresses

Where a server listens: a host and the number of a socket, with a colon between them. The number is
what stands behind the last colon. No host has a NUL in its name.
-/

namespace HttpDispatch

/-- A host and the number of a socket. -/
structure Address where
  host : String
  number : Nat
  deriving DecidableEq, Repr

/-- Why a text is not an address. -/
inductive AddressFault where
  | noNumber
  | invalidNumber
  | nulInHost
  deriving DecidableEq, Repr

/-- The wording of a fault. -/
def AddressFault.message : AddressFault → String
  | .noNumber => "invalid socket address"
  | .invalidNumber => "invalid port value"
  | .nulInHost => "file name contained an unexpected NUL byte"

/-- The wording of the fault of a server that was to listen at a text. -/
def AddressFault.report (f : AddressFault) (text : String) : String :=
  s!"failed to bind to {text}: {f.message}"

namespace Address

/-- The largest number of a socket. -/
def maxNumber : Nat := 65535

/-- The address that a text denotes. -/
def read (text : String) : Except AddressFault Address :=
  match Text.cutAt ':' text.toList.reverse with
  | none => .error .noNumber
  | some (number, host) =>
    match Whole.readChars 0 maxNumber number.reverse with
    | .ok n =>
      if host.contains '\x00' then .error .nulInHost
      else .ok ⟨String.ofList host.reverse, n.toNat⟩
    | .error _ => .error .invalidNumber

end Address

end HttpDispatch
