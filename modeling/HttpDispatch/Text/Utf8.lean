/-!
# UTF-8

Bytes are read as a list of `Chunk`s: characters, stretches of bytes that no character can begin
with, and a last stretch that stops inside a character. `decode` accepts exactly the lists of
characters and otherwise names the first stretch at fault (`Fault`); `decodeLossy` puts the
replacement character for every such stretch. `encode` is the inverse of `decode`.
-/

namespace HttpDispatch

/-- A sequence of bytes, as messages and bodies carry them. -/
abbrev Bytes := List UInt8

namespace Utf8

/-- One stretch of bytes. -/
inductive Chunk where
  /-- A whole character. -/
  | char (c : Char)
  /-- So many bytes that cannot be part of any text. -/
  | broken (size : Nat)
  /-- The bytes end inside a character. -/
  | cut
  deriving DecidableEq, Repr

/-- A byte that continues a character. -/
def isTail (b : UInt8) : Bool := 0x80 ≤ b && b ≤ 0xBF

/-- A byte that may follow `lead` in a longer character. Behind the lead `first` the bytes below
`low` would encode a character that a shorter stretch encodes, and behind the lead `last` those
above `high` would encode no character. -/
def second (first low last high lead b : UInt8) : Bool :=
  (lead == first && low ≤ b && b ≤ 0xBF) || (lead == last && 0x80 ≤ b && b ≤ high) ||
    (lead != first && lead != last && isTail b)

/-- A byte that may follow `lead` in a character of three bytes. -/
def secondOfThree : UInt8 → UInt8 → Bool := second 0xE0 0xA0 0xED 0x9F

/-- A byte that may follow `lead` in a character of four bytes. -/
def secondOfFour : UInt8 → UInt8 → Bool := second 0xF0 0x90 0xF4 0x8F

/-- The character with the given leading bits and continuation bytes. -/
def join (lead : Nat) (tails : List UInt8) : Char :=
  Char.ofNat (tails.foldl (fun n b => n * 64 + b.toNat % 64) lead)

/-- The stretches that the bytes consist of. -/
def chunks : Bytes → List Chunk
  | [] => []
  | a :: r =>
    if a < 0x80 then .char (Char.ofNat a.toNat) :: chunks r
    else if 0xC2 ≤ a && a ≤ 0xDF then
      match r with
      | [] => [.cut]
      | b :: r2 =>
        if isTail b then .char (join (a.toNat % 32) [b]) :: chunks r2
        else .broken 1 :: chunks (b :: r2)
    else if 0xE0 ≤ a && a ≤ 0xEF then
      match r with
      | [] => [.cut]
      | b :: r2 =>
        if secondOfThree a b then
          match r2 with
          | [] => [.cut]
          | c :: r3 =>
            if isTail c then .char (join (a.toNat % 16) [b, c]) :: chunks r3
            else .broken 2 :: chunks (c :: r3)
        else .broken 1 :: chunks (b :: r2)
    else if 0xF0 ≤ a && a ≤ 0xF4 then
      match r with
      | [] => [.cut]
      | b :: r2 =>
        if secondOfFour a b then
          match r2 with
          | [] => [.cut]
          | c :: r3 =>
            if isTail c then
              match r3 with
              | [] => [.cut]
              | d :: r4 =>
                if isTail d then .char (join (a.toNat % 8) [b, c, d]) :: chunks r4
                else .broken 3 :: chunks (d :: r4)
            else .broken 2 :: chunks (c :: r3)
        else .broken 1 :: chunks (b :: r2)
    else .broken 1 :: chunks r

/-- The first stretch that is no character: where it begins, and how many bytes it has if the text
goes on after it. -/
structure Fault where
  index : Nat
  size : Option Nat
  deriving DecidableEq, Repr

/-- The wording of a fault. -/
def Fault.message (f : Fault) : String :=
  match f.size with
  | some n => s!"invalid utf-8 sequence of {n} bytes from index {f.index}"
  | none => s!"incomplete utf-8 byte sequence from index {f.index}"

/-- The characters of the chunks, the first of which begins at position `index`. -/
def collect (index : Nat) : List Chunk → Except Fault (List Char)
  | [] => .ok []
  | .char c :: r => (collect (index + c.utf8Size) r).map (c :: ·)
  | .broken n :: _ => .error ⟨index, some n⟩
  | .cut :: _ => .error ⟨index, none⟩

/-- The text that the bytes encode, or the first fault. -/
def decode (bytes : Bytes) : Except Fault String :=
  (collect 0 (chunks bytes)).map String.ofList

/-- The text that the bytes encode, if they encode one. -/
def decode? (bytes : Bytes) : Option String := (decode bytes).toOption

/-- The text that the bytes encode, with U+FFFD for every stretch that is no character. -/
def decodeLossy (bytes : Bytes) : String :=
  String.ofList <| (chunks bytes).map fun
    | .char c => c
    | _ => '\uFFFD'

/-- The bytes of a text. -/
def encode (s : String) : Bytes := s.toList.flatMap String.utf8EncodeChar

end Utf8

end HttpDispatch
