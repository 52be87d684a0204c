import HttpDispatch.Number.Binary

/-!
# The shortest decimal that reads back

A finite number `v` of a binary format is written with the fewest decimal digits that read back as
`v`, and of those with the digits nearest to `v`. The reals that read back as `v` form the interval
between the midpoints to its neighbours; both midpoints count if the significand is even. For one
digit, two digits and so on, `onGrid?` tests the two neighbours of `v` on the grid of numbers with
so many digits; the first grid with a hit gives the answer.

All numbers are scaled to integers: a binary number with the given exponent is four times its
significand times a power of two, over a common denominator.
-/

namespace HttpDispatch.Shortest

/-- The interval of reals that read back as one number, as integers over `den`. -/
structure Interval where
  low : Nat
  mid : Nat
  high : Nat
  den : Nat
  closed : Bool

/-- The interval of a finite, positive pattern. -/
def interval (f : Binary.Format) (bits : Nat) : Interval :=
  let v := Binary.value f bits
  let narrow := v.1 = 1 <<< (f.precision - 1) && 0 < v.2
  ⟨(4 * v.1 - (if narrow then 1 else 2)) <<< v.2, (4 * v.1) <<< v.2, (4 * v.1 + 2) <<< v.2,
    4 <<< f.depth, v.1 % 2 = 0⟩

/-- `n / d` lies in the interval. -/
def Interval.holds (i : Interval) (n d : Nat) : Bool :=
  let x := n * i.den
  if i.closed then i.low * d ≤ x && x ≤ i.high * d else i.low * d < x && x < i.high * d

/-- Ten to an integer power, as a quotient. -/
def power (e : Int) : Nat × Nat :=
  if 0 ≤ e then (Nat.pow 10 e.toNat, 1) else (1, Nat.pow 10 (-e).toNat)

/-- The distance from `n / d` to the middle of the interval, times `d * i.den`. -/
def Interval.distance (i : Interval) (n d : Nat) : Nat :=
  let x := n * i.den
  let m := i.mid * d
  if x ≤ m then m - x else x - m

/-- The better neighbour of the middle among the multiples of `10 ^ e`, if one reads back. -/
def onGrid? (i : Interval) (e : Int) : Option Nat :=
  let p := power e
  let below := (i.mid * p.2) / (i.den * p.1)
  let above := below + 1
  let fits (n : Nat) := 0 < n && i.holds (n * p.1) p.2
  match fits below, fits above with
  | true, true =>
    let a := i.distance (below * p.1) p.2
    let b := i.distance (above * p.1) p.2
    if a < b then some below else if b < a then some above
    else some (if below % 2 = 0 then below else above)
  | true, false => some below
  | false, true => some above
  | false, false => none

/-- The first hit on the grids `10 ^ e`, `10 ^ (e - 1)` and so on, `fuel` of them. -/
def search (i : Interval) : Nat → Int → Nat × Int
  | 0, e => (0, e)
  | fuel + 1, e =>
    match onGrid? i e with
    | some n => (n, e)
    | none => search i fuel (e - 1)

/-- A number without its trailing zeros, and how many there were; `fuel` bounds the zeros. -/
def strip : Nat → Nat → Nat × Nat
  | 0, n => (n, 0)
  | fuel + 1, n => if n % 10 = 0 && 0 < n then ((strip fuel (n / 10)).1, (strip fuel (n / 10)).2 + 1)
    else (n, 0)

/-- An exponent of ten at least as large as that of the leading digit of a positive pattern. -/
def leading (f : Binary.Format) (bits : Nat) : Int :=
  let v := Binary.value f bits
  let twos : Int := (v.1.log2 + v.2 : Nat) - (f.depth : Nat)
  if 0 ≤ twos then twos * 30103 / 100000 + 1 else twos * 30102 / 100000 + 1

/-- The digits, as a number, and the exponent of ten of the last one. -/
def digits (f : Binary.Format) (bits : Nat) : Nat × Int :=
  let found := search (interval f bits) 25 (leading f bits)
  let bare := strip 25 found.1
  (bare.1, found.2 + bare.2)

end HttpDispatch.Shortest
