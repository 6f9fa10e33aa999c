/-!
# Shortest decimals

The shortest decimal that reads back as a given double. A finite double is `m * 2 ^ q`; the reals
that round to it form an interval around it. For one, two, and more digits the two decimals next to
the value are tried, and the first digit count with one of them inside the interval wins.
-/

namespace TypedValues.Decimal

/-- An IEEE 754 double, kept as its bits: two doubles are the same when their bits are. -/
structure Binary64 where
  bits : UInt64
deriving DecidableEq

namespace Binary64

def isNegative (x : Binary64) : Bool := x.bits >>> 63 == 1

/-- The biased exponent. -/
def exponentField (x : Binary64) : Nat := (x.bits >>> 52 &&& 0x7ff).toNat

def fraction (x : Binary64) : Nat := (x.bits &&& 0xfffffffffffff).toNat

def isNaN (x : Binary64) : Bool := x.exponentField == 2047 && x.fraction != 0

def isInfinite (x : Binary64) : Bool := x.exponentField == 2047 && x.fraction == 0

def isZero (x : Binary64) : Bool := x.exponentField == 0 && x.fraction == 0

/-- The integer `m` of a finite double `m * 2 ^ q`. -/
def significand (x : Binary64) : Nat :=
  if x.exponentField = 0 then x.fraction else 0x10000000000000 + x.fraction

/-- The power `q` of a finite double `m * 2 ^ q`. -/
def power (x : Binary64) : Int :=
  if x.exponentField = 0 then -1074 else (x.exponentField : Int) - 1075

end Binary64

/-- The number `digits * 10 ^ exponent`. -/
structure Scaled where
  digits : Nat
  exponent : Int
deriving DecidableEq

/-- The reals that round to one double, in quarters of `2 ^ power`. -/
structure Interval where
  low : Nat
  value : Nat
  high : Nat
  power : Int
  /-- Whether the two ends belong to it. -/
  closed : Bool

/-- Half a unit lies on each side, but only a quarter below a power of two, where the doubles lie
twice as dense. The ends round to the even neighbour. -/
def Interval.of (x : Binary64) : Interval :=
  let m := x.significand
  { low := if x.fraction = 0 && x.exponentField != 0 then 4 * m - 1 else 4 * m - 2
    value := 4 * m
    high := 4 * m + 2
    power := x.power - 2
    closed := m % 2 == 0 }

namespace Interval

/-- `d * 10 ^ e` and `b * 2 ^ i.power`, both multiplied by a power of two and a power of ten that
make them whole. -/
def whole (i : Interval) (d : Nat) (e : Int) (b : Nat) : Nat × Nat :=
  ((d * Nat.pow 10 e.toNat) <<< (-i.power).toNat, (b * Nat.pow 10 (-e).toNat) <<< i.power.toNat)

def contains (i : Interval) (d : Nat) (e : Int) : Bool :=
  let (below, low) := i.whole d e i.low
  let (above, high) := i.whole d e i.high
  if i.closed then low ≤ below && above ≤ high else low < below && above < high

/-- The largest multiple of `10 ^ e` that does not exceed the value, divided by `10 ^ e`. -/
def floorAt (i : Interval) (e : Int) : Nat :=
  let (unit, value) := i.whole 1 e i.value
  value / unit

/-- How many digits the value has before the point; zero or less for a value below one tenth. -/
def magnitude (i : Interval) : Int :=
  ((Nat.toDigits 10 (i.floorAt (-400))).length : Int) - 400

/-- Whether the value is at least half way from `d * 10 ^ e` to the next multiple of `10 ^ e`. -/
def upperHalf (i : Interval) (d : Nat) (e : Int) : Bool :=
  let (middle, value) := i.whole (2 * d + 1) e (2 * i.value)
  middle ≤ value

/-- The decimal on the grid of `10 ^ e` that reads back, if one does; of two the nearer, and the
upper one from half way on. -/
def candidate? (i : Interval) (e : Int) : Option Scaled :=
  let d := i.floorAt e
  match i.contains d e, i.contains (d + 1) e with
  | true, true => some ⟨if i.upperHalf d e then d + 1 else d, e⟩
  | true, false => some ⟨d, e⟩
  | false, true => some ⟨d + 1, e⟩
  | false, false => none

end Interval

/-- The digits of a finite double other than zero: the fewest that read back. Seventeen always do. -/
def shortest (x : Binary64) : Scaled :=
  let i := Interval.of x
  let k := i.magnitude
  ((List.range 17).findSome? fun n => i.candidate? (k - (n + 1 : Nat))).getD
    ⟨i.floorAt (k - 17), k - 17⟩

end TypedValues.Decimal
