/-!
# The shortest decimal of a floating-point number

A double stands for all the reals that round to it: an interval around its own
value, half a unit wide on either side, whose ends belong to it when its
significand is even. The **shortest decimal** of the double is the decimal with
the fewest digits in that interval, and among those the one nearest to the
value; of two that are equally near it is the greater.

The value is decoded from the bits as `m * 2 ^ q` and everything after that is
computed in natural numbers. On the grid of multiples of `10 ^ u` only the two
neighbours of the value have to be looked at: if any point of the grid lies in
the interval, one of them does. So the search goes from one digit to seventeen
and stops at the first grid that has a neighbour in the interval. Seventeen
digits always suffice.
-/

namespace AnnotationPlan.Decimal

/-- **A positive binary number** `m * 2 ^ q`, with the interval of reals that
round to it. -/
structure Binary where
  /-- The significand `m`. -/
  significand : Nat
  /-- The exponent `q`. -/
  exponent : Int
  /-- Whether the next smaller number is only half as far away as the next
  greater one. -/
  atBoundary : Bool
deriving DecidableEq

/-- **A decimal** `digits * 10 ^ exponent`. -/
structure Numeral where
  /-- All digits, as one number. -/
  digits : Nat
  /-- The power of ten that the last digit counts. -/
  exponent : Int
deriving DecidableEq

/-- The magnitude of a finite double other than zero. -/
def Binary.ofBits (bits : UInt64) : Binary :=
  let fraction : Nat := bits.toNat % Nat.pow 2 52
  let biased : Nat := bits.toNat / Nat.pow 2 52 % Nat.pow 2 11
  if biased = 0 then ⟨fraction, -1074, false⟩
  else ⟨Nat.pow 2 52 + fraction, (biased : Int) - 1075, fraction = 0 && 1 < biased⟩

namespace Binary

/-- The value, the lower and the upper end of the interval, in quarters of a
unit of the last place. -/
def quarters (b : Binary) : Nat × Nat × Nat :=
  (4 * b.significand, if b.atBoundary then 4 * b.significand - 1 else 4 * b.significand - 2,
    4 * b.significand + 2)

/-- The factors by which a quarter of a unit and a multiple of `10 ^ u` become
comparable: `n` quarters are `d * 10 ^ u` exactly when `n` times the first factor
is `d` times the second. -/
def scale (b : Binary) (u : Int) : Nat × Nat :=
  let q := b.exponent - 2
  (Nat.pow 2 q.toNat * Nat.pow 10 (-u).toNat, Nat.pow 2 (-q).toNat * Nat.pow 10 u.toNat)

/-- Whether `d * 10 ^ u` rounds to the number. -/
def readsBack (b : Binary) (u : Int) (d : Nat) : Bool :=
  let (_, low, high) := b.quarters
  let (f, g) := b.scale u
  if b.significand % 2 = 0 then low * f ≤ d * g && d * g ≤ high * f
  else low * f < d * g && d * g < high * f

/-- The best multiple of `10 ^ u` that rounds to the number: of its two
neighbours the one that does, or the nearer if both do. -/
def onGrid? (b : Binary) (u : Int) : Option Nat :=
  let (value, _, _) := b.quarters
  let (f, g) := b.scale u
  let d := value * f / g
  match b.readsBack u d, b.readsBack u (d + 1) with
  | true, true => some (if 2 * (value * f - d * g) < g then d else d + 1)
  | true, false => some d
  | false, true => some (d + 1)
  | false, false => none

/-- The number of places before the decimal point of a number of at least one,
and otherwise how many zeros follow the point, with a minus: the least `e` with
the number below `10 ^ e`. -/
def magnitude (b : Binary) : Int :=
  let num := b.significand * Nat.pow 2 b.exponent.toNat
  let den := Nat.pow 2 (-b.exponent).toNat
  if den ≤ num then (Nat.toDigits 10 (num / den)).length
  else
    match (List.range 400).find? (fun k => den ≤ num * Nat.pow 10 (k + 1)) with
    | some k => -(k : Int)
    | none => -400

end Binary

/-- A decimal without the zeros at the end of its digits. -/
def Numeral.trimmed : Nat → Numeral → Numeral
  | 0, x => x
  | n + 1, x =>
    if x.digits % 10 = 0 then trimmed n ⟨x.digits / 10, x.exponent + 1⟩ else x

/-- **The shortest decimal that rounds to a number.** -/
def shortest (b : Binary) : Numeral :=
  let grids : List Int := (List.range 17).map (fun n => b.magnitude - (n + 1 : Nat))
  match grids.findSome? (fun u => (b.onGrid? u).map (fun d => Numeral.mk d u)) with
  | some x => Numeral.trimmed 17 x
  | none => ⟨0, 0⟩

end AnnotationPlan.Decimal
