/-!
# Numbers in JSON

A number is kept as it is spelled (`Numeral`), because what it is depends on its
spelling and because a number that nobody asks for may be too large for
everything.

Without a fraction and an exponent it is an integer, if it fits 64 bits; the
negative zero is none. All other numbers are floating-point. Their digits are
read in two steps: the leading ones, as long as they make up a number below
`2 ^ 64`, form the significand, and whatever follows only moves the decimal
point; then the significand, rounded to a double, is multiplied or divided once by
a power of ten. A number of few digits comes out exactly rounded; one of more
than fifteen may be off by a unit in the last place, and this is how it is read
everywhere. A number beyond all doubles is refused.
-/

namespace AnnotationPlan

/-- **A number as it is spelled.** -/
structure Numeral where
  /-- Whether a minus stands in front. -/
  negative : Bool
  /-- The digits before the point, at least one. -/
  whole : List Char
  /-- The digits after the point; none means that there is no point. -/
  fraction : List Char
  /-- The sign of the power of ten, and its digits. -/
  exponent : Option (Bool × List Char)
deriving DecidableEq

/-- **What a number can be used as.** -/
inductive Number where
  /-- A natural number below `2 ^ 64`. -/
  | natural (value : Nat)
  /-- A negative integer, not below `-2 ^ 63`. -/
  | negative (value : Int)
  /-- A floating-point number. -/
  | real (value : Float)

namespace Numeral

/-- Append digits to a significand as long as it stays below `2 ^ 64`: the new
significand and the number of digits that were not appended. -/
def absorb (n : Nat) : List Char → Nat × Nat
  | [] => (n, 0)
  | d :: rest =>
    let next := 10 * n + (d.toNat - '0'.toNat)
    if next < Nat.pow 2 64 then absorb next rest else (n, rest.length + 1)

/-- A double divided by a power of ten, in steps of 308 places; four of them make
zero of every double. -/
def divide : Nat → Float → Nat → Float
  | 0, x, _ => x
  | steps + 1, x, places =>
    if places ≤ 308 then x / Float.ofScientific 1 false places
    else if x == 0 then x
    else divide steps (x / Float.ofScientific 1 false 308) (places - 308)

/-- **A significand times a power of ten**, if it is a finite double. -/
def scale? (significand : Nat) (exponent : Int) : Option Float :=
  let x := significand.toUInt64.toFloat
  if exponent < 0 then some (divide 5 x (-exponent).toNat)
  else if exponent ≤ 308 then
    let y := x * Float.ofScientific 1 false exponent.toNat
    if y.isInf then none else some y
  else if significand = 0 then some x
  else none

/-- The magnitude of a number that is not an integer of 64 bits. -/
def magnitude? (x : Numeral) : Option Float :=
  let (n, skipped) := absorb 0 x.whole
  let (m, dropped) := absorb n x.fraction
  let places : Int := (skipped : Int) - ((x.fraction.length : Int) - dropped)
  match x.exponent with
  | none => scale? m places
  | some (down, ds) =>
    let e := Nat.ofDigitChars 10 ds 0
    if e < Nat.pow 2 31 then scale? m (if down then places - e else places + e)
    else if m = 0 ∨ down then some 0
    else none

/-- **What the number can be used as**, if anything. -/
def value? (x : Numeral) : Option Number :=
  let n := Nat.ofDigitChars 10 x.whole 0
  if x.fraction = [] ∧ x.exponent = none ∧ n < Nat.pow 2 64 then
    if !x.negative then some (.natural n)
    else if n = 0 ∨ Nat.pow 2 63 < n then some (.real (-n.toUInt64.toFloat))
    else some (.negative (-(n : Int)))
  else x.magnitude?.map (fun y => .real (if x.negative then -y else y))

end Numeral

end AnnotationPlan
