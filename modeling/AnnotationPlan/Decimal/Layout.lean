import AnnotationPlan.Decimal.Shortest

/-!
# Laying out a floating-point number

The shortest decimal of a number can be written with its point in place
(`1500.0`) or with a power of ten (`1.5e20`). A `Layout` says from where to where
the first form is used and how the special values are called.
-/

namespace AnnotationPlan.Decimal

/-- **How numbers are laid out.** -/
structure Layout where
  /-- Numbers with at least this many places before the point are written with
  the point in place; a negative count means zeros after the point. -/
  leastPlaces : Int
  /-- Numbers with more places before the point get a power of ten. -/
  mostPlaces : Int
  /-- The name of what is not a number. -/
  nan : String
  /-- The name of the positive infinity. -/
  infinity : String
  /-- The name of the negative infinity. -/
  negativeInfinity : String

namespace Layout

/-- The digits with the point in place, and at least one digit on either side of
it. -/
def positional (ds : List Char) (places : Int) : List Char :=
  if places ≤ 0 then '0' :: '.' :: (List.replicate (-places).toNat '0' ++ ds)
  else if ds.length ≤ places.toNat then
    ds ++ List.replicate (places.toNat - ds.length) '0' ++ ['.', '0']
  else ds.take places.toNat ++ '.' :: ds.drop places.toNat

/-- The digits with the point after the first one, if there are more, and a power
of ten. -/
def scientific (ds : List Char) (places : Int) : List Char :=
  let fraction := if ds.length ≤ 1 then [] else '.' :: ds.drop 1
  ds.take 1 ++ fraction ++ 'e' :: (places - 1).repr.toList

/-- **The text of a number.** -/
def text (l : Layout) (x : Float) : String :=
  if x.isNaN then l.nan
  else if x.isInf then if x > 0 then l.infinity else l.negativeInfinity
  else
    let sign := if x.toBits.toNat / Nat.pow 2 63 = 1 then "-" else ""
    if x == 0 then sign ++ "0.0"
    else
      let d := shortest (Binary.ofBits x.toBits)
      let ds := Nat.toDigits 10 d.digits
      let places : Int := ds.length + d.exponent
      sign ++ String.ofList
        (if l.leastPlaces ≤ places ∧ places ≤ l.mostPlaces then positional ds places
          else scientific ds places)

end Layout

end AnnotationPlan.Decimal
