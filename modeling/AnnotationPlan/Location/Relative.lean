import AnnotationPlan.Location.Scan

/-!
# Places of expressions, bounds and supertypes

The casts, object creations, type tests, calls and lambdas of a method are named
by a **relative location**: either the offset of the instruction in the compiled
method (written `#12`) or the number of the expression among those of its kind
in the source (written `*0`). A cast to an intersection type `(A & B)` has more
than one type; which of them is meant is added as `,1`, and zero – the first or
only one – is not written.

A **bound location** `0&1` names a type parameter and one of its bounds; the
bound `-1` is the declaration of the parameter itself. A **supertype location**
is a number: negative for the `extends` clause, and otherwise the number of the
type in the `implements` clause.
-/

namespace AnnotationPlan

/-- How an expression is found in its method. -/
inductive RelativeAnchor where
  /-- By the offset of its instruction. -/
  | offset (value : UInt32)
  /-- By its number among the expressions of its kind. -/
  | index (value : UInt32)
deriving DecidableEq

/-- **The place of an expression in a method.** -/
structure RelativeLocation where
  /-- How the expression is found. -/
  anchor : RelativeAnchor
  /-- Which type of an intersection is meant. -/
  typeIndex : UInt32
deriving DecidableEq

namespace RelativeAnchor

/-- The number of an anchor. -/
def value : RelativeAnchor → UInt32
  | .offset n => n
  | .index n => n

/-- The written form of an anchor. -/
def text : RelativeAnchor → String
  | .offset n => "#" ++ n.toNat.repr
  | .index n => "*" ++ n.toNat.repr

end RelativeAnchor

namespace RelativeLocation

/-- The written form. -/
def text (l : RelativeLocation) : String :=
  l.anchor.text ++ if l.typeIndex = 0 then "" else "," ++ l.typeIndex.toNat.repr

/-- Read an offset. -/
def scanOffset : Location.Scan RelativeAnchor := do
  Location.Scan.char '#'
  let n ← Location.Scan.natural
  pure (.offset n)

/-- Read an index. -/
def scanIndex : Location.Scan RelativeAnchor := do
  Location.Scan.char '*'
  let n ← Location.Scan.natural
  pure (.index n)

/-- Read the number of a type and the comma before it. -/
def scanTypeIndex : Location.Scan UInt32 := do
  Location.Scan.char ','
  Location.Scan.natural

/-- Read the place of an expression. -/
def scan : Location.Scan RelativeLocation := do
  let anchor ← Location.Scan.orElse scanOffset scanIndex
  let typeIndex ← Location.Scan.optional scanTypeIndex
  pure ⟨anchor, typeIndex.getD 0⟩

/-- **Read a text as the place of an expression.** -/
def parse (s : String) : Except Location.ParseError RelativeLocation :=
  Location.Scan.parse .relative scan s s.toList

end RelativeLocation

/-- **A bound of a type parameter.** -/
structure BoundLocation where
  /-- The number of the type parameter. -/
  parameter : UInt32
  /-- The number of the bound, or `-1` for the parameter itself. -/
  bound : Int32
deriving DecidableEq

namespace BoundLocation

/-- The written form. -/
def text (l : BoundLocation) : String :=
  l.parameter.toNat.repr ++ "&" ++ l.bound.toInt.repr

/-- Read a bound. -/
def scan : Location.Scan BoundLocation := do
  let parameter ← Location.Scan.natural
  Location.Scan.char '&'
  let bound ← Location.Scan.integer
  pure ⟨parameter, bound⟩

/-- **Read a text as a bound.** -/
def parse (s : String) : Except Location.ParseError BoundLocation :=
  Location.Scan.parse .bound scan s s.toList

end BoundLocation

/-- **A clause that names a supertype.** -/
structure SupertypeLocation where
  /-- Negative for `extends`, otherwise the number in `implements`. -/
  index : Int32
deriving DecidableEq

namespace SupertypeLocation

/-- The `extends` clause. -/
def extendsClause : SupertypeLocation := ⟨-1⟩

/-- A type of the `implements` clause. A number of `2 ^ 31` and more becomes the
negative number with the same bits. -/
def implementsClause (n : UInt32) : SupertypeLocation := ⟨n.toInt32⟩

/-- Whether the `extends` clause is meant. -/
def isExtends (l : SupertypeLocation) : Bool := l.index < 0

/-- The written form. -/
def text (l : SupertypeLocation) : String := l.index.toInt.repr

/-- Read a supertype clause. -/
def scan : Location.Scan SupertypeLocation := do
  let n ← Location.Scan.integer
  pure ⟨n⟩

/-- **Read a text as a supertype clause.** -/
def parse (s : String) : Except Location.ParseError SupertypeLocation :=
  Location.Scan.parse .supertype scan s s.toList

end SupertypeLocation

end AnnotationPlan
