/-!
# Qualified names

Classes and annotation definitions go by their binary names: `a.b.Outer$Inner`
is the class `Inner` nested in the class `Outer` of the package `a.b`. Dots and
dollar signs separate the parts alike, and the part after the last of them is
the **simple name**. In source text the dollar signs are written as dots.
-/

namespace AnnotationPlan.Name

/-- The characters that separate the parts of a name. -/
def isSeparator (c : Char) : Bool := c == '.' || c == '$'

/-- **The simple name**: the part after the last separator, or the whole name if
it has none. -/
def simple (s : String) : String :=
  String.ofList (s.toList.reverse.takeWhile (fun c => !isSeparator c)).reverse

/-- Whether a name says in what package or class its bearer is. -/
def isQualified (s : String) : Bool := s.toList.any isSeparator

/-- A binary name as source text refers to it. -/
def source (s : String) : String :=
  String.ofList (s.toList.map (fun c => if c = '$' then '.' else c))

end AnnotationPlan.Name
