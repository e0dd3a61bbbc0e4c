import AnnotationPlan.Location.Scan
import AnnotationPlan.Text.Alphanumeric

/-!
# Local variables

A local variable is named in one of two ways: by its slot in the compiled method
and the range of instructions in which it lives, written `#1#0+10`; or by its
name in the source and its number among the variables of that name, written
`count*0`. A name is a run of letters and digits of any script, underscores and
dollar signs.
-/

namespace AnnotationPlan

/-- **The place of a local variable.** -/
inductive LocalLocation where
  /-- By slot, and by the start and length of the range in which it lives. -/
  | scoped (index start length : UInt32)
  /-- By name, and by its number among the variables of that name. -/
  | named (name : String) (ordinal : UInt32)
deriving DecidableEq

namespace LocalLocation

/-- The written form. -/
def text : LocalLocation → String
  | .scoped index start length =>
    "#" ++ index.toNat.repr ++ "#" ++ start.toNat.repr ++ "+" ++ length.toNat.repr
  | .named name ordinal => name ++ "*" ++ ordinal.toNat.repr

/-- The characters of a name. -/
def isNameChar (c : Char) : Bool :=
  Text.isAlphanumeric c || c == '_' || c == '$'

/-- Read a variable given by its slot. -/
def scanScoped : Location.Scan LocalLocation := do
  Location.Scan.char '#'
  let index ← Location.Scan.natural
  Location.Scan.char '#'
  let start ← Location.Scan.natural
  Location.Scan.char '+'
  let length ← Location.Scan.natural
  pure (.scoped index start length)

/-- Read a variable given by its name. -/
def scanNamed : Location.Scan LocalLocation := do
  let name ← Location.Scan.run isNameChar
  Location.Scan.char '*'
  let ordinal ← Location.Scan.natural
  pure (.named (String.ofList name) ordinal)

/-- **Read a text as the place of a local variable.** -/
def parse (s : String) : Except Location.ParseError LocalLocation :=
  Location.Scan.parse .localVariable (Location.Scan.orElse scanScoped scanNamed) s s.toList

end LocalLocation

end AnnotationPlan
