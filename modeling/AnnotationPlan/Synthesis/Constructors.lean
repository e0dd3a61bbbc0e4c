import AnnotationPlan.Json.Load
import AnnotationPlan.OrderedMap

/-!
# What is known about constructors

A class that declares no constructor has one nevertheless, and annotations on it
need a constructor written into the source. Whether a class declares one is told by
its compiled form, which a **lookup** reads: it answers for a class, says that it
does not know, or fails. A failure does not stop a run; the class is treated as
unknown and a warning is given.

For unknown classes a setting decides: by default nothing is written for them.
-/

namespace AnnotationPlan

/-- **Whether a class declares a constructor.** -/
inductive ConstructorKnowledge where
  /-- It does. -/
  | explicit
  /-- It has only the one that it did not declare. -/
  | implicitOnly
  /-- This is not known. -/
  | unknown
deriving DecidableEq

/-- **Why nothing is known about a class.** -/
inductive LookupError where
  /-- There is no compiled class. -/
  | notFound (className : String)
  /-- The compiled class cannot be read. -/
  | unreadable (className reason : String)
deriving DecidableEq

/-- The text that reports a failed lookup. -/
def LookupError.message : LookupError → String
  | notFound className => "class file not found for " ++ className
  | unreadable className reason => "cannot read class " ++ className ++ ": " ++ reason

/-- **A source of knowledge about constructors.** -/
abbrev ConstructorLookup : Type := String → Except LookupError ConstructorKnowledge

/-- The lookup that knows nothing. -/
def ConstructorLookup.nothing : ConstructorLookup := fun _ => .ok .unknown

/-- **A table of what is known**: for each class whether it declares a constructor. -/
structure ConstructorTable where
  /-- The classes and the answers. -/
  declares : OrderedMap String Bool

namespace ConstructorTable

/-- The table without classes. -/
def empty : ConstructorTable := ⟨.empty⟩

/-- The table with one more class, or another answer for a class. -/
def insert (t : ConstructorTable) (className : String) (declares : Bool) : ConstructorTable :=
  ⟨t.declares.insert className declares⟩

/-- **The lookup in a table.** It fails for the classes that are not in it. -/
def lookup (t : ConstructorTable) : ConstructorLookup := fun className =>
  match t.declares.find? className with
  | some true => .ok .explicit
  | some false => .ok .implicitOnly
  | none => .error (.notFound className)

/-- Load a table. -/
def load : Load.Loader ConstructorTable := fun s =>
  (Load.map Load.textKey Load.bool s).map ConstructorTable.mk

end ConstructorTable

/-- **What happens to the annotations on a constructor that may or may not be
declared.** -/
inductive UnknownConstructors where
  /-- They are inserted like all others. -/
  | suppress
  /-- A constructor is written for them. -/
  | synthesize
deriving DecidableEq

/-- **The settings of a run.** -/
structure Settings where
  /-- What is done about constructors of which nothing is known. -/
  unknownConstructors : UnknownConstructors := .suppress
  /-- Whether compiled classes are consulted. -/
  readBytecode : Bool := true
deriving DecidableEq

/-- Whether a constructor is written for a class of which this is known. -/
def Settings.writesConstructor (s : Settings) : ConstructorKnowledge → Bool
  | .explicit => false
  | .implicitOnly => true
  | .unknown => s.unknownConstructors == .synthesize

end AnnotationPlan
