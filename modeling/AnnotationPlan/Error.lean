/-!
# What can stop a run

A run either produces all insertions of a scene or stops with one error, and
then nothing is produced. Errors in an annotation are found far from where the
annotation stands, so the place is added on the way out (`PlanError.located`);
all other errors name their place themselves.
-/

namespace AnnotationPlan

/-- **The reason why a run stopped.** -/
inductive PlanError where
  /-- The scene makes no sense. -/
  | malformedScene (reason : String)
  /-- No definition goes by the name of an annotation. -/
  | unknownDefinition (name : String)
  /-- An annotation sets a field that its definition does not have. -/
  | undeclaredField (definition field : String)
  /-- A value does not fit the type of its field. -/
  | fieldTypeMismatch (definition field expected : String)
  /-- A type path leads out of the type of a cast. -/
  | typePathMismatch (path type criteria : String)
  /-- The insertions built so far are not as they must be. -/
  | invariant (criteria reason : String)
  /-- An error in an annotation, with the criteria of the annotated element. -/
  | located (criteria : String) (cause : PlanError)
deriving DecidableEq

/-- **The code of an error**, which is also the exit code of the program. -/
inductive ErrorCode where
  /-- The command line or a setting is wrong. -/
  | invalidArguments
  /-- The scene is wrong. -/
  | invalidScene
  /-- The program is wrong. -/
  | internalError
deriving DecidableEq

/-- The number of a code. -/
def ErrorCode.number : ErrorCode → Nat
  | .invalidArguments => 2
  | .invalidScene => 3
  | .internalError => 10

namespace PlanError

/-- The text that reports an error. -/
def message : PlanError → String
  | malformedScene reason => "malformed scene: " ++ reason
  | unknownDefinition name => "unknown annotation definition '" ++ name ++ "'"
  | undeclaredField definition field =>
    "annotation @" ++ definition ++ " has no field '" ++ field ++ "'"
  | fieldTypeMismatch definition field expected =>
    "value of @" ++ definition ++ "." ++ field ++ " does not match declared type " ++ expected
  | typePathMismatch path type criteria =>
    "type path '" ++ path ++ "' does not fit type " ++ type ++ " at " ++ criteria
  | invariant criteria reason => "invariant violated at " ++ criteria ++ ": " ++ reason
  | located criteria cause => cause.message ++ " at " ++ criteria

/-- **Add the place to an error in an annotation.** An error that names its place
already stays as it is. -/
def locate (criteria : String) : PlanError → PlanError
  | unknownDefinition name => located criteria (unknownDefinition name)
  | undeclaredField definition field => located criteria (undeclaredField definition field)
  | fieldTypeMismatch definition field expected =>
    located criteria (fieldTypeMismatch definition field expected)
  | e => e

/-- The error without its place. -/
def root : PlanError → PlanError
  | located _ cause => cause.root
  | e => e

/-- Whether a place was added. -/
def isLocated : PlanError → Bool
  | located _ _ => true
  | _ => false

/-- The code of an error: all are errors of the scene, but for a broken
invariant. -/
def code : PlanError → ErrorCode
  | invariant _ _ => .internalError
  | located _ cause => cause.code
  | _ => .invalidScene

end PlanError

end AnnotationPlan
