import AnnotationPlan.Json.Source
import AnnotationPlan.Location.Scan
import AnnotationPlan.OrderedMap
import AnnotationPlan.Schema.FieldType

/-!
# Loading values from JSON

A **loader** makes a value of the library out of JSON as it is spelled, or says
what is wrong with it. Loaders take a value apart in the order of the text, so
that of several faults the first is reported.

A structure is loaded field by field (`Load.record`). It may be written as an
object, whose unknown members are skipped and whose known ones occur at most once,
or as an array of its fields in their order, from which the last ones may be
missing. A missing field keeps its default; a field without one is required. A map
is written as an object, and a key that occurs twice keeps its first place and
takes its last value.
-/

namespace AnnotationPlan

/-- **What is wrong with a JSON text.** -/
inductive LoadError where
  /-- It is no JSON, or does not have the expected form. -/
  | malformed
  /-- A key is no location. -/
  | location (error : Location.ParseError)
  /-- A text is no field type. -/
  | fieldType (error : FieldTypeError)
deriving DecidableEq

namespace Load

/-- **A loader** for values of a type. -/
abbrev Loader (α : Type) : Type := Source → Except LoadError α

/-- **A key reader**: from a spelled key to the key. -/
abbrev KeyReader (κ : Type) : Type := List Char → Except LoadError κ

/-- What is there, or else the error of a wrong form. -/
def orMalformed {α : Type} : Option α → Except LoadError α
  | some a => .ok a
  | none => .error .malformed

/-- Pass over a value. -/
def skip : Loader Unit := fun s =>
  if s.isWhole then .ok () else .error .malformed

/-- A text. -/
def text : Loader String
  | .string spelled => orMalformed (Source.text? spelled)
  | _ => .error .malformed

/-- A truth value. -/
def bool : Loader Bool
  | .bool b => .ok b
  | _ => .error .malformed

/-- A list, written as an array. -/
def list {α : Type} (item : Loader α) : Loader (List α)
  | .array items => items.mapM item
  | _ => .error .malformed

/-- A value that may be null. -/
def nullable {α : Type} (value : Loader α) : Loader (Option α)
  | .null => .ok none
  | s => (value s).map some

/-- One of a list of named values, written as its name or as an object whose only
member is called so and is null. -/
def choice {α : Type} (names : List (String × α)) : Loader α
  | .string spelled => orMalformed ((Source.text? spelled).bind (List.lookup · names))
  | .object [(spelled, .null)] => orMalformed ((Source.text? spelled).bind (List.lookup · names))
  | _ => .error .malformed

/-! ## Maps -/

/-- A key that is any text. -/
def textKey : KeyReader String := fun spelled => orMalformed (Source.text? spelled)

/-- A key that is a location. -/
def locationKey {κ : Type} (parse : String → Except Location.ParseError κ) : KeyReader κ :=
  fun spelled => do
    match parse (← textKey spelled) with
    | .ok k => .ok k
    | .error e => .error (.location e)

/-- A key that is a number of 32 bits: decimal digits, none of them escaped, without
a zero in front. -/
def numberKey : KeyReader UInt32 := fun spelled =>
  let n := Nat.ofDigitChars 10 spelled 0
  if spelled.all Char.isDigit && spelled != [] && (spelled == ['0'] || spelled.head? != some '0')
      && decide (n < UInt32.size) then .ok (UInt32.ofNat n)
  else .error .malformed

/-- The pairs of an object, in the order of the text. -/
def pairs {κ ν : Type} (key : KeyReader κ) (value : Loader ν) : Loader (List (κ × ν))
  | .object members => members.mapM (fun m => do
      let k ← key m.1
      let v ← value m.2
      pure (k, v))
  | _ => .error .malformed

/-- **A map**, written as an object. -/
def map {κ ν : Type} [DecidableEq κ] (key : KeyReader κ) (value : Loader ν) :
    Loader (OrderedMap κ ν) := fun s =>
  (pairs key value s).map OrderedMap.ofList

/-! ## Structures -/

/-- **A field of a structure.** -/
structure Field (σ : Type) where
  /-- The name of the field. -/
  name : String
  /-- Load the field into a structure. -/
  load : σ → Loader σ
  /-- Whether the field has no default. -/
  required : Bool := false

/-- A field with a loader of its own. -/
def field {σ α : Type} (name : String) (value : Loader α) (set : σ → α → σ) : Field σ where
  name := name
  load := fun r s => (value s).map (set r)

/-- A field without a default. -/
def requiredField {σ α : Type} (name : String) (value : Loader α) (set : σ → α → σ) :
    Field σ where
  name := name
  load := fun r s => (value s).map (set r)
  required := true

/-- Load the members of an object into a structure; `seen` names the fields that
were loaded already. -/
def recordMembers {σ : Type} (fields : List (Field σ)) :
    List String → σ → List (List Char × Source) → Except LoadError σ
  | seen, r, [] =>
    if fields.all (fun f => !f.required || seen.contains f.name) then .ok r
    else .error .malformed
  | seen, r, (spelled, s) :: rest => do
    let name ← textKey spelled
    match fields.find? (fun f => f.name == name) with
    | none =>
      skip s
      recordMembers fields seen r rest
    | some f =>
      if seen.contains name then .error .malformed
      else
        let r ← f.load r s
        recordMembers fields (name :: seen) r rest

/-- Load the items of an array into a structure, field by field. -/
def recordItems {σ : Type} : List (Field σ) → σ → List Source → Except LoadError σ
  | fields, r, [] => if fields.all (fun f => !f.required) then .ok r else .error .malformed
  | [], _, _ :: _ => .error .malformed
  | f :: fields, r, s :: rest => do
    let r ← f.load r s
    recordItems fields r rest

/-- **A structure**, written as an object or as an array; `start` holds the
defaults of its fields. -/
def record {σ : Type} (fields : List (Field σ)) (start : σ) : Loader σ
  | .object members => recordMembers fields [] start members
  | .array items => recordItems fields start items
  | _ => .error .malformed

/-! ## Whole texts -/

/-- **Load a whole text.** -/
def ofText {α : Type} (value : Loader α) (s : String) : Except LoadError α := do
  let (source, complete) := Source.ofText s
  let a ← value source
  if complete then .ok a else .error .malformed

end Load

end AnnotationPlan
