import AnnotationPlan.OrderedMap
import AnnotationPlan.Schema.FieldType
import AnnotationPlan.Text.Names

/-!
# Annotation definitions and the table of them

An annotation can be written only if its **definition** is known: the fields it
has, in the order in which they are declared, and the kinds of elements it may
stand on.

The **definition table** finds definitions by name. Registering a definition
under a qualified name also lets its simple name stand for it, as long as no
other definition has the same simple name; two such definitions make the simple
name stand for nothing. A definition registered under a simple name is always
found under it, whatever else there is.
-/

namespace AnnotationPlan

/-- How long an annotation is kept. It is carried along and never looked at. -/
inductive Retention where
  /-- In the source only. -/
  | source
  /-- In the compiled class. -/
  | compiled
  /-- While the program runs. -/
  | runtime
deriving DecidableEq

/-- **A kind of element** that an annotation may stand on. -/
inductive Target where
  /-- A class, interface or enumeration. -/
  | type
  /-- A field. -/
  | field
  /-- A method. -/
  | method
  /-- A parameter. -/
  | parameter
  /-- A constructor. -/
  | constructor
  /-- A local variable. -/
  | localVariable
  /-- An annotation definition. -/
  | annotationType
  /-- A package. -/
  | package
  /-- The declaration of a type parameter. -/
  | typeParameter
  /-- Any use of a type. -/
  | typeUse
  /-- A module. -/
  | module
  /-- A component of a record. -/
  | recordComponent
deriving DecidableEq

/-- **An annotation definition.** -/
structure Definition where
  /-- The name, qualified or not. -/
  name : String
  /-- How long its annotations are kept. -/
  retention : Retention := .compiled
  /-- The fields and their types, in the order of their declaration. -/
  fields : OrderedMap String FieldType := .empty
  /-- The kinds of elements it may stand on, if it says so. -/
  targets : Option (List Target) := none
deriving DecidableEq

namespace Definition

/-- **Whether annotations of this definition stand on types only.** They are
then written in the line of the type. All others belong to a declaration and get
a line of their own. -/
def isTypeOnly (d : Definition) : Bool :=
  match d.targets with
  | none => false
  | some [] => false
  | some ts => ts.all (fun t => t == .typeUse || t == .typeParameter)

/-- A definition with one more field; a field that it has already gets a new
type and keeps its place. -/
def withField (d : Definition) (name : String) (type : FieldType) : Definition :=
  { d with fields := d.fields.insert name type }

end Definition

/-- What a name stands for in a definition table. -/
inductive DefinitionEntry where
  /-- A definition registered under this name. -/
  | declared (definition : Definition)
  /-- The simple name of the only definition that has it. -/
  | alias (qualified : String)
  /-- The simple name of more than one definition. -/
  | ambiguous
deriving DecidableEq

/-- **A table of definitions.** -/
structure DefinitionTable where
  /-- What the names stand for. -/
  entries : OrderedMap String DefinitionEntry
deriving DecidableEq

namespace DefinitionTable

/-- The table without definitions. -/
def empty : DefinitionTable := ⟨.empty⟩

instance : Inhabited DefinitionTable := ⟨empty⟩

/-- What registering a definition does to its simple name. -/
def addAlias (entries : OrderedMap String DefinitionEntry) (name : String) :
    OrderedMap String DefinitionEntry :=
  let simple := Name.simple name
  match entries.find? simple with
  | none => entries.insert simple (.alias name)
  | some (.alias other) => if other = name then entries else entries.insert simple .ambiguous
  | some _ => entries

/-- **Register a definition.** A definition registered before under the same name
is replaced, and keeps its place in the table. -/
def register (t : DefinitionTable) (d : Definition) : DefinitionTable :=
  let entries := if Name.isQualified d.name then addAlias t.entries d.name else t.entries
  ⟨entries.insert d.name (.declared d)⟩

/-- The table of the definitions of a list, registered one after another. -/
def ofList (ds : List Definition) : DefinitionTable :=
  ds.foldl register empty

/-- **The definition that a name stands for.** -/
def get? (t : DefinitionTable) (name : String) : Option Definition :=
  match t.entries.find? name with
  | some (.declared d) => some d
  | some (.alias qualified) =>
    match t.entries.find? qualified with
    | some (.declared d) => some d
    | _ => none
  | _ => none

/-- The definition that an entry holds. -/
def declared? : DefinitionEntry → Option Definition
  | .declared d => some d
  | _ => none

/-- The registered definitions, in the order of the table. -/
def definitions (t : DefinitionTable) : List Definition :=
  t.entries.values.filterMap declared?

/-- The number of registered definitions. -/
def size (t : DefinitionTable) : Nat := t.definitions.length

/-- Whether no definition is registered. -/
def isEmpty (t : DefinitionTable) : Bool := t.definitions.isEmpty

end DefinitionTable

end AnnotationPlan
