import AnnotationPlan.Location.Scan

/-!
# Paths in the syntax tree

Where a declaration contains code, a place in it is named by the way down the
**syntax tree**: at each node the kind of the node, the child taken, and, for
children that come in numbers, which of them. The path

    Method.body, Block.statement 1, ExpressionStatement.expression

leads from a method to its body, to the second statement there and to the
expression in it. The empty path is the declaration itself.

The kinds of nodes are a closed list of names (`TreeKind.names`), and a
`TreeKind` is one of them. The child selectors are not checked against the kind.

Blanks around a path do not count, and neither do spaces, tabs and line ends
before and after the commas between its entries. Errors are counted from the
first character that is not blank.
-/

namespace AnnotationPlan

/-- The names of the kinds of nodes. -/
def TreeKind.names : List String := [
  "Annotation", "AnnotatedType", "ArrayAccess", "ArrayType", "Assert", "Assignment", "Binary",
  "Block", "Case", "Catch", "Class", "CompoundAssignment", "ConditionalExpression",
  "DoWhileLoop", "EnhancedForLoop", "ExpressionStatement", "ForLoop", "Identifier", "If",
  "InstanceOf", "IntersectionType", "LabeledStatement", "Lambda", "MemberReference",
  "MemberSelect", "Method", "MethodInvocation", "NewArray", "NewClass", "ParameterizedType",
  "Parenthesized", "PrimitiveType", "Return", "Switch", "Synchronized", "Throw", "Try",
  "TypeCast", "TypeParameter", "Unary", "UnionType", "Variable", "WhileLoop", "Wildcard"]

/-- **The kind of a node** of the syntax tree, known by its name. -/
structure TreeKind where
  /-- The name of the kind. -/
  name : String
  /-- The name is one of the known ones. -/
  known : name ∈ TreeKind.names := by decide
deriving DecidableEq

namespace TreeKind

/-- The creation of an array. -/
def newArray : TreeKind := { name := "NewArray" }

/-- The creation of an object. -/
def newClass : TreeKind := { name := "NewClass" }

/-- The kind with a given name. -/
def ofName? (s : String) : Option TreeKind :=
  if h : s ∈ names then some ⟨s, h⟩ else none

/-- The name of a kind is the name of that kind. -/
@[simp] theorem ofName?_name (k : TreeKind) : ofName? k.name = some k := by
  simp [ofName?, k.known]

end TreeKind

/-- **One step down the syntax tree**: a child of a node. -/
structure AstEntry where
  /-- The kind of the node. -/
  kind : TreeKind
  /-- Which child, or which family of children. -/
  selector : String
  /-- The number of the child within its family. -/
  argument : Option Int32
deriving DecidableEq

namespace AstEntry

/-- The selector of the parameters of a method; the receiver has number `-1`. -/
def parameter : String := "parameter"

/-- The selector of the type of a new array. -/
def type : String := "type"

/-- The selector of the class of a new object. -/
def identifier : String := "identifier"

/-- The written form: kind, dot, selector and, after a space, the argument. -/
def text (e : AstEntry) : String :=
  e.kind.name ++ "." ++ e.selector
    ++ match e.argument with
      | none => ""
      | some n => " " ++ n.toInt.repr

end AstEntry

/-- **A path down the syntax tree.** -/
structure AstPath where
  /-- The entries, from the declaration down. -/
  entries : List AstEntry
deriving DecidableEq

namespace AstPath

/-- Whether the path stays at the declaration. -/
def isEmpty (p : AstPath) : Bool := p.entries.isEmpty

/-- The last entry, if there is one. -/
def last? (p : AstPath) : Option AstEntry := p.entries.getLast?

/-- The written form: the entries with a comma and a space between them. -/
def text (p : AstPath) : String := String.intercalate ", " (p.entries.map AstEntry.text)

/-! ## Reading -/

/-- The characters that may stand around the comma between two entries. -/
def isSeparatorBlank (c : Char) : Bool :=
  c == ' ' || c == '\t' || c == '\r' || c == '\n'

/-- The characters of a selector. -/
def isSelectorChar (c : Char) : Bool :=
  c.isAlphanum || c == '_'

/-- Read the name of a kind; an unknown one is read to its end. -/
def scanKind : Location.Scan TreeKind := fun cs =>
  match Location.Scan.run Char.isAlpha cs with
  | .error rest => .error rest
  | .ok (letters, rest) =>
    match TreeKind.ofName? (String.ofList letters) with
    | some k => .ok (k, rest)
    | none => .error rest

/-- Read an argument and the blanks before it, of which there is at least one. -/
def scanArgument : Location.Scan Int32 := do
  let _ ← Location.Scan.run isSeparatorBlank
  Location.Scan.integer

/-- Read an entry. -/
def scanEntry : Location.Scan AstEntry := do
  let kind ← scanKind
  Location.Scan.char '.'
  let selector ← Location.Scan.run isSelectorChar
  let argument ← Location.Scan.optional scanArgument
  pure ⟨kind, String.ofList selector, argument⟩

/-- Read a comma and the entry after it. -/
def scanNext : Location.Scan AstEntry := do
  Location.Scan.skip isSeparatorBlank
  Location.Scan.char ','
  Location.Scan.skip isSeparatorBlank
  scanEntry

/-- Read one entry or more. -/
def scan : Location.Scan AstPath := do
  let first ← scanEntry
  let rest ← Location.Scan.many scanNext
  pure ⟨first :: rest⟩

/-- **Read a text as a path.** A text of blanks is the empty path. -/
def parse (s : String) : Except Location.ParseError AstPath :=
  if Text.trimChars s.toList = [] then .ok ⟨[]⟩
  else Location.Scan.parse .astPath scan s (Text.trimChars s.toList)

end AstPath

end AnnotationPlan
