/-!
# Writing JSON

What the program reports is JSON. A `Json` holds as much of that format as is
reported: texts, natural numbers, truth values, arrays, and objects whose members
stay in the order in which they are given.

There are two ways of writing it. `Json.compact` has no blanks at all; `Json.pretty`
puts every member and every item on a line of its own, two spaces further in than
what encloses it. Both write a text with the same escapes (`Json.escape`): only
the quote, the backslash and the characters below the space are escaped, and
everything beyond ASCII stands for itself.
-/

namespace AnnotationPlan

/-- **A JSON value** to be written. -/
inductive Json where
  /-- The absent value. -/
  | null
  /-- A truth value. -/
  | bool (value : Bool)
  /-- A natural number. -/
  | number (value : Nat)
  /-- A text. -/
  | string (value : String)
  /-- An array. -/
  | array (items : List Json)
  /-- An object, its members in order. -/
  | object (members : List (String × Json))

namespace Json

/-- A character of a text, as an escape if it needs one. -/
def escape (c : Char) : List Char :=
  if c = '"' then ['\\', '"']
  else if c = '\\' then ['\\', '\\']
  else if c = '\x08' then ['\\', 'b']
  else if c = '\x0c' then ['\\', 'f']
  else if c = '\n' then ['\\', 'n']
  else if c = '\r' then ['\\', 'r']
  else if c = '\t' then ['\\', 't']
  else if c.toNat < 0x20 then '\\' :: 'u' :: List.leftpad 4 '0' (Nat.toDigits 16 c.toNat)
  else [c]

/-- A text between quotes. -/
def quote (s : String) : String :=
  String.ofList ('"' :: (s.toList.flatMap escape ++ ['"']))

/-- The written form of a truth value. -/
def boolText (b : Bool) : String := if b then "true" else "false"

mutual

/-- **The value on one line, without blanks.** -/
def compact : Json → String
  | .null => "null"
  | .bool b => boolText b
  | .number n => n.repr
  | .string s => quote s
  | .array items => "[" ++ String.intercalate "," (compactItems items) ++ "]"
  | .object members => "\x7b" ++ String.intercalate "," (compactMembers members) ++ "\x7d"

/-- The items of an array, each on its own. -/
def compactItems : List Json → List String
  | [] => []
  | v :: rest => v.compact :: compactItems rest

/-- The members of an object, each on its own. -/
def compactMembers : List (String × Json) → List String
  | [] => []
  | (k, v) :: rest => (quote k ++ ":" ++ v.compact) :: compactMembers rest

end

/-- The beginning of a line at a given depth. -/
def newLine (depth : Nat) : String :=
  String.ofList ('\n' :: List.replicate (2 * depth) ' ')

/-- Parts between two brackets, each on a line of its own; without parts the
brackets stand together. -/
def block (opening closing : String) (depth : Nat) (parts : List String) : String :=
  match parts with
  | [] => opening ++ closing
  | _ =>
    opening ++ newLine (depth + 1)
      ++ String.intercalate ("," ++ newLine (depth + 1)) parts
      ++ newLine depth ++ closing

mutual

/-- The value on lines of its own, inside others at the given depth. -/
def prettyAt (depth : Nat) : Json → String
  | .null => "null"
  | .bool b => boolText b
  | .number n => n.repr
  | .string s => quote s
  | .array items => block "[" "]" depth (prettyItems (depth + 1) items)
  | .object members => block "\x7b" "\x7d" depth (prettyMembers (depth + 1) members)

/-- The items of an array, each on its own. -/
def prettyItems (depth : Nat) : List Json → List String
  | [] => []
  | v :: rest => prettyAt depth v :: prettyItems depth rest

/-- The members of an object, each on its own. -/
def prettyMembers (depth : Nat) : List (String × Json) → List String
  | [] => []
  | (k, v) :: rest => (quote k ++ ": " ++ prettyAt depth v) :: prettyMembers depth rest

end

/-- **The value with every part on its own line.** -/
def pretty (v : Json) : String := prettyAt 0 v

/-- An array of texts. -/
def strings (ss : List String) : Json := .array (ss.map .string)

end Json

end AnnotationPlan
