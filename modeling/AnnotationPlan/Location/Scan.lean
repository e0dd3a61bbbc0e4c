import AnnotationPlan.Text.Blank

/-!
# Scanning the text of a location

Every location key of a scene – a type path, a path in the syntax tree, the
place of an expression, a bound, a local variable – has one written form, and
all of them are read by the same few scanners.

A **scanner** reads from the front of a list of characters. It answers either
what it read together with the characters that are left, or, when it cannot go
on, the characters at which it stopped. Where it stopped is part of the answer
because it is reported to the user: an error names the number of bytes before
that place (`ParseError.message`).

Two rules fix where a failing scanner stops. A sequence stops where its failing
part stopped. Whatever tries something and may do without it – `Scan.orElse`,
`Scan.optional`, `Scan.many` – starts the next attempt at its own beginning; so
does a number that is written correctly but too large for its type.
-/

namespace AnnotationPlan.Location

/-- The kinds of location keys. -/
inductive Kind where
  /-- A path into a compound type. -/
  | typePath
  /-- A path down the syntax tree. -/
  | astPath
  /-- The place of an expression in a method. -/
  | relative
  /-- A bound of a type parameter. -/
  | bound
  /-- A clause that names a supertype. -/
  | supertype
  /-- A local variable. -/
  | localVariable
deriving DecidableEq

/-- What a kind of location is called in messages. -/
def Kind.name : Kind → String
  | .typePath => "type path"
  | .astPath => "AST path"
  | .relative => "relative location"
  | .bound => "bound location"
  | .supertype => "extends/implements index"
  | .localVariable => "local location"

/-- **A text that is no location.** -/
structure ParseError where
  /-- The kind of location that was expected. -/
  kind : Kind
  /-- The text as it was given. -/
  input : String
  /-- The number of bytes before the place where reading stopped. -/
  offset : Nat
deriving DecidableEq

/-- The message that reports a text that is no location. -/
def ParseError.message (e : ParseError) : String :=
  "invalid " ++ e.kind.name ++ " '" ++ e.input ++ "': unexpected input at offset "
    ++ e.offset.repr

/-- The number of bytes that a list of characters takes in UTF-8. -/
def byteLength (cs : List Char) : Nat :=
  cs.foldr (fun c n => c.utf8Size + n) 0

/-- **A scanner**: from the characters to read to a value and the characters
left over, or to the characters at which it stopped. -/
abbrev Scan (α : Type) : Type := StateT (List Char) (Except (List Char)) α

namespace Scan

/-- Read one given character. -/
def char (c : Char) : Scan Unit
  | d :: rest => if d = c then .ok ((), rest) else .error (d :: rest)
  | [] => .error []

/-- Read the longest run of characters of a class, which must not be empty. -/
def run (p : Char → Bool) : Scan (List Char) := fun cs =>
  if cs.takeWhile p = [] then .error cs else .ok (cs.takeWhile p, cs.dropWhile p)

/-- Read what can be read of a class, possibly nothing. -/
def skip (p : Char → Bool) : Scan Unit := fun cs =>
  .ok ((), cs.dropWhile p)

/-- Read one thing, or else another from the same place. -/
def orElse {α : Type} (p q : Scan α) : Scan α := fun cs =>
  match p cs with
  | .ok r => .ok r
  | .error _ => q cs

/-- Read a thing if it is there. -/
def optional {α : Type} (p : Scan α) : Scan (Option α) := fun cs =>
  match p cs with
  | .ok (a, rest) => .ok (some a, rest)
  | .error _ => .ok (none, cs)

/-- Read a thing again and again while it is there, a bounded number of times. -/
def manyUpTo {α : Type} (p : Scan α) : Nat → List Char → List α × List Char
  | 0, cs => ([], cs)
  | n + 1, cs =>
    match p cs with
    | .ok (a, rest) =>
      let r := manyUpTo p n rest
      (a :: r.1, r.2)
    | .error _ => ([], cs)

/-- **Read a thing as often as it is there.** A thing that takes at least one
character each time cannot be there more often than there are characters, so
the bound is never felt. -/
def many {α : Type} (p : Scan α) : Scan (List α) := fun cs =>
  .ok (manyUpTo p cs.length cs)

/-- The number that a run of decimal digits denotes. -/
def digitsValue (ds : List Char) : Nat :=
  Nat.ofDigitChars 10 ds 0

/-- **A natural number** in decimal digits, below `2 ^ 32`. -/
def natural : Scan UInt32 := fun cs =>
  let ds := cs.takeWhile Char.isDigit
  if ds ≠ [] ∧ digitsValue ds < UInt32.size then
    .ok (UInt32.ofNat (digitsValue ds), cs.dropWhile Char.isDigit)
  else .error cs

/-- **An integer** in decimal digits, possibly after a minus, of 32 bits. A
minus without a digit behind it is read nevertheless, and reading stops after
it. -/
def integer : Scan Int32
  | '-' :: rest =>
    let ds := rest.takeWhile Char.isDigit
    if ds = [] then .error rest
    else if digitsValue ds ≤ Nat.pow 2 31 then
      .ok (Int32.ofInt (-(digitsValue ds : Int)), rest.dropWhile Char.isDigit)
    else .error ('-' :: rest)
  | cs =>
    let ds := cs.takeWhile Char.isDigit
    if ds ≠ [] ∧ digitsValue ds < Nat.pow 2 31 then
      .ok (Int32.ofInt (digitsValue ds : Int), cs.dropWhile Char.isDigit)
    else .error cs

/-- **Read a whole text** as a location. What is left over at the end is an
error like any other; `input` is the text that an error shows. -/
def parse {α : Type} (kind : Kind) (p : Scan α) (input : String) (cs : List Char) :
    Except ParseError α :=
  match p cs with
  | .ok (a, []) => .ok a
  | .ok (_, rest) => .error ⟨kind, input, byteLength cs - byteLength rest⟩
  | .error rest => .error ⟨kind, input, byteLength cs - byteLength rest⟩

end Scan

end AnnotationPlan.Location
