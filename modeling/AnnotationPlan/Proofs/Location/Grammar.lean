import AnnotationPlan.Location.AstPath
import AnnotationPlan.Location.LocalVariable
import AnnotationPlan.Location.Relative
import AnnotationPlan.Location.TypePath

/-!
# The grammar of locations

A location has one canonical text, but more texts are read as it: numbers may have leading zeros,
an integer zero a minus, the number of the first type of an intersection may be written or not,
and there may be blanks around the commas of a path in the syntax tree and several of them before
an argument. What is written for what is stated here for its own sake, and not by the way in which
it is read: which characters may be written for a number, a step of a type path, an entry, and for
several things in a row (`Row`).
-/

namespace AnnotationPlan

namespace Location

/-- **Things in a row**: what is written for each of them, one after another. -/
inductive Row {α : Type} (writes : List Char → α → Prop) : List Char → List α → Prop
  /-- Nothing is written for no things. -/
  | nil : Row writes [] []
  /-- A thing and those after it. -/
  | cons {cs ds : List Char} {x : α} {xs : List α} (first : writes cs x)
      (more : Row writes ds xs) : Row writes (cs ++ ds) (x :: xs)

/-- **The longest row at the front** of some characters. -/
structure IsLongestRow {α : Type} (writes : List Char → α → Prop) (front cs : List Char) :
    Prop where
  /-- The characters begin with it. -/
  atFront : front <+: cs
  /-- It is a row. -/
  row : ∃ xs, Row writes front xs
  /-- All rows that the characters begin with are at its front. -/
  longest : ∀ {other xs}, other <+: cs → Row writes other xs → other <+: front

/-- **A number in decimal digits**, of which there is at least one. Zeros may lead. -/
structure Digits (cs : List Char) (n : Nat) : Prop where
  /-- There is a digit. -/
  ne_nil : cs ≠ []
  /-- There is nothing else. -/
  isDigit : ∀ c ∈ cs, c.isDigit = true
  /-- The digits denote the number. -/
  value : Scan.digitsValue cs = n

/-- **An integer of 32 bits in decimal digits**, possibly after a minus. -/
inductive Decimal : List Char → Int32 → Prop
  /-- Without a minus. -/
  | plain {cs : List Char} {m : Nat} {n : Int32} (digits : Digits cs m) (value : n.toInt = m) :
      Decimal cs n
  /-- After a minus. -/
  | minus {cs : List Char} {m : Nat} {n : Int32} (digits : Digits cs m)
      (value : n.toInt = -m) : Decimal ('-' :: cs) n

end Location

open Location

/-- **What is written for a step** into a compound type: one of three signs, or the number of an
argument and a semicolon. -/
inductive TypePath.Step.Written : List Char → TypePath.Step → Prop
  /-- The component of an array. -/
  | array : Written ['['] .array
  /-- The nested type. -/
  | inner : Written ['.'] .inner
  /-- The bound of a wildcard. -/
  | wildcard : Written ['*'] .wildcard
  /-- An argument. -/
  | argument {cs : List Char} {i : UInt8} (digits : Digits cs i.toNat) :
      Written (cs ++ [';']) (.argument i)

namespace AstEntry

/-- **What is written for the argument of an entry**: nothing if there is none, and otherwise
one blank or more and the number. -/
inductive ArgumentWritten : List Char → Option Int32 → Prop
  /-- There is no argument. -/
  | none : ArgumentWritten [] none
  /-- There is one. -/
  | some {blanks cs : List Char} {n : Int32} (nonempty : blanks ≠ [])
      (areBlanks : ∀ c ∈ blanks, AstPath.isSeparatorBlank c = true) (number : Decimal cs n) :
      ArgumentWritten (blanks ++ cs) (some n)

/-- **What is written for an entry**: the name of the kind, a dot, a selector of letters, digits
and underscores, and the argument. -/
inductive Written : List Char → AstEntry → Prop
  /-- The parts one after another. -/
  | mk {selector cs : List Char} (kind : TreeKind) {argument : Option Int32}
      (nonempty : selector ≠ []) (isSelector : ∀ c ∈ selector, AstPath.isSelectorChar c = true)
      (written : ArgumentWritten cs argument) :
      Written (kind.name.toList ++ '.' :: (selector ++ cs))
        ⟨kind, String.ofList selector, argument⟩

/-- **What is written for a further entry**: a comma with blanks around it or none, and the
entry. -/
inductive FurtherWritten : List Char → AstEntry → Prop
  /-- The parts one after another. -/
  | mk {before after cs : List Char} {e : AstEntry}
      (blanksBefore : ∀ c ∈ before, AstPath.isSeparatorBlank c = true)
      (blanksAfter : ∀ c ∈ after, AstPath.isSeparatorBlank c = true) (written : Written cs e) :
      FurtherWritten (before ++ ',' :: (after ++ cs)) e

end AstEntry

/-- **What is written for a path** in the syntax tree that is not empty: an entry, and any
number of further ones. -/
inductive AstPath.Written : List Char → AstPath → Prop
  /-- The entries one after another. -/
  | mk {cs ds : List Char} {first : AstEntry} {rest : List AstEntry} (written : first.Written cs)
      (further : Row AstEntry.FurtherWritten ds rest) : Written (cs ++ ds) ⟨first :: rest⟩

/-- **What is written for any path** in the syntax tree: blanks for the empty one, and otherwise
what is written for the path, with blanks around it. -/
inductive AstPath.Framed : List Char → AstPath → Prop
  /-- Nothing but blanks. -/
  | empty {cs : List Char} (blanks : ∀ c ∈ cs, Text.isBlank c = true) : Framed cs ⟨[]⟩
  /-- A path between blanks. -/
  | path {before cs after : List Char} {p : AstPath}
      (blanksBefore : ∀ c ∈ before, Text.isBlank c = true)
      (blanksAfter : ∀ c ∈ after, Text.isBlank c = true) (written : p.Written cs) :
      Framed (before ++ (cs ++ after)) p

/-- **What is written for an anchor**: a sign and a number. -/
inductive RelativeAnchor.Written : List Char → RelativeAnchor → Prop
  /-- An offset. -/
  | offset {cs : List Char} {n : UInt32} (digits : Digits cs n.toNat) :
      Written ('#' :: cs) (.offset n)
  /-- An index. -/
  | index {cs : List Char} {n : UInt32} (digits : Digits cs n.toNat) :
      Written ('*' :: cs) (.index n)

/-- **What is written for the place of an expression**: an anchor, and behind a comma the number
of a type, which may be left out if it is zero. -/
inductive RelativeLocation.Written : List Char → RelativeLocation → Prop
  /-- Without the number of a type. -/
  | plain {cs : List Char} {a : RelativeAnchor} (anchor : a.Written cs) : Written cs ⟨a, 0⟩
  /-- With it. -/
  | typeIndex {cs ds : List Char} {a : RelativeAnchor} {n : UInt32} (anchor : a.Written cs)
      (digits : Digits ds n.toNat) : Written (cs ++ ',' :: ds) ⟨a, n⟩

/-- **What is written for a bound**: the number of the parameter, a sign and the number of the
bound. -/
inductive BoundLocation.Written : List Char → BoundLocation → Prop
  /-- The parts one after another. -/
  | mk {cs ds : List Char} {parameter : UInt32} {bound : Int32} (digits : Digits cs parameter.toNat)
      (number : Decimal ds bound) : Written (cs ++ '&' :: ds) ⟨parameter, bound⟩

/-- **What is written for a supertype**: its number. -/
inductive SupertypeLocation.Written : List Char → SupertypeLocation → Prop
  /-- The number. -/
  | mk {cs : List Char} {index : Int32} (number : Decimal cs index) : Written cs ⟨index⟩

/-- **What is written for a local variable**: the numbers of its slot and of its range, each behind
a sign of its own, or its name, a star and its number. -/
inductive LocalLocation.Written : List Char → LocalLocation → Prop
  /-- By slot. -/
  | scoped {cs ds es : List Char} {index start length : UInt32} (slot : Digits cs index.toNat)
      (first : Digits ds start.toNat) (size : Digits es length.toNat) :
      Written ('#' :: (cs ++ '#' :: (ds ++ '+' :: es))) (.scoped index start length)
  /-- By name. -/
  | named {name cs : List Char} {ordinal : UInt32} (nonempty : name ≠ [])
      (isName : ∀ c ∈ name, LocalLocation.isNameChar c = true) (digits : Digits cs ordinal.toNat) :
      Written (name ++ '*' :: cs) (.named (String.ofList name) ordinal)

end AnnotationPlan
