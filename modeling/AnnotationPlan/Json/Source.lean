import AnnotationPlan.Json.Numeral

/-!
# Reading JSON

A scene is handed over as JSON text, and the text may be wrong in two ways at
once: it may stop being JSON at some place, and a key or a name before or after
that place may make no sense. What is reported is the fault that comes first. So
reading the text does not fail; it yields a tree in which the place where the
text stops being JSON is marked (`Source.broken`), and whoever takes the tree apart
in the order of the text meets the faults in the order of the text.

For the same reason the tree keeps texts and numbers as they are spelled. Parts
of a scene that nobody asks for are skipped, and there a text need not stand for
characters, nor a number for anything. A container inside more than 127 others
can be skipped too, but not used (`Source.buried`).

`Source.isUsable` says that a part of the tree has none of these faults anywhere.
-/

namespace AnnotationPlan

/-- **JSON as it is spelled**, up to the first place at which it is none. -/
inductive Source where
  /-- The absent value. -/
  | null
  /-- A truth value. -/
  | bool (value : Bool)
  /-- A number. -/
  | number (spelled : Numeral)
  /-- A text: what stands between the quotes. -/
  | string (spelled : List Char)
  /-- An array. -/
  | array (items : List Source)
  /-- An object: the spelled keys and their values, in order. -/
  | object (members : List (List Char × Source))
  /-- A container that lies too deep to be used. -/
  | buried (content : Source)
  /-- The place where the text stops being JSON. -/
  | broken

namespace Source

/-- How many containers may lie within one another. -/
def depthLimit : Nat := 127

/-! ## Texts -/

/-- The value of a hexadecimal digit. -/
def hexValue? (c : Char) : Option Nat :=
  if c.isDigit then some (c.toNat - '0'.toNat)
  else if 'a' ≤ c ∧ c ≤ 'f' then some (c.toNat - 'a'.toNat + 10)
  else if 'A' ≤ c ∧ c ≤ 'F' then some (c.toNat - 'A'.toNat + 10)
  else none

/-- The value of four hexadecimal digits. -/
def unit? (a b c d : Char) : Option Nat := do
  let a ← hexValue? a
  let b ← hexValue? b
  let c ← hexValue? c
  let d ← hexValue? d
  pure (((a * 16 + b) * 16 + c) * 16 + d)

/-- The characters that stand for others after a backslash. -/
def letterEscapes : List (Char × Char) := [
  ('"', '"'), ('\\', '\\'), ('/', '/'), ('b', '\x08'), ('f', '\x0c'), ('n', '\n'),
  ('r', '\r'), ('t', '\t')]

/-- **What follows an opening quote**: the spelled text up to the closing quote,
and the characters after it. Control characters and unknown escapes are no part
of a text. -/
def readText? : List Char → Option (List Char × List Char)
  | [] => none
  | '"' :: rest => some ([], rest)
  | '\\' :: 'u' :: a :: b :: c :: d :: rest =>
    if (unit? a b c d).isSome then
      (readText? rest).map (fun r => ('\\' :: 'u' :: a :: b :: c :: d :: r.1, r.2))
    else none
  | '\\' :: c :: rest =>
    if (letterEscapes.lookup c).isSome then
      (readText? rest).map (fun r => ('\\' :: c :: r.1, r.2))
    else none
  | c :: rest =>
    if c = '\\' ∨ c.toNat < 0x20 then none
    else (readText? rest).map (fun r => (c :: r.1, r.2))

/-- **The characters that a spelled text stands for.** A surrogate counts only
together with its other half, and a backslash only together with what it escapes. -/
def unescape? : List Char → Option (List Char)
  | [] => some []
  | '\\' :: 'u' :: a :: b :: c :: d :: '\\' :: 'u' :: a' :: b' :: c' :: d' :: rest =>
    match unit? a b c d, unit? a' b' c' d' with
    | some hi, some lo =>
      if 0xD800 ≤ hi ∧ hi < 0xDC00 then
        if 0xDC00 ≤ lo ∧ lo < 0xE000 then
          (unescape? rest).map
            (Char.ofNat (0x10000 + (hi - 0xD800) * 0x400 + (lo - 0xDC00)) :: ·)
        else none
      else if 0xDC00 ≤ hi ∧ hi < 0xE000 then none
      else (unescape? ('\\' :: 'u' :: a' :: b' :: c' :: d' :: rest)).map (Char.ofNat hi :: ·)
    | _, _ => none
  | '\\' :: 'u' :: a :: b :: c :: d :: rest =>
    match unit? a b c d with
    | some n =>
      if 0xD800 ≤ n ∧ n < 0xE000 then none
      else (unescape? rest).map (Char.ofNat n :: ·)
    | none => none
  | '\\' :: c :: rest =>
    match letterEscapes.lookup c with
    | some e => (unescape? rest).map (e :: ·)
    | none => none
  | c :: rest => if c = '\\' then none else (unescape? rest).map (c :: ·)

/-- The text that a spelled text stands for. -/
def text? (spelled : List Char) : Option String :=
  (unescape? spelled).map String.ofList

/-! ## Numbers -/

/-- The digits at the front, of which there must be one. -/
def readDigits? (cs : List Char) : Option (List Char × List Char) :=
  if cs.takeWhile Char.isDigit = [] then none
  else some (cs.takeWhile Char.isDigit, cs.dropWhile Char.isDigit)

/-- The digits before the point: a zero stands alone. -/
def readWhole? (cs : List Char) : Option (List Char × List Char) :=
  match readDigits? cs with
  | some ('0' :: _ :: _, _) => none
  | r => r

/-- The point and the digits after it, if there is a point. -/
def readFraction? : List Char → Option (List Char × List Char)
  | '.' :: rest => readDigits? rest
  | cs => some ([], cs)

/-- The sign of an exponent. -/
def readSign : List Char → Bool × List Char
  | '-' :: rest => (true, rest)
  | '+' :: rest => (false, rest)
  | cs => (false, cs)

/-- The exponent, if there is one. -/
def readExponent? : List Char → Option (Option (Bool × List Char) × List Char)
  | c :: rest =>
    if c = 'e' ∨ c = 'E' then
      let (down, cs) := readSign rest
      (readDigits? cs).map (fun r => (some (down, r.1), r.2))
    else some (none, c :: rest)
  | [] => some (none, [])

/-- **A number at the front.** -/
def readNumber? (cs : List Char) : Option (Numeral × List Char) := do
  let (negative, cs) := match cs with
    | '-' :: rest => (true, rest)
    | _ => (false, cs)
  let (whole, cs) ← readWhole? cs
  let (fraction, cs) ← readFraction? cs
  let (exponent, cs) ← readExponent? cs
  pure (⟨negative, whole, fraction, exponent⟩, cs)

/-! ## Values -/

/-- The characters that may stand between the parts of a value. -/
def isGap (c : Char) : Bool :=
  c == ' ' || c == '\n' || c == '\t' || c == '\r'

/-- A container, with the room there was for it. -/
def container (room : Nat) (s : Source) : Source :=
  if room = 0 then .buried s else s

/-- The place where a text breaks before the end of a key: a lone backslash is the
spelling of no text, so that nothing is made of the key. -/
def brokenMember : List Char × Source := (['\\'], .broken)

/-- A value that is spelled in one piece, or the place where there is none. -/
def scalar {α : Type} (make : α → Source) : Option (α × List Char) → Source × Option (List Char)
  | some (a, rest) => (make a, some rest)
  | none => (.broken, none)

mutual

/-- **Read a value**: the value and the characters after it, which are missing if
the text breaks within the value. The first number bounds the number of steps,
and the second says how many containers may still be opened. -/
def read : Nat → Nat → List Char → Source × Option (List Char)
  | 0, _, _ => (.broken, none)
  | steps + 1, room, cs =>
    match cs.dropWhile isGap with
    | 'n' :: 'u' :: 'l' :: 'l' :: rest => (.null, some rest)
    | 't' :: 'r' :: 'u' :: 'e' :: rest => (.bool true, some rest)
    | 'f' :: 'a' :: 'l' :: 's' :: 'e' :: rest => (.bool false, some rest)
    | '"' :: rest => scalar .string (readText? rest)
    | '[' :: rest =>
      let r := readItems steps (room - 1) rest
      (container room (.array r.1), r.2)
    | '\x7b' :: rest =>
      let r := readMembers steps (room - 1) rest
      (container room (.object r.1), r.2)
    | cs => scalar .number (readNumber? cs)

/-- Read the items of an array after its opening bracket. -/
def readItems : Nat → Nat → List Char → List Source × Option (List Char)
  | 0, _, _ => ([.broken], none)
  | steps + 1, room, cs =>
    match cs.dropWhile isGap with
    | ']' :: rest => ([], some rest)
    | cs => readItem steps room cs

/-- Read an item of an array and those after it. -/
def readItem : Nat → Nat → List Char → List Source × Option (List Char)
  | 0, _, _ => ([.broken], none)
  | steps + 1, room, cs =>
    match read steps room cs with
    | (v, none) => ([v], none)
    | (v, some rest) =>
      let r := readMoreItems steps room rest
      (v :: r.1, r.2)

/-- Read what follows an item of an array. -/
def readMoreItems : Nat → Nat → List Char → List Source × Option (List Char)
  | 0, _, _ => ([.broken], none)
  | steps + 1, room, cs =>
    match cs.dropWhile isGap with
    | ']' :: rest => ([], some rest)
    | ',' :: rest => readItem steps room rest
    | _ => ([.broken], none)

/-- Read the members of an object after its opening brace. -/
def readMembers : Nat → Nat → List Char → List (List Char × Source) × Option (List Char)
  | 0, _, _ => ([brokenMember], none)
  | steps + 1, room, cs =>
    match cs.dropWhile isGap with
    | '\x7d' :: rest => ([], some rest)
    | cs => readMember steps room cs

/-- Read a member of an object and those after it. A text that breaks before the
end of the key leaves a key that is no text. -/
def readMember : Nat → Nat → List Char → List (List Char × Source) × Option (List Char)
  | 0, _, _ => ([brokenMember], none)
  | steps + 1, room, cs =>
    match cs.dropWhile isGap with
    | '"' :: rest =>
      match readText? rest with
      | none => ([brokenMember], none)
      | some (k, rest) =>
        match rest.dropWhile isGap with
        | ':' :: rest =>
          match read steps room rest with
          | (v, none) => ([(k, v)], none)
          | (v, some rest) =>
            let r := readMoreMembers steps room rest
            ((k, v) :: r.1, r.2)
        | _ => ([(k, .broken)], none)
    | _ => ([brokenMember], none)

/-- Read what follows a member of an object. -/
def readMoreMembers : Nat → Nat → List Char → List (List Char × Source) × Option (List Char)
  | 0, _, _ => ([brokenMember], none)
  | steps + 1, room, cs =>
    match cs.dropWhile isGap with
    | '\x7d' :: rest => ([], some rest)
    | ',' :: rest => readMember steps room rest
    | _ => ([brokenMember], none)

end

/-- **Read a whole text**: the value at its front, and whether there is nothing
behind it. -/
def ofText (s : String) : Source × Bool :=
  let cs := s.toList
  match read (4 * cs.length + 4) depthLimit cs with
  | (v, some rest) => (v, (rest.dropWhile isGap).isEmpty)
  | (v, none) => (v, false)

/-! ## Faults -/

mutual

/-- **Whether the text does not break** anywhere in a value. This is all that is
asked of a value to be skipped. -/
def isWhole : Source → Bool
  | .broken => false
  | .buried s => s.isWhole
  | .array items => areWhole items
  | .object members => areWholeMembers members
  | _ => true

/-- Whether the text breaks in none of the items. -/
def areWhole : List Source → Bool
  | [] => true
  | s :: rest => s.isWhole && areWhole rest

/-- Whether the text breaks in none of the members. -/
def areWholeMembers : List (List Char × Source) → Bool
  | [] => true
  | (_, s) :: rest => s.isWhole && areWholeMembers rest

end

mutual

/-- **Whether a value can be used with all its parts**: the text does not break in
it, nothing lies too deep, all texts stand for characters and all numbers for
numbers. -/
def isUsable : Source → Bool
  | .broken => false
  | .buried _ => false
  | .number x => x.value?.isSome
  | .string s => (unescape? s).isSome
  | .array items => areUsable items
  | .object members => areUsableMembers members
  | _ => true

/-- Whether all items can be used. -/
def areUsable : List Source → Bool
  | [] => true
  | s :: rest => s.isUsable && areUsable rest

/-- Whether all members can be used, their keys included. -/
def areUsableMembers : List (List Char × Source) → Bool
  | [] => true
  | (k, s) :: rest => (unescape? k).isSome && s.isUsable && areUsableMembers rest

end

end Source

end AnnotationPlan
