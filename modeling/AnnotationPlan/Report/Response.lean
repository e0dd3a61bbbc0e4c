import AnnotationPlan.Report.Record

/-!
# What the program answers

The program answers with one JSON value that begins with a status and the version of
its form: the records of a plan with everything that belongs to them, the names that
must be written in full, or an error with its code. A plan may also be listed as text,
one line for each insertion and one for each warning (`Plan.listing`).
-/

namespace AnnotationPlan

/-- The version of the form of all answers. -/
def schemaVersion : String := "1"

/-- An answer with a status. -/
def answer (status : String) (members : List (String × Json)) : Json :=
  .object (("status", .string status) :: ("schema_version", .string schemaVersion) :: members)

/-- A JSON value on lines of its own, the last one ended. -/
def Json.lines (v : Json) : String := v.pretty ++ "\n"

/-- A JSON value on one line, which is ended. -/
def Json.line (v : Json) : String := v.compact ++ "\n"

/-- A warning as JSON. -/
def Warning.json (w : Warning) : Json :=
  .object [("code", .string Warning.code), ("message", .string w.message),
    ("class_name", .string w.className)]

namespace Plan

/-- The answer with a plan of which the records are given. -/
def answerWith (p : Plan) (records : List Record) : Json :=
  answer "ok" [
    ("fingerprint", .string (Record.fingerprint records)),
    ("insertions", .array (Record.jsons records)),
    ("always_qualify", Json.strings p.policy.alwaysQualify),
    ("imports", Json.strings p.imports),
    ("warnings", .array (p.warnings.map Warning.json))]

/-- **The answer with a plan.** -/
def response (p : Plan) : Except PlanError Json := do
  let records ← p.records
  pure (p.answerWith records)

end Plan

/-- **The answer with the names that must be written in full.** -/
def NamePolicy.response (p : NamePolicy) : Json :=
  answer "ok" [("always_qualify", Json.strings p.alwaysQualify)]

/-- **The answer with an error.** -/
def errorResponse (code : ErrorCode) (message : String) : Json :=
  answer "error" [("error",
    .object [("code", .number code.number), ("message", .string message)])]

/-! ## The listing -/

namespace Listing

/-- A character of a listed text: line ends, tabs, quotes and backslashes as escapes,
and everything that is not printable ASCII by its code point. -/
def escape (c : Char) : List Char :=
  if c = '\t' then ['\\', 't']
  else if c = '\r' then ['\\', 'r']
  else if c = '\n' then ['\\', 'n']
  else if c = '\'' then ['\\', '\'']
  else if c = '"' then ['\\', '"']
  else if c = '\\' then ['\\', '\\']
  else if 0x20 ≤ c.toNat ∧ c.toNat < 0x7F then [c]
  else '\\' :: 'u' :: '\x7b' :: (Nat.toDigits 16 c.toNat ++ ['\x7d'])

/-- A text in a listing. -/
def escaped (s : String) : String := String.ofList (s.toList.flatMap escape)

/-- The line of an insertion: number, kind, criteria and text, with tabs between
them. -/
def insertionLine (id : InsertionId) (i : Insertion) (text : String) : String :=
  id.repr ++ "\t" ++ i.kindName ++ "\t" ++ i.criteria.text ++ "\t" ++ escaped text ++ "\n"

/-- The line of a warning. -/
def warningLine (w : Warning) : String :=
  "warning[" ++ Warning.code ++ "]: " ++ w.message ++ "\n"

end Listing

/-- The line of an insertion of the output. -/
def Plan.listingLine (p : Plan) (id : InsertionId) : Except PlanError String := do
  let i ← p.store.lookup id
  let text ← p.store.render id
  pure (Listing.insertionLine id i text)

/-- **The listing of a plan.** -/
def Plan.listing (p : Plan) : Except PlanError String := do
  let lines ← p.order.mapM p.listingLine
  pure (String.join lines ++ String.join (p.warnings.map Listing.warningLine))

end AnnotationPlan
