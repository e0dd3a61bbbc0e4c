import AnnotationPlan.Digest.Sha256
import AnnotationPlan.Json.Document
import AnnotationPlan.Synthesis.Plan

/-!
# Records of insertions

What is reported of an insertion is a **record**: its number, kind, text, criteria, and
the definitions of the annotations that went into it, together with the records of the
insertions that it refers to. So the records of the output hold everything, those
insertions included that are reached only through others.

The **fingerprint** of a list of records is the digest of its compact JSON text. Two
lists that differ anywhere have different texts.
-/

namespace AnnotationPlan

mutual

/-- **What is reported of an insertion.** -/
structure Record where
  /-- The number of the insertion. -/
  id : InsertionId
  /-- What it is called. -/
  kind : String
  /-- The source text. -/
  text : String
  /-- The criteria in their written form. -/
  criteria : List String
  /-- Whether it goes on a line of its own. -/
  separateLine : Bool
  /-- The definitions that the annotations in it name. -/
  sources : List String
  /-- The insertions within the type of a receiver or of a created object. -/
  inner : List Record
  /-- What a constructor has taken up. -/
  constructor : Option ConstructorRecord

/-- What is reported of what a constructor has taken up. -/
structure ConstructorRecord where
  /-- The receiver. -/
  receiver : Option Record
  /-- The annotations above it. -/
  declarations : List Record

end

namespace Record

mutual

/-- **The record as JSON**; what is empty is left out. -/
def json : Record → Json
  | ⟨id, kind, text, criteria, separateLine, sources, inner, constructor⟩ =>
    .object ([("id", .number id), ("kind", .string kind), ("text", .string text),
        ("criteria", Json.strings criteria), ("separate_line", .bool separateLine)]
      ++ (if sources.isEmpty then [] else [("sources", Json.strings sources)])
      ++ (if inner.isEmpty then [] else [("inner", .array (jsons inner))])
      ++ constructorMember constructor)
termination_by structural r => r

/-- Several records as JSON. -/
def jsons : List Record → List Json
  | [] => []
  | r :: rest => r.json :: jsons rest
termination_by structural rs => rs

/-- The member for what a constructor has taken up. -/
def constructorMember : Option ConstructorRecord → List (String × Json)
  | none => []
  | some c => [("constructor", constructorJson c)]
termination_by structural c => c

/-- What a constructor has taken up, as JSON. -/
def constructorJson : ConstructorRecord → Json
  | ⟨receiver, declarations⟩ =>
    .object [("receiver", receiverJson receiver), ("declarations", .array (jsons declarations))]
termination_by structural c => c

/-- The receiver of a constructor as JSON. -/
def receiverJson : Option Record → Json
  | none => .null
  | some r => r.json
termination_by structural r => r

end

/-- **The compact JSON text of records.** -/
def listText (records : List Record) : String := (Json.array (jsons records)).compact

/-- **The fingerprint of records.** -/
def fingerprint (records : List Record) : String :=
  Sha256.digest (listText records).toUTF8.data

end Record

namespace Plan

/-- The record of an insertion that refers to others over at most the given number of
steps. -/
def recordWithin (p : Plan) : Nat → InsertionId → Except PlanError Record
  | 0, id =>
    .error (.invariant CriteriaList.empty.text ("insertion " ++ id.repr ++ " contains itself"))
  | n + 1, id => do
    let i ← p.store.lookup id
    let inner ← i.inner.mapM (p.recordWithin n)
    let constructor ← match i with
      | .constructor _ _ receiver declarations => do
        let receiver ← match receiver with
          | some r => do
            let record ← p.recordWithin n r
            pure (some record)
          | none => pure none
        let declarations ← declarations.mapM (p.recordWithin n)
        pure (some (ConstructorRecord.mk receiver declarations))
      | _ => pure none
    let text ← p.store.render id
    pure {
      id := id
      kind := i.kindName
      text := text
      criteria := i.criteria.toList.map Criterion.text
      separateLine := i.separateLine
      sources := (p.sources.get id).map AnnotationUse.definition
      inner := inner
      constructor := constructor }

/-- **The record of an insertion.** -/
def record (p : Plan) (id : InsertionId) : Except PlanError Record :=
  p.recordWithin (p.store.size + 1) id

/-- The records of the output. -/
def records (p : Plan) : Except PlanError (List Record) :=
  p.order.mapM p.record

end Plan

end AnnotationPlan
