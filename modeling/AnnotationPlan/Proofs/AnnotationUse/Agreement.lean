import AnnotationPlan.Proofs.AnnotationUse.Format
import AnnotationPlan.Proofs.Store.Operations

/-!
# A name policy stops nothing

Whether an annotation use can be written is decided by the definitions alone: a name policy
is asked only how a name is spelled, when it is clear that there is something to spell. So
under two policies the same uses can be written, and what cannot be written fails alike
(`Formatter.format_agree`). What is written relies on imports of no other names than those
of known definitions (`Formatter.Imports`).
-/

namespace AnnotationPlan

namespace Formatter

variable {definitions : DefinitionTable} {p q : NamePolicy}

/-- **The imports that a formatter can ask for**: those of the known definitions. -/
def Imports (f : Formatter) (i : String) : Prop :=
  ∃ name d, f.definitions.get? name = some d ∧ i ∈ f.importOf d.name

theorem mem_mergeImports {first second : List String} {i : String} :
    i ∈ mergeImports first second ↔ i ∈ first ∨ i ∈ second :=
  Store.mem_addMissing

/-- The imports of several parts come from the parts. -/
theorem mem_importsOf {i : String} : ∀ {parts : List Formatted} {start : List String},
    i ∈ importsOf start parts ↔ i ∈ start ∨ ∃ w ∈ parts, i ∈ w.imports
  | [], start => (or_iff_left (fun ⟨_, h, _⟩ => List.not_mem_nil h)).symm
  | w :: rest, start => by
    rw [importsOf, List.foldl_cons]
    show i ∈ importsOf (mergeImports start w.imports) rest ↔ _
    rw [mem_importsOf, mem_mergeImports, or_assoc]
    simp only [List.mem_cons, exists_eq_or_imp]

/-- What is written under a policy, if it can be written under it and under another one. -/
abbrev Agrees (definitions : DefinitionTable) (p : NamePolicy) :
    Except PlanError Formatted → Except PlanError Formatted → Prop :=
  Agree (fun w _ => ∀ i ∈ w.imports, Imports ⟨definitions, p⟩ i)

/-- A definition is known under both policies or under none. -/
theorem definition_agree (definitions : DefinitionTable) (p q : NamePolicy) (u : AnnotationUse) :
    Agree (fun d d' => d = d' ∧ definitions.get? u.definition = some d)
      (definition ⟨definitions, p⟩ u) (definition ⟨definitions, q⟩ u) := by
  unfold definition
  dsimp only
  split
  case h_1 d hd => exact ⟨rfl, hd⟩
  case h_2 => exact rfl

/-- **Values that agree one by one** agree when they are put in order. -/
theorem inOrder_agree {values values' : List (String × Except PlanError Formatted)}
    (h : List.Forall₂ (fun v v' => v.1 = v'.1 ∧ Agrees definitions p v.2 v'.2) values values') :
    ∀ fields : List String,
      Agree (fun parts _ => ∀ v ∈ parts, ∀ i ∈ v.2.imports, Imports ⟨definitions, p⟩ i)
        (inOrder fields values) (inOrder fields values')
  | [] => fun _ hv => absurd hv List.not_mem_nil
  | k :: rest => by
    have hrest := inOrder_agree h rest
    have hfind : Option.Rel (Agrees definitions p) (Entries.find? k values)
        (Entries.find? k values') := by
      clear hrest
      induction h with
      | nil => exact .none
      | @cons v v' _ _ hv _ ih =>
        rw [Entries.find?, Entries.find?, hv.1]
        split
        · exact .some hv.2
        · exact ih
    unfold inOrder at hrest ⊢
    rw [List.foldr_cons, List.foldr_cons]
    revert hfind
    cases Entries.find? k values <;> cases Entries.find? k values' <;> intro hfind
    case none.none => exact hrest
    case some.some =>
      obtain ⟨hvalue⟩ := hfind
      refine hvalue.bind (fun v _ hv => hrest.bind (fun vs _ hvs => ?_))
      exact Agree.pure (fun w hw => (List.mem_cons.mp hw).elim (fun he => he ▸ hv) (hvs w))
    all_goals cases hfind

/-- A scalar that holds no annotation does not depend on the policy. -/
theorem formatLiteral_agree (site : FieldSite) (t : ScalarType) (v : FieldValue) :
    Agrees definitions p (formatLiteral site t v) (formatLiteral site t v) := by
  unfold formatLiteral
  split
  · exact fun _ hi => absurd hi List.not_mem_nil
  · exact rfl

/-- An annotation use as a scalar agrees if it does by itself. -/
theorem nestedValue_agree (site : FieldSite) (t : ScalarType) (u : AnnotationUse)
    {written written' : Except PlanError Formatted} (h : Agrees definitions p written written') :
    Agrees definitions p (nestedValue ⟨definitions, p⟩ site t u written)
      (nestedValue ⟨definitions, q⟩ site t u written') := by
  cases t with
  | nested declared =>
    refine (definition_agree definitions p q u).bind (fun d _ hd => ?_)
    obtain ⟨rfl, -⟩ := hd
    dsimp only
    split
    · exact h
    · split
      · exact h
      · exact rfl
  | _ => exact rfl

mutual

/-- **An annotation use can be written under one policy as well as under another.** -/
theorem format_agree (definitions : DefinitionTable) (p q : NamePolicy) :
    ∀ u : AnnotationUse,
      Agrees definitions p (format ⟨definitions, p⟩ u) (format ⟨definitions, q⟩ u)
  | ⟨name, values⟩ => by
    rw [format, format]
    refine (definition_agree definitions p q ⟨name, values⟩).bind (fun d _ hd => ?_)
    obtain ⟨rfl, hd⟩ := hd
    split
    · exact rfl
    · have hparts := inOrder_agree (formatFields_agree definitions p q d values) d.fields.keys
      refine hparts.bind (fun parts _ hparts => Agree.pure (fun i hi => ?_))
      rcases mem_importsOf.mp hi with hi | ⟨w, hw, hi⟩
      · exact ⟨name, d, hd, hi⟩
      · obtain ⟨v, hv, rfl⟩ := List.mem_map.mp hw
        exact hparts v hv i hi

/-- The values of fields agree one by one. -/
theorem formatFields_agree (definitions : DefinitionTable) (p q : NamePolicy) (d : Definition) :
    ∀ values : List (String × FieldValue),
      List.Forall₂ (fun v v' => v.1 = v'.1 ∧ Agrees definitions p v.2 v'.2)
        (formatFields ⟨definitions, p⟩ d values) (formatFields ⟨definitions, q⟩ d values)
  | [] => .nil
  | (k, v) :: rest => by
    rw [formatFields, formatFields]
    have hrest := formatFields_agree definitions p q d rest
    split
    · exact hrest
    · exact .cons ⟨rfl, formatValue_agree definitions p q _ _ v⟩ hrest

/-- A value can be written under one policy as well as under another. -/
theorem formatValue_agree (definitions : DefinitionTable) (p q : NamePolicy) (site : FieldSite) :
    ∀ (t : FieldType) (v : FieldValue),
      Agrees definitions p (formatValue ⟨definitions, p⟩ site t v)
        (formatValue ⟨definitions, q⟩ site t v)
  | .scalar t, .nested u => by
    rw [formatValue, formatValue]
    exact nestedValue_agree site t u (format_agree definitions p q u)
  | .scalar t, .bool b => formatLiteral_agree site t (.bool b)
  | .scalar t, .int n => formatLiteral_agree site t (.int n)
  | .scalar t, .float x => formatLiteral_agree site t (.float x)
  | .scalar t, .text s => formatLiteral_agree site t (.text s)
  | .scalar t, .array items => formatLiteral_agree site t (.array items)
  | .array (some element), .array items => by
    rw [formatValue, formatValue]
    refine (formatItems_agree definitions p q site element items).bind
      (fun parts _ hparts => Agree.pure (fun i hi => ?_))
    obtain ⟨w, hw, hi⟩ := (mem_importsOf.mp hi).resolve_left List.not_mem_nil
    exact hparts w hw i hi
  | .array none, .array [] => fun _ hi => absurd hi List.not_mem_nil
  | .array none, .array (_ :: _) => rfl
  | .array t, .bool _ => by cases t <;> exact rfl
  | .array t, .int _ => by cases t <;> exact rfl
  | .array t, .float _ => by cases t <;> exact rfl
  | .array t, .text _ => by cases t <;> exact rfl
  | .array t, .nested _ => by cases t <;> exact rfl

/-- The items of an array can be written under one policy as well as under another. -/
theorem formatItems_agree (definitions : DefinitionTable) (p q : NamePolicy) (site : FieldSite)
    (element : ScalarType) : ∀ items : List FieldValue,
      Agree (fun parts _ => ∀ w ∈ parts, ∀ i ∈ w.imports, Imports ⟨definitions, p⟩ i)
        (formatItems ⟨definitions, p⟩ site element items)
        (formatItems ⟨definitions, q⟩ site element items)
  | [] => fun _ hw => absurd hw List.not_mem_nil
  | v :: rest => by
    rw [formatItems, formatItems]
    refine (formatValue_agree definitions p q site (.scalar element) v).bind (fun w _ hw => ?_)
    refine (formatItems_agree definitions p q site element rest).bind (fun ws _ hws => ?_)
    exact Agree.pure (fun x hx => (List.mem_cons.mp hx).elim (fun he => he ▸ hw) (hws x))

end

end Formatter

end AnnotationPlan
