import AnnotationPlan.Proofs.Scene.Ways
import AnnotationPlan.Synthesis.Site

/-!
# The annotations of a scene, rewritten

A function that makes annotation lists out of annotation lists can be applied to all of them
at once in a scene. What the scene is about does not change with that: it has the same sites,
and only the annotations on them are rewritten (`Scene.parts_mapUses`). So two scenes that
become the same when they are rewritten have the same sites but for their annotations.

Scenes that become the same come about when the annotations on one element are replaced by
others that are rewritten to the same (`Element.Leads.exists_mapUses_eq`). No knowledge of
how the elements on the way are laid out is needed for that.
-/

namespace AnnotationPlan

/-! ## Values of maps -/

namespace Entries

variable {κ ν ν' : Type}

/-- Change all values of a list of pairs. -/
def mapValues (f : ν → ν') (es : List (κ × ν)) : List (κ × ν') := es.map (fun e => (e.1, f e.2))

/-- A changed value is the value of a changed list. -/
theorem mapValues_insert [DecidableEq κ] (f : ν → ν') (k : κ) (v : ν) (es : List (κ × ν)) :
    mapValues f (insert k v es) = insert k (f v) (mapValues f es) := by
  induction es with
  | nil => rfl
  | cons e rest ih =>
    obtain ⟨k', w⟩ := e
    show mapValues f (alter k (fun _ => v) ((k', w) :: rest))
      = alter k (fun _ => f v) ((k', f w) :: mapValues f rest)
    by_cases h : k' = k
    · rw [alter, alter, if_pos h, if_pos h]
      rfl
    · rw [alter, alter, if_neg h, if_neg h]
      exact congrArg ((k', f w) :: ·) ih

end Entries

namespace OrderedMap

variable {κ ν ν' : Type}

/-- Change all values of a map. -/
def mapValues (f : ν → ν') (m : OrderedMap κ ν) : OrderedMap κ ν' where
  entries := Entries.mapValues f m.entries
  distinct := by
    rw [Entries.mapValues, List.map_map]
    exact m.distinct

@[simp] theorem entries_mapValues (f : ν → ν') (m : OrderedMap κ ν) :
    (m.mapValues f).entries = m.entries.map (fun e => (e.1, f e.2)) := rfl

@[simp] theorem mapValues_insert [DecidableEq κ] (f : ν → ν') (m : OrderedMap κ ν) (k : κ) (v : ν) :
    (m.insert k v).mapValues f = (m.mapValues f).insert k (f v) :=
  OrderedMap.ext (Entries.mapValues_insert f k v m.entries)

end OrderedMap

/-! ## Rewriting the annotations -/

section MapUses

variable (φ : List AnnotationUse → List AnnotationUse)

namespace TypeElement

mutual

/-- Rewrite the annotations on a type and those within. -/
def mapUses : TypeElement → TypeElement
  | ⟨annotations, inner⟩ => ⟨φ annotations, mapUsesWithin inner⟩

/-- Rewrite the annotations on several types. -/
def mapUsesWithin : List (TypePath × TypeElement) → List (TypePath × TypeElement)
  | [] => []
  | (path, t) :: rest => (path, t.mapUses) :: mapUsesWithin rest

end

theorem mapUsesWithin_eq (inner : List (TypePath × TypeElement)) :
    mapUsesWithin φ inner = Entries.mapValues (mapUses φ) inner := by
  induction inner with
  | nil => rfl
  | cons e rest ih => exact congrArg (_ :: ·) ih

end TypeElement

/-- Rewrite the annotations on a cast. -/
def CastElement.mapUses (c : CastElement) : CastElement :=
  ⟨φ c.annotations, TypeElement.mapUsesWithin φ c.inner, c.type⟩

/-- Rewrite the annotations that go into a syntax tree. -/
def AstInsertions.mapUses (i : AstInsertions) : AstInsertions :=
  ⟨i.annotations.mapValues (·.mapUses φ), i.casts.mapValues (·.mapUses φ)⟩

/-- Rewrite the annotations on a variable. -/
def VariableElement.mapUses (v : VariableElement) : VariableElement :=
  ⟨φ v.annotations, v.type.mapUses φ, v.insertions.mapUses φ⟩

mutual

/-- Rewrite the annotations on expressions. -/
def ExpressionElement.mapUses : ExpressionElement → ExpressionElement
  | ⟨casts, news, instanceOfs, memberReferences, calls, lambdas⟩ =>
    ⟨casts.mapValues (·.mapUses φ), news.mapValues (·.mapUses φ),
      instanceOfs.mapValues (·.mapUses φ), memberReferences.mapValues (·.mapUses φ),
      calls.mapValues (·.mapUses φ), mapUsesOfLambdas lambdas⟩
termination_by structural e => e

/-- Rewrite the annotations on lambdas. -/
def mapUsesOfLambdas :
    List (RelativeLocation × MethodElement) → List (RelativeLocation × MethodElement)
  | [] => []
  | (location, m) :: rest => (location, m.mapUses) :: mapUsesOfLambdas rest
termination_by structural es => es

/-- Rewrite the annotations on a method. -/
def MethodElement.mapUses : MethodElement → MethodElement
  | ⟨annotations, receiver, returnType, bounds, parameters, insertions, body⟩ =>
    ⟨φ annotations, receiver.mapUses φ, returnType.mapUses φ, bounds.mapValues (·.mapUses φ),
      parameters.mapValues (·.mapUses φ), insertions.mapUses φ, body.mapUses⟩
termination_by structural m => m

/-- Rewrite the annotations in a block. -/
def BlockElement.mapUses : BlockElement → BlockElement
  | ⟨locals, expressions⟩ => ⟨locals.mapValues (·.mapUses φ), expressions.mapUses⟩
termination_by structural b => b

end

theorem mapUsesOfLambdas_eq (lambdas : List (RelativeLocation × MethodElement)) :
    mapUsesOfLambdas φ lambdas = Entries.mapValues (MethodElement.mapUses φ) lambdas := by
  induction lambdas with
  | nil => rfl
  | cons e rest ih => exact congrArg (_ :: ·) ih

/-- Rewrite the annotations on a class. -/
def ClassElement.mapUses (c : ClassElement) : ClassElement where
  annotations := φ c.annotations
  bounds := c.bounds.mapValues (·.mapUses φ)
  supertypes := c.supertypes.mapValues (·.mapUses φ)
  insertions := c.insertions.mapUses φ
  fields := c.fields.mapValues (·.mapUses φ)
  methods := c.methods.mapValues (·.mapUses φ)
  staticInits := c.staticInits.mapValues (·.mapUses φ)
  instanceInits := c.instanceInits.mapValues (·.mapUses φ)
  fieldInits := c.fieldInits.mapValues (·.mapUses φ)

/-- Rewrite the annotations on a package. -/
def PackageElement.mapUses (p : PackageElement) : PackageElement := ⟨φ p.annotations⟩

/-- **Rewrite all annotations of a scene.** -/
def Scene.mapUses (s : Scene) : Scene where
  definitions := s.definitions
  packages := s.packages.mapValues (·.mapUses φ)
  classes := s.classes.mapValues (·.mapUses φ)

/-- Rewrite all annotations of an element. -/
def Element.mapUses : Element → Element
  | scene s => scene (s.mapUses φ)
  | package p => package (p.mapUses φ)
  | classDeclaration c => classDeclaration (c.mapUses φ)
  | method m => method (m.mapUses φ)
  | variableDeclaration v => variableDeclaration (v.mapUses φ)
  | block b => block (b.mapUses φ)
  | expressions x => expressions (x.mapUses φ)
  | type t => type (t.mapUses φ)
  | cast c => cast (c.mapUses φ)

/-- Rewrite the annotations on a position. -/
def Position.mapUses (q : Position) : Position := { q with annotations := φ q.annotations }

/-- Rewrite the annotations on a site. -/
def Site.mapUses (s : Site) : Site :=
  { s with annotations := φ s.annotations, nested := s.nested.map (Position.mapUses φ) }

/-- Rewrite the annotations of a part. -/
def Part.mapUses : Part → Part
  | package name annotations => package name (φ annotations)
  | type name c => type name (c.mapUses φ)
  | nameless className => nameless className

end MapUses

/-! ## The sites -/

variable {φ : List AnnotationUse → List AnnotationUse}

namespace TypeElement

mutual

theorem positions_mapUses (start : TypePath) : ∀ t : TypeElement,
    positions start (t.mapUses φ) = (positions start t).map (fun p => (p.1, φ p.2))
  | ⟨annotations, inner⟩ => by
    rw [mapUses, positions, positions, List.map_append, positionsOf_mapUses start inner]
    rfl

theorem positionsOf_mapUses (start : TypePath) : ∀ inner : List (TypePath × TypeElement),
    positionsOf start (mapUsesWithin φ inner)
      = (positionsOf start inner).map (fun p => (p.1, φ p.2))
  | [] => rfl
  | (path, t) :: rest => by
    rw [mapUsesWithin, positionsOf, positionsOf, List.map_append,
      positions_mapUses (start.join path) t, positionsOf_mapUses start rest]

end

end TypeElement

namespace Site

variable (place : CriteriaList)

theorem positionsWithin_mapUses (inner : List (TypePath × TypeElement)) :
    positionsWithin place (TypeElement.mapUsesWithin φ inner)
      = (positionsWithin place inner).map (Position.mapUses φ) := by
  rw [positionsWithin, positionsWithin, TypeElement.positionsOf_mapUses, List.map_map, List.map_map]
  rfl

@[simp] theorem declaration_mapUses (annotations : List AnnotationUse) :
    declaration place (φ annotations) = (declaration place annotations).mapUses φ := rfl

@[simp] theorem type_mapUses (t : TypeElement) :
    type place (t.mapUses φ) = (type place t).mapUses φ := by
  cases t
  simp [type, mapUses, TypeElement.mapUses, positionsWithin_mapUses]

@[simp] theorem supertype_mapUses (t : TypeElement) :
    supertype place (t.mapUses φ) = (supertype place t).mapUses φ := by
  cases t
  simp [supertype, mapUses, TypeElement.mapUses, positionsWithin_mapUses]

@[simp] theorem inserted_mapUses (t : TypeElement) :
    inserted place (t.mapUses φ) = (inserted place t).mapUses φ := by
  cases t
  simp [inserted, mapUses, TypeElement.mapUses, positionsWithin_mapUses]

@[simp] theorem insertedCast_mapUses (c : CastElement) :
    insertedCast place (c.mapUses φ) = (insertedCast place c).mapUses φ := by
  simp [insertedCast, mapUses, CastElement.mapUses, positionsWithin_mapUses]

end Site

@[simp] theorem AstInsertions.sites_mapUses (place : CriteriaList) (i : AstInsertions) :
    (i.mapUses φ).sites place = (i.sites place).map (Site.mapUses φ) := by
  simp [sites, mapUses, Function.comp_def]

namespace VariableElement

variable (place : CriteriaList) (v : VariableElement)

@[simp] theorem fieldSites_mapUses (name : String) :
    (v.mapUses φ).fieldSites place name = (v.fieldSites place name).map (Site.mapUses φ) := by
  simp [fieldSites, mapUses]

@[simp] theorem localSites_mapUses :
    (v.mapUses φ).localSites place = (v.localSites place).map (Site.mapUses φ) := by
  simp [localSites, mapUses]

@[simp] theorem lambdaSites_mapUses :
    (v.mapUses φ).lambdaSites place = (v.lambdaSites place).map (Site.mapUses φ) := by
  simp [lambdaSites, mapUses]

end VariableElement

mutual

@[simp] theorem ExpressionElement.sites_mapUses (place : CriteriaList) (method : String) :
    ∀ x : ExpressionElement,
      (x.mapUses φ).sites place method = (x.sites place method).map (Site.mapUses φ)
  | ⟨casts, news, instanceOfs, memberReferences, calls, lambdas⟩ => by
    simp [ExpressionElement.mapUses, ExpressionElement.sites, expressionSites, Function.comp_def,
      lambdaSites_mapUses place method lambdas]

theorem lambdaSites_mapUses (place : CriteriaList) (method : String) :
    ∀ lambdas : List (RelativeLocation × MethodElement),
      lambdaSites place method (mapUsesOfLambdas φ lambdas)
        = (lambdaSites place method lambdas).map (Site.mapUses φ)
  | [] => rfl
  | (location, m) :: rest => by
    rw [mapUsesOfLambdas, lambdaSites, lambdaSites, List.map_append,
      MethodElement.lambdaSites_mapUses _ method m, lambdaSites_mapUses place method rest]

theorem MethodElement.lambdaSites_mapUses (place : CriteriaList) (method : String) :
    ∀ m : MethodElement,
      (m.mapUses φ).lambdaSites place method = (m.lambdaSites place method).map (Site.mapUses φ)
  | ⟨annotations, receiver, returnType, bounds, parameters, insertions, body⟩ => by
    simp [MethodElement.mapUses, MethodElement.lambdaSites, List.map_flatMap, List.flatMap_map,
      BlockElement.sites_mapUses place method body]

@[simp] theorem BlockElement.sites_mapUses (place : CriteriaList) (method : String) :
    ∀ b : BlockElement,
      (b.mapUses φ).sites place method = (b.sites place method).map (Site.mapUses φ)
  | ⟨locals, expressions⟩ => by
    simp [BlockElement.mapUses, BlockElement.sites, List.map_flatMap, List.flatMap_map,
      ExpressionElement.sites_mapUses place method expressions]

end

@[simp] theorem MethodElement.sites_mapUses (place : CriteriaList) (className name : String)
    (m : MethodElement) :
    (m.mapUses φ).sites place className name
      = (m.sites place className name).map (Site.mapUses φ) := by
  cases m
  simp [MethodElement.mapUses, MethodElement.sites, Function.comp_def, VariableElement.mapUses]

@[simp] theorem ClassElement.sites_mapUses (name : String) (c : ClassElement) :
    (c.mapUses φ).sites name = (c.sites name).map (Site.mapUses φ) := by
  simp [mapUses, sites, Function.comp_def, List.map_flatMap, List.flatMap_map]

/-- **The sites of a part** are those of the rewritten one but for the annotations. -/
theorem Part.sites_mapUses (p : Part) : (p.mapUses φ).sites = p.sites.map (Site.mapUses φ) := by
  cases p with
  | package name annotations => rfl
  | type name c => exact c.sites_mapUses name
  | nameless className => rfl

theorem Part.ofClass_mapUses (name : String) (c : ClassElement) :
    ofClass name (c.mapUses φ) = (ofClass name c).mapUses φ := by
  unfold ofClass
  split <;> rfl

/-- **The parts of a rewritten scene** are those of the scene, rewritten. -/
theorem Scene.parts_mapUses (s : Scene) : (s.mapUses φ).parts = s.parts.map (Part.mapUses φ) := by
  simp [parts, mapUses, Function.comp_def, Part.ofClass_mapUses, PackageElement.mapUses,
    Part.mapUses]

/-! ## Exchanging an element -/

namespace Element

/-- **Replace the annotations on an element**, if it is one that has annotations. -/
def withAnnotations (uses : List AnnotationUse) : Element → Element
  | package p => package { p with annotations := uses }
  | classDeclaration c => classDeclaration { c with annotations := uses }
  | method m => method { m with annotations := uses }
  | variableDeclaration v => variableDeclaration { v with annotations := uses }
  | type t => type { t with annotations := uses }
  | cast c => cast { c with annotations := uses }
  | e => e

theorem mapUses_withAnnotations {uses : List AnnotationUse} {e : Element}
    (h : φ uses = φ e.annotations) : (e.withAnnotations uses).mapUses φ = e.mapUses φ := by
  cases e with
  | package p => exact congrArg (fun uses => package ⟨uses⟩) h
  | classDeclaration c =>
    exact congrArg (fun uses => classDeclaration { c.mapUses φ with annotations := uses }) h
  | method m =>
    cases m
    exact congrArg (fun uses => method ⟨uses, _, _, _, _, _, _⟩) h
  | variableDeclaration v => exact congrArg (fun uses => variableDeclaration ⟨uses, _, _⟩) h
  | type t =>
    cases t
    exact congrArg (fun uses => type ⟨uses, _⟩) h
  | cast c => exact congrArg (fun uses => cast ⟨uses, _, _⟩) h
  | _ => rfl

/-- **A member may be exchanged** for one that is rewritten to the same. -/
def IsExchanged (φ : List AnnotationUse → List AnnotationUse) (m : Member) : Prop :=
  ∀ x : Element, x.mapUses φ = m.1.mapUses φ → (m.2 x).mapUses φ = (m.2 m.1).mapUses φ

namespace IsExchanged

variable {whole : Element}

theorem type {t : TypeElement} {put : TypeElement → Element}
    (hput : ∀ t', t'.mapUses φ = t.mapUses φ → (put t').mapUses φ = (put t).mapUses φ) :
    IsExchanged φ (typeMember t put whole) := fun x h => by
  cases x with
  | type t' => exact hput t' (Element.type.inj h)
  | _ => cases h

theorem variableDeclaration {v : VariableElement} {put : VariableElement → Element}
    (hput : ∀ v', v'.mapUses φ = v.mapUses φ → (put v').mapUses φ = (put v).mapUses φ) :
    IsExchanged φ (variableMember v put whole) := fun x h => by
  cases x with
  | variableDeclaration v' => exact hput v' (Element.variableDeclaration.inj h)
  | _ => cases h

theorem block {b : BlockElement} {put : BlockElement → Element}
    (hput : ∀ b', b'.mapUses φ = b.mapUses φ → (put b').mapUses φ = (put b).mapUses φ) :
    IsExchanged φ (blockMember b put whole) := fun x h => by
  cases x with
  | block b' => exact hput b' (Element.block.inj h)
  | _ => cases h

theorem expressions {y : ExpressionElement} {put : ExpressionElement → Element}
    (hput : ∀ y', y'.mapUses φ = y.mapUses φ → (put y').mapUses φ = (put y).mapUses φ) :
    IsExchanged φ (expressionsMember y put whole) := fun x h => by
  cases x with
  | expressions y' => exact hput y' (Element.expressions.inj h)
  | _ => cases h

theorem method {m : MethodElement} {put : MethodElement → Element}
    (hput : ∀ m', m'.mapUses φ = m.mapUses φ → (put m').mapUses φ = (put m).mapUses φ) :
    IsExchanged φ (methodMember m put whole) := fun x h => by
  cases x with
  | method m' => exact hput m' (Element.method.inj h)
  | _ => cases h

theorem cast {c : CastElement} {put : CastElement → Element}
    (hput : ∀ c', c'.mapUses φ = c.mapUses φ → (put c').mapUses φ = (put c).mapUses φ) :
    IsExchanged φ (.cast c, fun e => match e with
      | .cast c => put c
      | _ => whole) := fun x h => by
  cases x with
  | cast c' => exact hput c' (Element.cast.inj h)
  | _ => cases h

end IsExchanged

/-- **Members of classes** may be exchanged. -/
theorem isExchanged_classMember {c : ClassElement} {segment : Segment} {m : Member}
    (get : classMember? c segment = some m) : IsExchanged φ m := by
  cases segment with
  | bound l =>
    cases get
    exact .type (fun t' ht => by simp [mapUses, ClassElement.mapUses, ht])
  | supertype l =>
    cases get
    exact .type (fun t' ht => by simp [mapUses, ClassElement.mapUses, ht])
  | field name =>
    cases get
    exact .variableDeclaration (fun v' hv => by simp [mapUses, ClassElement.mapUses, hv])
  | method name =>
    cases get
    exact .method (fun m' hm => by simp [mapUses, ClassElement.mapUses, hm])
  | staticInit n =>
    cases get
    exact .block (fun b' hb => by simp [mapUses, ClassElement.mapUses, hb])
  | instanceInit n =>
    cases get
    exact .block (fun b' hb => by simp [mapUses, ClassElement.mapUses, hb])
  | fieldInit name =>
    cases get
    exact .expressions (fun y' hy => by simp [mapUses, ClassElement.mapUses, hy])
  | annotatedPlace path =>
    cases get
    exact .type (fun t' ht => by simp [mapUses, ClassElement.mapUses, AstInsertions.mapUses, ht])
  | castPlace path castType =>
    cases get
    exact .cast (fun c' hc => by simp [mapUses, ClassElement.mapUses, AstInsertions.mapUses, hc])
  | _ => cases get

/-- **Members of methods** may be exchanged. -/
theorem isExchanged_methodMember {m : MethodElement} {segment : Segment} {n : Member}
    (get : methodMember? m segment = some n) : IsExchanged φ n := by
  cases segment with
  | receiver =>
    cases get
    exact .type (fun t' ht => by simp [mapUses, MethodElement.mapUses, ht])
  | returnType =>
    cases get
    exact .type (fun t' ht => by simp [mapUses, MethodElement.mapUses, ht])
  | bound l =>
    cases get
    exact .type (fun t' ht => by simp [mapUses, MethodElement.mapUses, ht])
  | parameter k =>
    cases get
    exact .variableDeclaration (fun v' hv => by simp [mapUses, MethodElement.mapUses, hv])
  | body =>
    cases get
    exact .block (fun b' hb => by simp [mapUses, MethodElement.mapUses, hb])
  | annotatedPlace path =>
    cases get
    exact .type (fun t' ht => by simp [mapUses, MethodElement.mapUses, AstInsertions.mapUses, ht])
  | castPlace path castType =>
    cases get
    exact .cast (fun c' hc => by simp [mapUses, MethodElement.mapUses, AstInsertions.mapUses, hc])
  | _ => cases get

/-- **Members of variables** may be exchanged. -/
theorem isExchanged_variableMember {v : VariableElement} {segment : Segment} {m : Member}
    (get : variableMember? v segment = some m) : IsExchanged φ m := by
  cases segment with
  | variableType =>
    cases get
    exact .type (fun t' ht => by simp [mapUses, VariableElement.mapUses, ht])
  | annotatedPlace path =>
    cases get
    exact .type (fun t' ht => by simp [mapUses, VariableElement.mapUses, AstInsertions.mapUses, ht])
  | castPlace path castType =>
    cases get
    exact .cast (fun c' hc => by simp [mapUses, VariableElement.mapUses, AstInsertions.mapUses, hc])
  | _ => cases get

/-- **Members of blocks** may be exchanged. -/
theorem isExchanged_blockMember {b : BlockElement} {segment : Segment} {m : Member}
    (get : blockMember? b segment = some m) : IsExchanged φ m := by
  cases segment with
  | localVariable l =>
    cases get
    exact .variableDeclaration (fun v' hv => by simp [mapUses, BlockElement.mapUses, hv])
  | expressions =>
    cases get
    exact .expressions (fun y' hy => by simp [mapUses, BlockElement.mapUses, hy])
  | _ => cases get

/-- **Members of expressions** may be exchanged. -/
theorem isExchanged_expressionMember {x : ExpressionElement} {segment : Segment} {m : Member}
    (get : expressionMember? x segment = some m) : IsExchanged φ m := by
  cases segment with
  | cast l =>
    cases get
    exact .type (fun t' ht => by simp [mapUses, ExpressionElement.mapUses, ht])
  | new l =>
    cases get
    exact .type (fun t' ht => by simp [mapUses, ExpressionElement.mapUses, ht])
  | instanceOf l =>
    cases get
    exact .type (fun t' ht => by simp [mapUses, ExpressionElement.mapUses, ht])
  | memberReference l =>
    cases get
    exact .type (fun t' ht => by simp [mapUses, ExpressionElement.mapUses, ht])
  | call l =>
    cases get
    exact .type (fun t' ht => by simp [mapUses, ExpressionElement.mapUses, ht])
  | lambda l =>
    cases get
    refine .method (fun m' hm => ?_)
    simp [mapUses, ExpressionElement.mapUses, mapUsesOfLambdas_eq, Entries.mapValues_insert, hm]
  | _ => cases get

/-- **Members of scenes** may be exchanged. -/
theorem isExchanged_sceneMember {s : Scene} {segment : Segment} {m : Member}
    (get : sceneMember? s segment = some m) : IsExchanged φ m := by
  cases segment with
  | package name =>
    cases get
    intro x h
    cases x with
    | package p' => simp [mapUses, Scene.mapUses, Element.package.inj h]
    | _ => cases h
  | classDeclaration name =>
    cases get
    intro x h
    cases x with
    | classDeclaration c' => simp [mapUses, Scene.mapUses, Element.classDeclaration.inj h]
    | _ => cases h
  | _ => cases get

/-- **All members** may be exchanged. -/
theorem isExchanged_member {e : Element} {segment : Segment} {m : Member}
    (get : e.member? segment = some m) : IsExchanged φ m := by
  cases e with
  | scene s => exact isExchanged_sceneMember get
  | package p => cases get
  | classDeclaration c => exact isExchanged_classMember get
  | method n => exact isExchanged_methodMember get
  | variableDeclaration v => exact isExchanged_variableMember get
  | block b => exact isExchanged_blockMember get
  | expressions x => exact isExchanged_expressionMember get
  | type t =>
    cases segment with
    | inner path =>
      cases get
      refine .type (fun t' ht => ?_)
      simp [mapUses, TypeElement.mapUses, TypeElement.mapUsesWithin_eq, Entries.mapValues_insert,
        ht]
    | _ => cases get
  | cast c =>
    cases segment with
    | inner path =>
      cases get
      refine .type (fun t' ht => ?_)
      simp [mapUses, CastElement.mapUses, TypeElement.mapUsesWithin_eq, Entries.mapValues_insert,
        ht]
    | _ => cases get

/-- **A change along a way** that is rewritten to nothing at its end is rewritten to nothing. -/
theorem Leads.exists_mapUses_eq {e x : Element} {way : List Segment} (h : e.Leads way x)
    {f : Element → Element} (hf : (f x).mapUses φ = x.mapUses φ) :
    ∃ e', modifyAt? f way e = some e' ∧ e'.mapUses φ = e.mapUses φ := by
  induction h with
  | here => exact ⟨f _, rfl, hf⟩
  | @member e x segment way m get there onward ih =>
    obtain ⟨y, hy, hsame⟩ := ih hf
    refine ⟨m.2 y, ?_, (isExchanged_member get y hsame).trans (congrArg (mapUses φ) there)⟩
    show (e.member? segment).bind (fun m => (modifyAt? f way m.1).map m.2) = some (m.2 y)
    rw [get, Option.bind_some, hy, Option.map_some]

end Element

/-- **Replacing the annotations on an element** by others that are rewritten to the same makes a
scene that is rewritten to the same. -/
theorem Scene.exists_mapUses_eq {s : Scene} {x : Element} {way : List Segment}
    (h : (Element.scene s).Leads way x) {uses : List AnnotationUse}
    (huses : φ uses = φ x.annotations) :
    ∃ s', s.modifyAt? way (Element.withAnnotations uses) = some s'
      ∧ s'.mapUses φ = s.mapUses φ := by
  obtain ⟨e', hmodify, hsame⟩ := h.exists_mapUses_eq (Element.mapUses_withAnnotations huses)
  cases e' with
  | scene s' =>
    refine ⟨s', ?_, Element.scene.inj hsame⟩
    rw [modifyAt?, hmodify]
  | _ => cases hsame

end AnnotationPlan
