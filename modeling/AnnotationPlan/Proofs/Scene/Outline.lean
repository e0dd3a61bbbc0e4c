import AnnotationPlan.Proofs.Scene.Spots

/-!
# The outline of a scene

In which order the elements of a scene are dealt with is fixed by its documentation, and
the **outline** of a scene says it once more, for itself: it lists what can be annotated
(`Item`), section by section and entry by entry, and within a type the positions inside a
position before the position itself.

* A scene: the packages, then the classes; a class that stands for a package is one.
* A class: its declaration, the bounds, the supertypes, what goes into its syntax tree, the
  fields, the methods, the initializers of the class, those of its objects, and the initial
  values of its fields.
* A method: its declaration, the receiver, the result, the bounds, the types of the
  parameters, what goes into its syntax tree, and the code.
* A block: the local variables; then casts, creations, type tests, references to methods,
  calls, and lambdas, each with its parameters before its code.
* What goes into a syntax tree: annotated places, then casts to be inserted.

The layout that a run works off is the outline (`Part.map_items`).
-/

namespace AnnotationPlan

/-- **Something that can be annotated**, and where it is. -/
inductive Item where
  /-- A declaration. -/
  | declaration (place : CriteriaList) (annotations : List AnnotationUse)
  /-- A type. -/
  | type (place : CriteriaList) (t : TypeElement)
  /-- A supertype of a class. -/
  | supertype (place : CriteriaList) (t : TypeElement)
  /-- A type at a place in a syntax tree. -/
  | inserted (place : CriteriaList) (t : TypeElement)
  /-- A cast to be inserted at a place in a syntax tree. -/
  | cast (place : CriteriaList) (c : CastElement)

namespace TypeElement

mutual

/-- The spots of a position: those within it, then its own. -/
def spots (place : CriteriaList) (path : TypePath) : TypeElement → List Spot
  | ⟨annotations, inner⟩ =>
    spotsWithin place path inner ++ [.within ⟨place.add (.atLocation path), annotations⟩]

/-- The spots of the positions within one. -/
def spotsWithin (place : CriteriaList) (path : TypePath) :
    List (TypePath × TypeElement) → List Spot
  | [] => []
  | (key, t) :: rest => spots place (path.join key) t ++ spotsWithin place path rest

end

mutual

/-- Whether all keys within a type lead further in. -/
def leadsIn : TypeElement → Bool
  | ⟨_, inner⟩ => keysLeadIn inner

/-- **Whether all keys lead further in**: none of them, and none within, is the empty
path. -/
def keysLeadIn : List (TypePath × TypeElement) → Bool
  | [] => true
  | (key, t) :: rest => !key.isEmpty && t.leadsIn && keysLeadIn rest

end

end TypeElement

namespace Item

/-- The positions within. -/
def inner : Item → List (TypePath × TypeElement)
  | declaration .. => []
  | type _ t => t.inner
  | supertype _ t => t.inner
  | inserted _ t => t.inner
  | cast _ c => c.inner

/-- **The spots of an item**: the positions within it, then its own. -/
def spots : Item → List Spot
  | declaration place annotations => [⟨⟨place, annotations⟩, none⟩]
  | type place t =>
    TypeElement.spotsWithin place TypePath.root t.inner
      ++ [⟨⟨place.add Criterion.outerType, t.annotations⟩, none⟩]
  | supertype place t =>
    TypeElement.spotsWithin place TypePath.root t.inner ++ [⟨⟨place, t.annotations⟩, none⟩]
  | inserted place t =>
    TypeElement.spotsWithin place TypePath.root t.inner ++ [⟨⟨place, t.annotations⟩, none⟩]
  | cast place c =>
    TypeElement.spotsWithin place TypePath.root c.inner
      ++ [⟨⟨place, c.annotations⟩, some c.type⟩]

/-- Types by where they are. -/
def types {κ : Type} (place : κ → CriteriaList) (ts : OrderedMap κ TypeElement) : List Item :=
  ts.entries.map (fun e => type (place e.1) e.2)

end Item

/-! ## Section by section -/

/-- What goes into a syntax tree: annotations, then casts. -/
def AstInsertions.items (place : CriteriaList) (i : AstInsertions) : List Item :=
  [i.annotations.entries.map (fun e => .inserted (place.add (.astPath e.1)) e.2),
    i.casts.entries.map (fun e => .cast (place.add (.astPath e.1)) e.2)].flatten

/-- A field: its declaration, its type, and what goes into the code that belongs to it. -/
def VariableElement.fieldItems (place : CriteriaList) (name : String) (v : VariableElement) :
    List Item :=
  [[.declaration (place.add (.field name true)) v.annotations],
    [.type (place.add (.field name false)) v.type],
    v.insertions.items (place.add (.field name false))].flatten

/-- A local variable: its declaration and its type. -/
def VariableElement.localItems (place : CriteriaList) (v : VariableElement) : List Item :=
  [.declaration place v.annotations, .type place v.type]

/-- A parameter of a lambda: its type, and what goes into the code that belongs to it. -/
def VariableElement.lambdaItems (place : CriteriaList) (v : VariableElement) : List Item :=
  [[.type place v.type], v.insertions.items place].flatten

mutual

/-- Expressions: casts, creations, type tests, references to methods, calls, lambdas. -/
def ExpressionElement.items (place : CriteriaList) (method : String) :
    ExpressionElement → List Item
  | ⟨casts, news, instanceOfs, memberReferences, calls, lambdas⟩ =>
    [Item.types (fun l => place.add (.cast method l)) casts,
      Item.types (fun l => place.add (.new method l)) news,
      Item.types (fun l => place.add (.instanceOf method l)) instanceOfs,
      Item.types (fun l => place.add (.memberReference method l)) memberReferences,
      Item.types (fun l => place.add (.methodCall method l)) calls,
      lambdaItems place method lambdas].flatten
termination_by structural e => e

/-- Lambdas, one after another. -/
def lambdaItems (place : CriteriaList) (method : String) :
    List (RelativeLocation × MethodElement) → List Item
  | [] => []
  | (location, m) :: rest =>
    m.lambdaItems (place.add (.lambda method location)) method ++ lambdaItems place method rest
termination_by structural es => es

/-- A lambda: its parameters, then its code. -/
def MethodElement.lambdaItems (place : CriteriaList) (method : String) :
    MethodElement → List Item
  | ⟨_, _, _, _, parameters, _, body⟩ =>
    [parameters.entries.flatMap
        (fun p => p.2.lambdaItems (place.add (.parameter anonymousMethod p.1))),
      body.items place method].flatten
termination_by structural m => m

/-- A block: its local variables, then the expressions. -/
def BlockElement.items (place : CriteriaList) (method : String) : BlockElement → List Item
  | ⟨locals, expressions⟩ =>
    [locals.entries.flatMap (fun l => l.2.localItems (place.add (.localVariable method l.1))),
      expressions.items place method].flatten
termination_by structural b => b

end

/-- **A method**: its declaration, receiver, result, bounds, the types of its parameters,
what goes into its syntax tree, and its code. -/
def MethodElement.items (place : CriteriaList) (className name : String) (m : MethodElement) :
    List Item :=
  let place := place.add (.inMethod name)
  [[.declaration place m.annotations],
    [.type (place.add (.receiver name)) m.receiver],
    [.type (place.add (.returnType className name)) m.returnType],
    Item.types (fun l => place.add (.methodBound name l)) m.bounds,
    m.parameters.entries.map (fun p => .type (place.add (.parameter name p.1)) p.2.type),
    m.insertions.items place,
    m.body.items place name].flatten

/-- **A class**: its declaration, bounds, supertypes, what goes into its syntax tree, fields,
methods, and its initializers. -/
def ClassElement.items (name : String) (c : ClassElement) : List Item :=
  let place := memberPlace name
  [[.declaration (CriteriaList.empty.add (.isClass name)) c.annotations],
    Item.types (fun l => (CriteriaList.empty.add (.inClass name true)).add (.classBound name l))
      c.bounds,
    c.supertypes.entries.map (fun t => .supertype (place.add (.supertype name t.1)) t.2),
    c.insertions.items place,
    c.fields.entries.flatMap (fun f => f.2.fieldItems place f.1),
    c.methods.entries.flatMap (fun m => m.2.items place name m.1),
    c.staticInits.entries.flatMap (fun i => i.2.items (place.add (.inStaticInit i.1))
      ("static init number " ++ i.1.toNat.repr ++ "()")),
    c.instanceInits.entries.flatMap (fun i => i.2.items (place.add (.inInstanceInit i.1))
      ("instance init number " ++ i.1.toNat.repr ++ "()")),
    c.fieldInits.entries.flatMap (fun i => i.2.items (place.add (.inFieldInit i.1))
      ("init for field " ++ i.1 ++ "()"))].flatten

/-- A part of a scene: a package, or a class. -/
def Part.items : Part → List Item
  | .package name annotations =>
    [.declaration (CriteriaList.empty.add (.packageDecl name)) annotations]
  | .type name c => c.items name
  | .nameless _ => []

/-- **The outline of a scene**: its packages, then its classes. -/
def Scene.items (s : Scene) : List Item :=
  [s.packages.entries.flatMap (fun p => (Part.package p.1 p.2.annotations).items),
    s.classes.entries.flatMap (fun c => (Part.ofClass c.1 c.2).items)].flatten

/-- The spots of a scene in the order of the outline. -/
def Scene.spots (s : Scene) : List Spot := s.items.flatMap Item.spots

/-- **Whether all keys in a scene lead further into types.** -/
def Scene.KeysLeadIn (s : Scene) : Prop := ∀ i ∈ s.items, TypeElement.keysLeadIn i.inner = true

/-! ## The layout is the outline -/

namespace Item

/-- The site of an item. -/
def site : Item → Site
  | declaration place annotations => .declaration place annotations
  | type place t => .type place t
  | supertype place t => .supertype place t
  | inserted place t => .inserted place t
  | cast place c => .insertedCast place c

end Item

namespace TypeElement

mutual

theorem map_positions (place : CriteriaList) (path : TypePath) : ∀ t : TypeElement,
    (positions path t).map (fun p => Spot.within ⟨place.add (.atLocation p.1), p.2⟩)
      = spots place path t
  | ⟨annotations, inner⟩ => by
    rw [positions, spots, List.map_append, map_positionsOf place path inner]
    rfl

theorem map_positionsOf (place : CriteriaList) (path : TypePath) :
    ∀ inner : List (TypePath × TypeElement),
      (positionsOf path inner).map (fun p => Spot.within ⟨place.add (.atLocation p.1), p.2⟩)
        = spotsWithin place path inner
  | [] => rfl
  | (key, t) :: rest => by
    rw [positionsOf, spotsWithin, List.map_append, map_positions place (path.join key) t,
      map_positionsOf place path rest]

end

mutual

/-- If all keys lead further in, so do all paths. -/
theorem isEmpty_of_mem_positions {path : TypePath} (hpath : path.isEmpty = false) :
    ∀ {t : TypeElement}, t.leadsIn = true → ∀ p ∈ positions path t, p.1.isEmpty = false
  | ⟨annotations, inner⟩, h, p, hp => by
    rcases List.mem_append.mp hp with hp | hp
    · exact isEmpty_of_mem_positionsOf path h p hp
    · exact List.mem_singleton.mp hp ▸ hpath

theorem isEmpty_of_mem_positionsOf (path : TypePath) :
    ∀ {inner : List (TypePath × TypeElement)}, keysLeadIn inner = true →
      ∀ p ∈ positionsOf path inner, p.1.isEmpty = false
  | [], _, p, hp => absurd hp List.not_mem_nil
  | (key, t) :: rest, h, p, hp => by
    simp only [keysLeadIn, Bool.and_eq_true, Bool.not_eq_true'] at h
    have hjoin : (path.join key).isEmpty = false := by
      have hkey : key.steps ≠ [] := by simpa [TypePath.isEmpty] using h.1.1
      simp [TypePath.isEmpty, TypePath.join, hkey]
    rcases List.mem_append.mp hp with hp | hp
    · exact isEmpty_of_mem_positions hjoin h.1.2 p hp
    · exact isEmpty_of_mem_positionsOf path h.2 p hp

end

end TypeElement

namespace Item

/-- The spots of an item are those of its site. -/
theorem spots_site (i : Item) : i.site.spots = i.spots := by
  have hwithin : ∀ place inner,
      (Site.positionsWithin place inner).map Spot.within
        = TypeElement.spotsWithin place TypePath.root inner := by
    intro place inner
    rw [← TypeElement.map_positionsOf, Site.positionsWithin, List.map_map]
    rfl
  cases i with
  | declaration place annotations => rfl
  | type place t => exact congrArg (· ++ _) (hwithin place t.inner)
  | supertype place t => exact congrArg (· ++ _) (hwithin place t.inner)
  | inserted place t => exact congrArg (· ++ _) (hwithin place t.inner)
  | cast place c => exact congrArg (· ++ _) (hwithin place c.inner)

/-- **Positions within an item have a path** if all keys lead further in. -/
theorem hasTypePath_of_mem_nested {i : Item} (h : TypeElement.keysLeadIn i.inner = true) :
    ∀ p ∈ i.site.nested, p.criteria.compose.hasTypePath = true := by
  have hwithin : ∀ place inner, TypeElement.keysLeadIn inner = true →
      ∀ p ∈ Site.positionsWithin place inner, p.criteria.compose.hasTypePath = true := by
    intro place inner h p hp
    obtain ⟨q, hq, rfl⟩ := List.mem_map.mp hp
    have hempty := TypeElement.isEmpty_of_mem_positionsOf TypePath.root h q hq
    rw [Criteria.hasTypePath, CriteriaList.typePath?_add_atLocation]
    simp [hempty]
  cases i with
  | declaration place annotations => exact fun p hp => absurd hp List.not_mem_nil
  | type place t => exact hwithin place t.inner h
  | supertype place t => exact hwithin place t.inner h
  | inserted place t => exact hwithin place t.inner h
  | cast place c => exact hwithin place c.inner h

@[simp] theorem map_site_types {κ : Type} (place : κ → CriteriaList)
    (ts : OrderedMap κ TypeElement) :
    (types place ts).map site = ts.entries.map (fun e => Site.type (place e.1) e.2) := by
  rw [types, List.map_map]
  rfl

end Item

@[simp] theorem AstInsertions.map_items (place : CriteriaList) (i : AstInsertions) :
    (i.items place).map Item.site = i.sites place := by
  simp [items, sites, Item.site, Function.comp_def]

namespace VariableElement

variable (place : CriteriaList) (v : VariableElement)

@[simp] theorem map_fieldItems (name : String) :
    (v.fieldItems place name).map Item.site = v.fieldSites place name := by
  simp [fieldItems, fieldSites, Item.site]

@[simp] theorem map_localItems : (v.localItems place).map Item.site = v.localSites place := rfl

@[simp] theorem map_lambdaItems :
    (v.lambdaItems place).map Item.site = v.lambdaSites place := by
  simp [lambdaItems, lambdaSites, Item.site]

end VariableElement

mutual

@[simp] theorem ExpressionElement.map_items (place : CriteriaList) (method : String) :
    ∀ x : ExpressionElement, (x.items place method).map Item.site = x.sites place method
  | ⟨casts, news, instanceOfs, memberReferences, calls, lambdas⟩ => by
    simp [ExpressionElement.items, ExpressionElement.sites, expressionSites,
      map_lambdaItems place method lambdas]

theorem map_lambdaItems (place : CriteriaList) (method : String) :
    ∀ lambdas : List (RelativeLocation × MethodElement),
      (lambdaItems place method lambdas).map Item.site = lambdaSites place method lambdas
  | [] => rfl
  | (location, m) :: rest => by
    rw [lambdaItems, lambdaSites, List.map_append, MethodElement.map_lambdaItems _ method m,
      map_lambdaItems place method rest]

theorem MethodElement.map_lambdaItems (place : CriteriaList) (method : String) :
    ∀ m : MethodElement, (m.lambdaItems place method).map Item.site = m.lambdaSites place method
  | ⟨annotations, receiver, returnType, bounds, parameters, insertions, body⟩ => by
    simp [MethodElement.lambdaItems, MethodElement.lambdaSites, List.map_flatMap,
      BlockElement.map_items place method body]

@[simp] theorem BlockElement.map_items (place : CriteriaList) (method : String) :
    ∀ b : BlockElement, (b.items place method).map Item.site = b.sites place method
  | ⟨locals, expressions⟩ => by
    simp [BlockElement.items, BlockElement.sites, List.map_flatMap,
      ExpressionElement.map_items place method expressions]

end

@[simp] theorem MethodElement.map_items (place : CriteriaList) (className name : String)
    (m : MethodElement) :
    (m.items place className name).map Item.site = m.sites place className name := by
  simp [items, sites, Item.site, Function.comp_def]

@[simp] theorem ClassElement.map_items (name : String) (c : ClassElement) :
    (c.items name).map Item.site = c.sites name := by
  simp [items, sites, Item.site, Function.comp_def, List.map_flatMap]

/-- **The layout of a part is its outline.** -/
theorem Part.map_items (p : Part) : p.items.map Item.site = p.sites := by
  cases p with
  | package name annotations => rfl
  | type name c => exact c.map_items name
  | nameless className => rfl

/-- **The layout of a scene is its outline**, part by part. -/
theorem Scene.items_eq (s : Scene) : s.items = s.parts.flatMap Part.items := by
  rw [items, parts, List.flatMap_append, List.flatMap_map, List.flatMap_map, List.flatten_cons,
    List.flatten_cons, List.flatten_nil, List.append_nil]

end AnnotationPlan
