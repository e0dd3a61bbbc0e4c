import AnnotationPlan.Proofs.Scene.Alike

/-!
# Code, classes and scenes that come to the same

Blocks, expressions and methods contain one another, so for these it is the sites themselves
that are compared, wherever the elements stand. What comes of the sites of a class depends
on their gist alone, and so classes that are alike are worked off alike
(`Part.visitPart_ofClass`). With that the scenes are reached: for them being alike is to be
worked off alike, whatever the lookup and the settings are.
-/

namespace AnnotationPlan

open Site (gist)

/-! ## Code -/

/-- **Blocks that come to the same.** -/
def BlockElement.Alike (b b' : BlockElement) : Prop :=
  ∀ place method, gist (b.sites place method) = gist (b'.sites place method)

/-- **Expressions that come to the same.** -/
def ExpressionElement.Alike (x x' : ExpressionElement) : Prop :=
  ∀ place method, gist (x.sites place method) = gist (x'.sites place method)

/-- **Methods that come to the same**, in a class and as lambdas. -/
structure MethodElement.Alike (m m' : MethodElement) : Prop where
  /-- In a class they do. -/
  sites : ∀ place className name,
    gist (m.sites place className name) = gist (m'.sites place className name)
  /-- As lambdas they do. -/
  lambdaSites : ∀ place method,
    gist (m.lambdaSites place method) = gist (m'.lambdaSites place method)

mutual

/-- Idle expressions come to nothing. -/
theorem ExpressionElement.gist_sites_of_isIdle (place : CriteriaList) (method : String) :
    ∀ x : ExpressionElement, x.isIdle = true → gist (x.sites place method) = []
  | ⟨casts, news, instanceOfs, memberReferences, calls, lambdas⟩, h => by
    simp only [ExpressionElement.isIdle, Bool.and_eq_true] at h
    obtain ⟨⟨⟨⟨⟨hcasts, hnews⟩, htests⟩, hreferences⟩, hcalls⟩, hlambdas⟩ := h
    simp only [ExpressionElement.sites, expressionSites, Site.gist_append,
      TypeElement.gist_types_of_allEmpty, hcasts, hnews, htests, hreferences, hcalls,
      gist_lambdaSites_of_areIdle place method lambdas hlambdas, List.append_nil]

/-- Idle lambdas come to nothing. -/
theorem gist_lambdaSites_of_areIdle (place : CriteriaList) (method : String) :
    ∀ lambdas : List (RelativeLocation × MethodElement), areIdle lambdas = true →
      gist (lambdaSites place method lambdas) = []
  | [], _ => rfl
  | (location, m) :: rest, h => by
    rw [areIdle, Bool.and_eq_true] at h
    rw [lambdaSites, Site.gist_append,
      MethodElement.gist_lambdaSites_of_isIdle _ method m h.1,
      gist_lambdaSites_of_areIdle place method rest h.2]
    rfl

/-- An idle method comes to nothing as a lambda. -/
theorem MethodElement.gist_lambdaSites_of_isIdle (place : CriteriaList) (method : String) :
    ∀ m : MethodElement, m.isIdle = true → gist (m.lambdaSites place method) = []
  | ⟨annotations, receiver, returnType, bounds, parameters, insertions, body⟩, h => by
    simp only [MethodElement.isIdle, Bool.and_eq_true, List.all_eq_true] at h
    obtain ⟨⟨⟨_, hparameters⟩, _⟩, hbody⟩ := h
    rw [MethodElement.lambdaSites, Site.gist_append, Site.gist_flatMap,
      BlockElement.gist_sites_of_isIdle place method body hbody, List.append_nil,
      List.flatMap_eq_nil_iff]
    exact fun p hp =>
      VariableElement.gist_lambdaSites _ (VariableElement.alike_default (hparameters p hp))

/-- An idle block comes to nothing. -/
theorem BlockElement.gist_sites_of_isIdle (place : CriteriaList) (method : String) :
    ∀ b : BlockElement, b.isIdle = true → gist (b.sites place method) = []
  | ⟨locals, expressions⟩, h => by
    simp only [BlockElement.isIdle, Bool.and_eq_true, List.all_eq_true] at h
    rw [BlockElement.sites, Site.gist_append, Site.gist_flatMap,
      ExpressionElement.gist_sites_of_isIdle place method expressions h.2, List.append_nil,
      List.flatMap_eq_nil_iff]
    exact fun l hl =>
      VariableElement.gist_localSites _ (VariableElement.alike_default (h.1 l hl))

end

namespace ExpressionElement

variable (x : ExpressionElement)

theorem gist_sites (place : CriteriaList) (method : String) :
    gist (x.sites place method)
      = gist (expressionSites place (.cast method) x.casts)
        ++ gist (expressionSites place (.new method) x.news)
        ++ gist (expressionSites place (.instanceOf method) x.instanceOfs)
        ++ gist (expressionSites place (.memberReference method) x.memberReferences)
        ++ gist (expressionSites place (.methodCall method) x.calls)
        ++ gist (lambdaSites place method x.lambdas) := by
  cases x
  simp only [sites, Site.gist_append]

/-- **The types of expressions of one kind changed.** -/
theorem gist_expressionSites {es es' : OrderedMap RelativeLocation TypeElement}
    (h : Entries.Exchange TypeElement.Alike (·.isEmpty) es.entries es'.entries)
    (place : CriteriaList) (criterion : RelativeLocation → Criterion) :
    gist (expressionSites place criterion es) = gist (expressionSites place criterion es') :=
  h.gist_map (fun ht => Site.gist_type _ ht) (fun ht => Site.gist_type_of_isEmpty _ ht)

section Types

variable {es : OrderedMap RelativeLocation TypeElement}

theorem alike_casts (h : Entries.Exchange TypeElement.Alike (·.isEmpty) x.casts.entries
    es.entries) : x.Alike { x with casts := es } := fun place method => by
  rw [gist_sites, gist_sites, gist_expressionSites h]

theorem alike_news (h : Entries.Exchange TypeElement.Alike (·.isEmpty) x.news.entries
    es.entries) : x.Alike { x with news := es } := fun place method => by
  rw [gist_sites, gist_sites, gist_expressionSites h]

theorem alike_instanceOfs (h : Entries.Exchange TypeElement.Alike (·.isEmpty)
    x.instanceOfs.entries es.entries) : x.Alike { x with instanceOfs := es } :=
  fun place method => by
  rw [gist_sites, gist_sites, gist_expressionSites h]

theorem alike_memberReferences (h : Entries.Exchange TypeElement.Alike (·.isEmpty)
    x.memberReferences.entries es.entries) : x.Alike { x with memberReferences := es } :=
  fun place method => by
  rw [gist_sites, gist_sites, gist_expressionSites h]

theorem alike_calls (h : Entries.Exchange TypeElement.Alike (·.isEmpty) x.calls.entries
    es.entries) : x.Alike { x with calls := es } := fun place method => by
  rw [gist_sites, gist_sites, gist_expressionSites h]

end Types

theorem alike_lambdas {lambdas : List (RelativeLocation × MethodElement)}
    (h : Entries.Exchange MethodElement.Alike (·.isIdle) x.lambdas lambdas) :
    x.Alike { x with lambdas } := fun place method => by
  rw [gist_sites, gist_sites, lambdaSites_eq_flatMap,
    h.gist_flatMap (fun hm => hm.lambdaSites _ _)
      (fun hm => MethodElement.gist_lambdaSites_of_isIdle _ _ _ hm), ← lambdaSites_eq_flatMap]

end ExpressionElement

namespace BlockElement

variable (b : BlockElement)

theorem gist_sites (place : CriteriaList) (method : String) :
    gist (b.sites place method)
      = gist (b.locals.entries.flatMap
          (fun l => l.2.localSites (place.add (.localVariable method l.1))))
        ++ gist (b.expressions.sites place method) := by
  cases b
  rw [sites, Site.gist_append]

theorem alike_locals {locals : OrderedMap LocalLocation VariableElement}
    (h : Entries.Exchange VariableElement.Alike (·.isIdle) b.locals.entries locals.entries) :
    b.Alike { b with locals } := fun place method => by
  rw [gist_sites, gist_sites, h.gist_flatMap (fun hv => VariableElement.gist_localSites _ hv)
    (fun hv => VariableElement.gist_localSites _ (VariableElement.alike_default hv))]

theorem alike_expressions {expressions : ExpressionElement}
    (h : b.expressions.Alike expressions) : b.Alike { b with expressions } :=
  fun place method => by
  rw [gist_sites, gist_sites, h]

end BlockElement

namespace MethodElement

variable (m : MethodElement)

theorem gist_sites (place : CriteriaList) (className name : String) :
    gist (m.sites place className name)
      = gist [Site.declaration (place.add (.inMethod name)) m.annotations]
        ++ gist [Site.type ((place.add (.inMethod name)).add (.receiver name)) m.receiver]
        ++ gist [Site.type ((place.add (.inMethod name)).add (.returnType className name))
            m.returnType]
        ++ gist (m.bounds.entries.map
            (fun b => Site.type ((place.add (.inMethod name)).add (.methodBound name b.1)) b.2))
        ++ gist (m.parameters.entries.map
            (fun p => Site.type ((place.add (.inMethod name)).add (.parameter name p.1)) p.2.type))
        ++ gist (m.insertions.sites (place.add (.inMethod name)))
        ++ gist (m.body.sites (place.add (.inMethod name)) name) := by
  simp only [← Site.gist_append]
  rfl

theorem gist_lambdaSites (place : CriteriaList) (method : String) :
    gist (m.lambdaSites place method)
      = gist (m.parameters.entries.flatMap
          (fun p => p.2.lambdaSites (place.add (.parameter anonymousMethod p.1))))
        ++ gist (m.body.sites place method) := by
  cases m
  rw [MethodElement.lambdaSites, Site.gist_append]

theorem alike_receiver {receiver : TypeElement} (h : m.receiver.Alike receiver) :
    m.Alike { m with receiver } where
  sites place className name := by rw [gist_sites, gist_sites, Site.gist_type _ h]
  lambdaSites place method := by rw [gist_lambdaSites, gist_lambdaSites]

theorem alike_returnType {returnType : TypeElement} (h : m.returnType.Alike returnType) :
    m.Alike { m with returnType } where
  sites place className name := by rw [gist_sites, gist_sites, Site.gist_type _ h]
  lambdaSites place method := by rw [gist_lambdaSites, gist_lambdaSites]

theorem alike_bounds {bounds : OrderedMap BoundLocation TypeElement}
    (h : Entries.Exchange TypeElement.Alike (·.isEmpty) m.bounds.entries bounds.entries) :
    m.Alike { m with bounds } where
  sites place className name := by
    rw [gist_sites, gist_sites, h.gist_map
      (f := fun b => Site.type ((place.add (.inMethod name)).add (.methodBound name b.1)) b.2)
      (fun ht => Site.gist_type _ ht) (fun ht => Site.gist_type_of_isEmpty _ ht)]
  lambdaSites place method := by rw [gist_lambdaSites, gist_lambdaSites]

theorem alike_parameters {parameters : OrderedMap UInt32 VariableElement}
    (h : Entries.Exchange VariableElement.Alike (·.isIdle) m.parameters.entries
      parameters.entries) : m.Alike { m with parameters } where
  sites place className name := by
    rw [gist_sites, gist_sites, h.gist_map
      (f := fun p => Site.type ((place.add (.inMethod name)).add (.parameter name p.1)) p.2.type)
      (fun hv => Site.gist_type _ hv.type)
      (fun hv => Site.gist_type _ (VariableElement.alike_default hv).type)]
  lambdaSites place method := by
    rw [gist_lambdaSites, gist_lambdaSites,
      h.gist_flatMap (fun hv => VariableElement.gist_lambdaSites _ hv)
        (fun hv => VariableElement.gist_lambdaSites _ (VariableElement.alike_default hv))]

theorem alike_insertions {insertions : AstInsertions} (h : m.insertions.Alike insertions) :
    m.Alike { m with insertions } where
  sites place className name := by rw [gist_sites, gist_sites, h]
  lambdaSites place method := by rw [gist_lambdaSites, gist_lambdaSites]

theorem alike_body {body : BlockElement} (h : m.body.Alike body) : m.Alike { m with body } where
  sites place className name := by rw [gist_sites, gist_sites, h]
  lambdaSites place method := by rw [gist_lambdaSites, gist_lambdaSites, h]

/-- An idle method comes to nothing in a class. -/
theorem gist_sites_of_isIdle (place : CriteriaList) (className name : String)
    {m : MethodElement} (h : m.isIdle = true) : gist (m.sites place className name) = [] := by
  obtain ⟨annotations, receiver, returnType, bounds, parameters, insertions, body⟩ := m
  simp only [isIdle, Bool.and_eq_true, List.all_eq_true] at h
  obtain ⟨⟨⟨⟨⟨⟨hannotations, hreceiver⟩, hreturn⟩, hbounds⟩, hparameters⟩, hinsertions⟩, hbody⟩ := h
  have hempty : gist (parameters.entries.map
      (fun p => Site.type ((place.add (.inMethod name)).add (.parameter name p.1)) p.2.type))
      = [] := by
    rw [List.map_eq_flatMap, Site.gist_flatMap, List.flatMap_eq_nil_iff]
    exact fun p hp => Site.gist_type _ (VariableElement.alike_default (hparameters p hp)).type
  rw [gist_sites, List.isEmpty_iff.mp hannotations, Site.gist_type_of_isEmpty _ hreceiver,
    Site.gist_type_of_isEmpty _ hreturn, TypeElement.gist_types_of_allEmpty hbounds, hempty,
    AstInsertions.gist_sites_of_isIdle hinsertions, BlockElement.gist_sites_of_isIdle _ _ _ hbody]
  rfl

end MethodElement

/-! ## Classes and scenes -/

/-- **Classes that come to the same**, under any name. -/
structure ClassElement.Alike (c c' : ClassElement) : Prop where
  /-- The annotations on the declarations are the same. -/
  annotations : c.annotations = c'.annotations
  /-- The sites come to the same. -/
  sites : ∀ name, gist (c.sites name) = gist (c'.sites name)

namespace ClassElement

variable (c : ClassElement)

theorem gist_sites (name : String) :
    gist (c.sites name)
      = gist [Site.declaration (CriteriaList.empty.add (.isClass name)) c.annotations]
        ++ gist (c.bounds.entries.map (fun b => Site.type
            ((CriteriaList.empty.add (.inClass name true)).add (.classBound name b.1)) b.2))
        ++ gist (c.supertypes.entries.map
            (fun t => Site.supertype ((memberPlace name).add (.supertype name t.1)) t.2))
        ++ gist (c.insertions.sites (memberPlace name))
        ++ gist (c.fields.entries.flatMap (fun f => f.2.fieldSites (memberPlace name) f.1))
        ++ gist (c.methods.entries.flatMap (fun m => m.2.sites (memberPlace name) name m.1))
        ++ gist (c.staticInits.entries.flatMap (fun i =>
            i.2.sites ((memberPlace name).add (.inStaticInit i.1))
              ("static init number " ++ i.1.toNat.repr ++ "()")))
        ++ gist (c.instanceInits.entries.flatMap (fun i =>
            i.2.sites ((memberPlace name).add (.inInstanceInit i.1))
              ("instance init number " ++ i.1.toNat.repr ++ "()")))
        ++ gist (c.fieldInits.entries.flatMap (fun i =>
            i.2.sites ((memberPlace name).add (.inFieldInit i.1))
              ("init for field " ++ i.1 ++ "()"))) := by
  simp only [← Site.gist_append]
  rfl

theorem alike_bounds {bounds : OrderedMap BoundLocation TypeElement}
    (h : Entries.Exchange TypeElement.Alike (·.isEmpty) c.bounds.entries bounds.entries) :
    c.Alike { c with bounds } where
  annotations := rfl
  sites name := by
    rw [gist_sites, gist_sites, h.gist_map
      (f := fun b => Site.type
        ((CriteriaList.empty.add (.inClass name true)).add (.classBound name b.1)) b.2)
      (fun ht => Site.gist_type _ ht) (fun ht => Site.gist_type_of_isEmpty _ ht)]

theorem alike_supertypes {supertypes : OrderedMap SupertypeLocation TypeElement}
    (h : Entries.Exchange TypeElement.Alike (·.isEmpty) c.supertypes.entries
      supertypes.entries) : c.Alike { c with supertypes } where
  annotations := rfl
  sites name := by
    rw [gist_sites, gist_sites, h.gist_map
      (f := fun t => Site.supertype ((memberPlace name).add (.supertype name t.1)) t.2)
      (fun ht => Site.gist_supertype _ ht) (fun ht => Site.gist_supertype_of_isEmpty _ ht)]

theorem alike_insertions {insertions : AstInsertions} (h : c.insertions.Alike insertions) :
    c.Alike { c with insertions } where
  annotations := rfl
  sites name := by rw [gist_sites, gist_sites, h]

theorem alike_fields {fields : OrderedMap String VariableElement}
    (h : Entries.Exchange VariableElement.Alike (·.isIdle) c.fields.entries fields.entries) :
    c.Alike { c with fields } where
  annotations := rfl
  sites name := by
    rw [gist_sites, gist_sites, h.gist_flatMap (fun hv => VariableElement.gist_fieldSites _ hv _)
      (fun hv => VariableElement.gist_fieldSites _ (VariableElement.alike_default hv) _)]

theorem alike_methods {methods : OrderedMap String MethodElement}
    (h : Entries.Exchange MethodElement.Alike (·.isIdle) c.methods.entries methods.entries) :
    c.Alike { c with methods } where
  annotations := rfl
  sites name := by
    rw [gist_sites, gist_sites, h.gist_flatMap (fun hm => hm.sites _ _ _)
      (fun hm => MethodElement.gist_sites_of_isIdle _ _ _ hm)]

theorem alike_staticInits {staticInits : OrderedMap UInt32 BlockElement}
    (h : Entries.Exchange BlockElement.Alike (·.isIdle) c.staticInits.entries
      staticInits.entries) : c.Alike { c with staticInits } where
  annotations := rfl
  sites name := by
    rw [gist_sites, gist_sites, h.gist_flatMap (fun hb => hb _ _)
      (fun hb => BlockElement.gist_sites_of_isIdle _ _ _ hb)]

theorem alike_instanceInits {instanceInits : OrderedMap UInt32 BlockElement}
    (h : Entries.Exchange BlockElement.Alike (·.isIdle) c.instanceInits.entries
      instanceInits.entries) : c.Alike { c with instanceInits } where
  annotations := rfl
  sites name := by
    rw [gist_sites, gist_sites, h.gist_flatMap (fun hb => hb _ _)
      (fun hb => BlockElement.gist_sites_of_isIdle _ _ _ hb)]

theorem alike_fieldInits {fieldInits : OrderedMap String ExpressionElement}
    (h : Entries.Exchange ExpressionElement.Alike (·.isIdle) c.fieldInits.entries
      fieldInits.entries) : c.Alike { c with fieldInits } where
  annotations := rfl
  sites name := by
    rw [gist_sites, gist_sites, h.gist_flatMap (fun hx => hx _ _)
      (fun hx => ExpressionElement.gist_sites_of_isIdle _ _ _ hx)]

end ClassElement

namespace Part

/-- **A class exchanged** for one that comes to the same is worked off alike. -/
theorem visitPart_ofClass {c c' : ClassElement} (h : c.Alike c') (formatter : Formatter)
    (settings : Settings) (lookup : ConstructorLookup) (name : String) (d : Draft) :
    Plan.visitPart formatter settings lookup d (ofClass name c)
      = Plan.visitPart formatter settings lookup d (ofClass name c') := by
  unfold ofClass
  rw [h.annotations]
  split
  · show (c.sites name).foldlM _ _ = (c'.sites name).foldlM _ _
    rw [← Draft.foldlM_gist, h.sites, Draft.foldlM_gist]
  · rfl
  · rfl

end Part

/-- **Scenes that come to the same**: with the same definitions, and worked off alike. -/
structure Scene.Alike (s s' : Scene) : Prop where
  /-- The definitions are the same. -/
  definitions : s.definitions = s'.definitions
  /-- The parts are worked off alike. -/
  parts : ∀ formatter settings lookup d,
    s.parts.foldlM (Plan.visitPart formatter settings lookup) d
      = s'.parts.foldlM (Plan.visitPart formatter settings lookup) d

/-- **Packages that come to the same.** -/
def PackageElement.Alike (p p' : PackageElement) : Prop := p.annotations = p'.annotations

namespace Scene

variable (s : Scene)

theorem alike_packages {packages : OrderedMap String PackageElement}
    (h : Entries.Exchange PackageElement.Alike (fun p => p.annotations.isEmpty)
      s.packages.entries packages.entries) : s.Alike { s with packages } where
  definitions := rfl
  parts formatter settings lookup d := by
    unfold parts
    rw [List.foldlM_append, List.foldlM_append]
    refine congrArg (· >>= _) (h.foldlM (fun hp e => ?_) (fun hp e => ?_) d)
    · rw [hp]
    · rw [List.isEmpty_iff.mp hp]
      show [_].foldlM (Draft.visit _) e = .ok e
      rw [← Draft.foldlM_gist, Site.gist_declaration_nil]
      rfl

theorem alike_classes {classes : OrderedMap String ClassElement}
    (h : Entries.Exchange ClassElement.Alike (fun _ => False) s.classes.entries
      classes.entries) : s.Alike { s with classes } where
  definitions := rfl
  parts formatter settings lookup d := by
    unfold parts
    rw [List.foldlM_append, List.foldlM_append]
    refine congrArg (_ >>= ·) (funext fun e => h.foldlM (fun hc e => ?_) False.elim e)
    exact Part.visitPart_ofClass hc formatter settings lookup _ e

end Scene

end AnnotationPlan
