import AnnotationPlan.Synthesis.Draft
import AnnotationPlan.Proofs.Criteria.Composition

/-!
# What the sites of a scene have in common

A scene is laid out as a list of sites, and what happens at a site depends on its
criteria. The criteria come about on the way down: each level narrows the place of the
one above by one more criterion. So a fact about all sites need not be read off the
whole layout. It is enough that the fact holds of a site at any place of some sort, and
that narrowing a place does not change the sort (`SiteRule`); the layout is gone
through once (`ClassElement.forall_sites`). Two things stand apart: a method, since
narrowing a place to it may well change the sort, and within it its result type, since
that criterion decides what becomes of an annotation.

The fact needed first is `Site.Fits`: a site of a class knows its class, only plain
types are result types, and every position within a type has a path. The positions of
a site, those within its type first, are its **spots**.
-/

namespace AnnotationPlan

/-- **A spot**: a position, and the type to cast to where a cast is to be inserted. -/
structure Spot extends Position where
  /-- The type to cast to. -/
  cast : Option JavaType

namespace Spot

/-- What the annotations on a spot become. -/
def form (p : Spot) : Form := Form.classify p.criteria.compose p.cast

/-- A position within a type, where no cast is ever inserted. -/
def within (p : Position) : Spot := ⟨p, none⟩

end Spot

namespace Site

/-- The spot of the site itself. -/
def spot (s : Site) : Spot := ⟨s.toPosition, s.cast⟩

/-- **The spots of a site** in the order in which they are worked off. -/
def spots (s : Site) : List Spot := s.nested.map Spot.within ++ [s.spot]

theorem spot_mem_spots (s : Site) : s.spot ∈ s.spots :=
  List.mem_append_right _ (List.mem_singleton_self _)

theorem within_mem_spots {s : Site} {p : Position} (h : p ∈ s.nested) :
    Spot.within p ∈ s.spots :=
  List.mem_append_left _ (List.mem_map_of_mem h)

/-- Positions within a type are at the place of the type, narrowed by their path. -/
theorem exists_path_of_mem_positionsWithin {place : CriteriaList}
    {inner : List (TypePath × TypeElement)} {p : Position}
    (h : p ∈ positionsWithin place inner) :
    ∃ path, p.criteria = place.add (.atLocation path) := by
  obtain ⟨q, -, rfl⟩ := List.mem_map.mp h
  exact ⟨q.1, rfl⟩

end Site

/-- The sites of lambdas, lambda after lambda. -/
theorem lambdaSites_eq_flatMap (place : CriteriaList) (method : String)
    (lambdas : List (RelativeLocation × MethodElement)) :
    lambdaSites place method lambdas
      = lambdas.flatMap (fun e => e.2.lambdaSites (place.add (.lambda method e.1)) method) := by
  induction lambdas with
  | nil => rfl
  | cons e rest ih => rw [lambdaSites, ih, List.flatMap_cons]

/-! ## Going through the layout -/

/-- The criteria that only narrow a place further: all but those that say which class
or method it is in, that it is a result type, where in a type it is, or which type of an
intersection. -/
def Criterion.IsOrdinary : Criterion → Prop
  | .inClass .. => False
  | .isClass .. => False
  | .inMethod .. => False
  | .returnType .. => False
  | .atLocation .. => False
  | .intersectionType .. => False
  | _ => True

/-- **A fact about sites that only depends on the sort of place.** -/
structure SiteRule (P : CriteriaList → Prop) (Q : Site → Prop) : Prop where
  /-- Narrowing a place does not change its sort. -/
  add : ∀ {place c}, P place → c.IsOrdinary → P (place.add c)
  /-- The fact holds of declarations. -/
  declaration : ∀ {place} as, P place → Q (Site.declaration place as)
  /-- It holds of types. -/
  type : ∀ {place} t, P place → Q (Site.type place t)
  /-- It holds of supertypes. -/
  supertype : ∀ {place} t, P place → Q (Site.supertype place t)
  /-- It holds of types at places in a syntax tree. -/
  inserted : ∀ {place} path t, P place → Q (Site.inserted (place.add (.astPath path)) t)
  /-- It holds of casts to be inserted. -/
  insertedCast : ∀ {place} path c, P place →
    Q (Site.insertedCast (place.add (.astPath path)) c)

section Rule

variable {P : CriteriaList → Prop} {Q : Site → Prop}

theorem AstInsertions.forall_sites (rule : SiteRule P Q) {place : CriteriaList}
    (h : P place) (i : AstInsertions) : ∀ s ∈ i.sites place, Q s := by
  intro s hs
  rcases List.mem_append.mp hs with hs | hs
  · obtain ⟨e, -, rfl⟩ := List.mem_map.mp hs
    exact rule.inserted e.1 e.2 h
  · obtain ⟨e, -, rfl⟩ := List.mem_map.mp hs
    exact rule.insertedCast e.1 e.2 h

namespace VariableElement

theorem forall_fieldSites (rule : SiteRule P Q) {place : CriteriaList} (h : P place)
    (name : String) (v : VariableElement) : ∀ s ∈ v.fieldSites place name, Q s := by
  refine List.forall_mem_cons.mpr ⟨rule.declaration _ (rule.add h (by trivial)), ?_⟩
  refine List.forall_mem_cons.mpr ⟨rule.type _ (rule.add h (by trivial)), ?_⟩
  exact AstInsertions.forall_sites rule (rule.add h (by trivial)) v.insertions

theorem forall_localSites (rule : SiteRule P Q) {place : CriteriaList} (h : P place)
    (v : VariableElement) : ∀ s ∈ v.localSites place, Q s := by
  refine List.forall_mem_cons.mpr ⟨rule.declaration _ h, ?_⟩
  exact List.forall_mem_singleton.mpr (rule.type _ h)

theorem forall_lambdaSites (rule : SiteRule P Q) {place : CriteriaList} (h : P place)
    (v : VariableElement) : ∀ s ∈ v.lambdaSites place, Q s :=
  List.forall_mem_cons.mpr ⟨rule.type _ h, AstInsertions.forall_sites rule h v.insertions⟩

end VariableElement

theorem forall_expressionSites (rule : SiteRule P Q) {place : CriteriaList} (h : P place)
    {criterion : RelativeLocation → Criterion} (hc : ∀ l, (criterion l).IsOrdinary)
    (es : OrderedMap RelativeLocation TypeElement) :
    ∀ s ∈ expressionSites place criterion es, Q s := by
  intro s hs
  obtain ⟨e, -, rfl⟩ := List.mem_map.mp hs
  exact rule.type _ (rule.add h (hc e.1))

mutual

theorem ExpressionElement.forall_sites (rule : SiteRule P Q) {place : CriteriaList}
    (h : P place) (method : String) :
    ∀ e : ExpressionElement, ∀ s ∈ e.sites place method, Q s
  | ⟨casts, news, instanceOfs, memberReferences, calls, lambdas⟩ => by
    intro s hs
    simp only [ExpressionElement.sites, List.mem_append] at hs
    rcases hs with ((((hs | hs) | hs) | hs) | hs) | hs
    · exact forall_expressionSites rule h (fun _ => by trivial) casts s hs
    · exact forall_expressionSites rule h (fun _ => by trivial) news s hs
    · exact forall_expressionSites rule h (fun _ => by trivial) instanceOfs s hs
    · exact forall_expressionSites rule h (fun _ => by trivial) memberReferences s hs
    · exact forall_expressionSites rule h (fun _ => by trivial) calls s hs
    · exact forall_lambdaSites rule h method lambdas s hs

theorem forall_lambdaSites (rule : SiteRule P Q) {place : CriteriaList} (h : P place)
    (method : String) :
    ∀ ls : List (RelativeLocation × MethodElement), ∀ s ∈ lambdaSites place method ls, Q s
  | [] => fun _ hs => absurd hs List.not_mem_nil
  | (location, m) :: rest => by
    intro s hs
    rw [lambdaSites, List.mem_append] at hs
    rcases hs with hs | hs
    · exact MethodElement.forall_lambdaSites rule (rule.add h (by trivial)) method m s hs
    · exact forall_lambdaSites rule h method rest s hs

theorem MethodElement.forall_lambdaSites (rule : SiteRule P Q) {place : CriteriaList}
    (h : P place) (method : String) :
    ∀ m : MethodElement, ∀ s ∈ m.lambdaSites place method, Q s
  | ⟨annotations, receiver, returnType, bounds, parameters, insertions, body⟩ => by
    intro s hs
    rw [MethodElement.lambdaSites, List.mem_append] at hs
    rcases hs with hs | hs
    · obtain ⟨p, -, hs⟩ := List.mem_flatMap.mp hs
      exact VariableElement.forall_lambdaSites rule (rule.add h (by trivial)) p.2 s hs
    · exact BlockElement.forall_sites rule h method body s hs

theorem BlockElement.forall_sites (rule : SiteRule P Q) {place : CriteriaList}
    (h : P place) (method : String) :
    ∀ b : BlockElement, ∀ s ∈ b.sites place method, Q s
  | ⟨locals, expressions⟩ => by
    intro s hs
    rw [BlockElement.sites, List.mem_append] at hs
    rcases hs with hs | hs
    · obtain ⟨l, -, hs⟩ := List.mem_flatMap.mp hs
      exact VariableElement.forall_localSites rule (rule.add h (by trivial)) l.2 s hs
    · exact ExpressionElement.forall_sites rule h method expressions s hs

end

/-- **The sites of a method**: those of the result type, and all others. -/
theorem MethodElement.forall_sites (rule : SiteRule P Q) {place : CriteriaList}
    {className name : String} (hm : P (place.add (.inMethod name)))
    (hreturn : ∀ t, Q (Site.type ((place.add (.inMethod name)).add
      (.returnType className name)) t)) (m : MethodElement) :
    ∀ s ∈ m.sites place className name, Q s := by
  intro s hs
  simp only [MethodElement.sites, List.mem_append, List.mem_cons, List.mem_map] at hs
  rcases hs with (((rfl | rfl | rfl | ⟨b, -, rfl⟩) | ⟨p, -, rfl⟩) | hs) | hs
  · exact rule.declaration _ hm
  · exact rule.type _ (rule.add hm (by trivial))
  · exact hreturn m.returnType
  · exact rule.type _ (rule.add hm (by trivial))
  · exact rule.type _ (rule.add hm (by trivial))
  · exact AstInsertions.forall_sites rule hm m.insertions s hs
  · exact BlockElement.forall_sites rule hm name m.body s hs

/-- **The sites of a class**: its declaration, those in the class, and those of its
methods. -/
theorem ClassElement.forall_sites (rule : SiteRule P Q) {name : String}
    (hclass : P (CriteriaList.empty.add (.isClass name)))
    (hexact : P (CriteriaList.empty.add (.inClass name true)))
    (hplace : P (memberPlace name)) (c : ClassElement)
    (hmethod : ∀ m ∈ c.methods.entries, ∀ s ∈ m.2.sites (memberPlace name) name m.1, Q s) :
    ∀ s ∈ c.sites name, Q s := by
  intro s hs
  simp only [ClassElement.sites, List.mem_append, List.mem_cons, List.mem_map,
    List.mem_flatMap] at hs
  rcases hs with (((((((((rfl | ⟨b, -, rfl⟩) | ⟨t, -, rfl⟩) | hs) | ⟨f, -, hs⟩) | ⟨m, hm, hs⟩)
    | ⟨i, -, hs⟩) | ⟨i, -, hs⟩) | ⟨i, -, hs⟩))
  · exact rule.declaration _ hclass
  · exact rule.type _ (rule.add hexact (by trivial))
  · exact rule.supertype _ (rule.add hplace (by trivial))
  · exact AstInsertions.forall_sites rule hplace c.insertions s hs
  · exact VariableElement.forall_fieldSites rule hplace f.1 f.2 s hs
  · exact hmethod m hm s hs
  · exact BlockElement.forall_sites rule (rule.add hplace (by trivial)) _ i.2 s hs
  · exact BlockElement.forall_sites rule (rule.add hplace (by trivial)) _ i.2 s hs
  · exact ExpressionElement.forall_sites rule (rule.add hplace (by trivial)) _ i.2 s hs

/-- **The sites of a part**, whatever part it is. -/
theorem Part.forall_sites (rule : SiteRule P Q)
    (hpackage : ∀ name, P (CriteriaList.empty.add (.packageDecl name)))
    (hclass : ∀ name, P (CriteriaList.empty.add (.isClass name)))
    (hexact : ∀ name, P (CriteriaList.empty.add (.inClass name true)))
    (hplace : ∀ name, P (ClassElement.memberPlace name))
    (hm : ∀ name method, P ((ClassElement.memberPlace name).add (.inMethod method)))
    (hreturn : ∀ name method t, Q (Site.type (((ClassElement.memberPlace name).add
      (.inMethod method)).add (.returnType name method)) t)) (p : Part) :
    ∀ s ∈ p.sites, Q s := by
  cases p with
  | nameless className => exact fun s hs => absurd hs List.not_mem_nil
  | package name annotations =>
    exact List.forall_mem_singleton.mpr (rule.declaration annotations (hpackage name))
  | type name c =>
    refine ClassElement.forall_sites rule (hclass name) (hexact name) (hplace name) c
      (fun m _ => ?_)
    exact MethodElement.forall_sites rule (hm name m.1) (hreturn name m.1) m.2

end Rule

end AnnotationPlan
