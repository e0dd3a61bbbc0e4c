import AnnotationPlan.Proofs.Scene.Sites
import Mathlib.Data.List.Nodup

/-!
# No two casts are to be inserted in one place

Every level of a scene narrows the place of the one above by a criterion, and the members of
one element are told apart by these criteria: those of one kind by their keys, those of
different kinds by the kind of the criterion. So the places of the casts that are to be
inserted **fan out** from the place of the element (`CriteriaList.Fan`), and no two of them are
the same (`Scene.fan_castPlaces`).

What is needed for it is that keys are not repeated. Ordered maps see to it themselves; but
lambdas, whose code has lambdas again, are kept as bare lists, and of these it is asked
(`Scene.HasKeys`).
-/

namespace AnnotationPlan

namespace CriteriaList

variable {place l : CriteriaList} {c c' : Criterion} {kind : CriterionKind}
  {kinds kinds' : List CriterionKind} {ls ls' : List CriteriaList}

/-- **One place lies below another**, through a criterion: it is the other one narrowed by this
criterion first. -/
def Below (place : CriteriaList) (c : Criterion) (l : CriteriaList) : Prop :=
  (place.add c).toList <+: l.toList

theorem Below.refl (place : CriteriaList) (c : Criterion) : place.Below c (place.add c) :=
  List.prefix_refl _

/-- What lies below a narrowed place lies below the place. -/
theorem Below.of_add (h : (place.add c).Below c' l) : place.Below c l := by
  rw [Below, toList_add] at h
  exact (List.prefix_append _ _).trans h

/-- **A place lies below another one through one criterion only.** -/
theorem Below.unique (h : place.Below c l) (h' : place.Below c' l) : c = c' := by
  have hlength : (place.add c).toList.length = (place.add c').toList.length := by simp
  have heq := (List.prefix_of_prefix_length_le h h' (Nat.le_of_eq hlength)).eq_of_length hlength
  rw [toList_add, toList_add] at heq
  exact List.singleton_inj.mp (List.append_cancel_left heq)

/-- **Places that fan out from one**: they are different, and each lies below it through a
criterion of one of some kinds. -/
structure Fan (place : CriteriaList) (kinds : List CriterionKind) (ls : List CriteriaList) :
    Prop where
  /-- The places are different. -/
  nodup : ls.Nodup
  /-- They lie below. -/
  below : ∀ l ∈ ls, ∃ c, c.kind ∈ kinds ∧ place.Below c l

namespace Fan

theorem nil (place : CriteriaList) (kinds : List CriterionKind) : Fan place kinds [] :=
  ⟨List.nodup_nil, fun _ hl => absurd hl List.not_mem_nil⟩

/-- Places below through criteria of different kinds fan out together. -/
theorem append (h : Fan place kinds ls) (h' : Fan place kinds' ls')
    (hkinds : kinds.Disjoint kinds') :
    Fan place (kinds ++ kinds') (ls ++ ls') where
  nodup := by
    refine List.nodup_append.mpr ⟨h.nodup, h'.nodup, ?_⟩
    rintro l hl _ hl' rfl
    obtain ⟨c, hc, hbelow⟩ := h.below l hl
    obtain ⟨c', hc', hbelow'⟩ := h'.below l hl'
    exact hkinds hc (hbelow.unique hbelow' ▸ hc')
  below := fun l hl => by
    rcases List.mem_append.mp hl with hl | hl
    · exact (h.below l hl).imp (fun _ hc => ⟨List.mem_append_left _ hc.1, hc.2⟩)
    · exact (h'.below l hl).imp (fun _ hc => ⟨List.mem_append_right _ hc.1, hc.2⟩)

/-- Places that fan out from a narrowed place fan out from the place. -/
theorem of_add (h : Fan (place.add c) kinds ls) : Fan place [c.kind] ls where
  nodup := h.nodup
  below := fun l hl => by
    obtain ⟨c', -, hbelow⟩ := h.below l hl
    exact ⟨c, List.mem_singleton_self _, hbelow.of_add⟩

/-- **Members with different criteria** of one kind: what fans out from their places fans out
together. -/
theorem flatMap {α : Type} {members : List α} (criterion : α → Criterion)
    {places : α → List CriteriaList} (hdistinct : (members.map criterion).Nodup)
    (hkind : ∀ m ∈ members, (criterion m).kind = kind)
    (hfan : ∀ m ∈ members, Fan (place.add (criterion m)) kinds (places m)) :
    Fan place [kind] (members.flatMap places) where
  nodup := by
    refine List.nodup_flatMap.mpr ⟨fun m hm => (hfan m hm).nodup, ?_⟩
    refine (List.pairwise_map.mp hdistinct).imp_of_mem (fun {m m'} hm hm' hne l hl hl' => hne ?_)
    obtain ⟨c, -, hbelow⟩ := (hfan m hm).below l hl
    obtain ⟨c', -, hbelow'⟩ := (hfan m' hm').below l hl'
    exact hbelow.of_add.unique hbelow'.of_add
  below := fun l hl => by
    obtain ⟨m, hm, hl⟩ := List.mem_flatMap.mp hl
    obtain ⟨c, -, hbelow⟩ := (hfan m hm).below l hl
    exact ⟨criterion m, List.mem_singleton.mpr (hkind m hm), hbelow.of_add⟩

end Fan

end CriteriaList

open CriteriaList (Fan)

/-- The entries of a map are told apart by criteria that are made from their keys. -/
theorem OrderedMap.nodup_map_criterion {κ ν : Type} (m : OrderedMap κ ν) {criterion : κ → Criterion}
    (h : criterion.Injective) : (m.entries.map (fun e => criterion e.1)).Nodup := by
  have hmap : m.entries.map (fun e => criterion e.1) = (m.entries.map Prod.fst).map criterion := by
    rw [List.map_map]
    rfl
  rw [hmap]
  exact m.distinct.map h

/-! ## The places of casts -/

/-- The place where a cast is to be inserted, if one is. -/
def Site.castPlaces (s : Site) : List CriteriaList :=
  match s.cast with
  | some _ => [s.criteria]
  | none => []

@[simp] theorem Site.castPlaces_declaration (place : CriteriaList)
    (annotations : List AnnotationUse) : (Site.declaration place annotations).castPlaces = [] := rfl

@[simp] theorem Site.castPlaces_type (place : CriteriaList) (t : TypeElement) :
    (Site.type place t).castPlaces = [] := rfl

/-- **The places where casts are to be inserted.** -/
def castPlaces (sites : List Site) : List CriteriaList := sites.flatMap Site.castPlaces

@[simp] theorem castPlaces_nil : castPlaces [] = [] := rfl

@[simp] theorem castPlaces_cons (s : Site) (sites : List Site) :
    castPlaces (s :: sites) = s.castPlaces ++ castPlaces sites := List.flatMap_cons

@[simp] theorem castPlaces_append (sites sites' : List Site) :
    castPlaces (sites ++ sites') = castPlaces sites ++ castPlaces sites' := List.flatMap_append

theorem castPlaces_flatMap {α : Type} (xs : List α) (sites : α → List Site) :
    castPlaces (xs.flatMap sites) = xs.flatMap (fun x => castPlaces (sites x)) :=
  List.flatMap_assoc

/-- Sites without a cast have no places for one. -/
theorem castPlaces_eq_nil {sites : List Site} (h : ∀ s ∈ sites, s.cast = none) :
    castPlaces sites = [] := by
  refine List.flatMap_eq_nil_iff.mpr (fun s hs => ?_)
  rw [Site.castPlaces, h s hs]

@[simp] theorem castPlaces_map_type {α : Type} (xs : List α) (place : α → CriteriaList)
    (t : α → TypeElement) : castPlaces (xs.map (fun x => Site.type (place x) (t x))) = [] :=
  castPlaces_eq_nil (List.forall_mem_map.mpr (fun _ _ => rfl))

@[simp] theorem castPlaces_expressionSites (place : CriteriaList)
    (criterion : RelativeLocation → Criterion) (es : OrderedMap RelativeLocation TypeElement) :
    castPlaces (expressionSites place criterion es) = [] :=
  castPlaces_map_type es.entries _ _

/-- **What goes into a syntax tree**: a cast for each of the paths. -/
theorem AstInsertions.fan_castPlaces (place : CriteriaList) (i : AstInsertions) :
    Fan place [.astPath] (castPlaces (i.sites place)) := by
  have hcasts : castPlaces (i.sites place)
      = i.casts.entries.flatMap (fun e => [place.add (.astPath e.1)]) := by
    have hannotations : castPlaces (i.annotations.entries.map
        (fun e => Site.inserted (place.add (.astPath e.1)) e.2)) = [] :=
      castPlaces_eq_nil (List.forall_mem_map.mpr (fun _ _ => rfl))
    rw [sites, castPlaces_append, hannotations, List.nil_append, castPlaces, List.flatMap_map]
    rfl
  rw [hcasts]
  have hdistinct := i.casts.nodup_map_criterion
    (fun p q (h : Criterion.astPath p = .astPath q) => Criterion.astPath.inj h)
  refine ⟨?_, fun l hl => ?_⟩
  · refine List.nodup_flatMap.mpr ⟨fun _ _ => List.nodup_singleton _, ?_⟩
    refine (List.pairwise_map.mp hdistinct).imp (fun {e e'} hne l hl hl' => hne ?_)
    have hsame := (List.mem_singleton.mp hl).symm.trans (List.mem_singleton.mp hl')
    exact (CriteriaList.Below.refl place _).unique (hsame ▸ CriteriaList.Below.refl place _)
  · obtain ⟨e, -, hl⟩ := List.mem_flatMap.mp hl
    exact ⟨.astPath e.1, List.mem_singleton_self _, List.mem_singleton.mp hl ▸ .refl place _⟩

/-! ## Lambdas -/

mutual

/-- **The lambdas in expressions have keys**: no two that are listed together have the same, and
so for the lambdas in their code. -/
def ExpressionElement.HasKeys : ExpressionElement → Prop
  | ⟨_, _, _, _, _, lambdas⟩ => (lambdas.map Prod.fst).Nodup ∧ haveKeys lambdas
termination_by structural e => e

/-- The lambdas in the code of lambdas have keys. -/
def haveKeys : List (RelativeLocation × MethodElement) → Prop
  | [] => True
  | (_, m) :: rest => m.HasKeys ∧ haveKeys rest
termination_by structural es => es

/-- The lambdas in the code of a method or a lambda have keys. -/
def MethodElement.HasKeys : MethodElement → Prop
  | ⟨_, _, _, _, _, _, body⟩ => body.HasKeys
termination_by structural m => m

/-- The lambdas in a block have keys. -/
def BlockElement.HasKeys : BlockElement → Prop
  | ⟨_, expressions⟩ => expressions.HasKeys
termination_by structural b => b

end

/-- The lambdas in a class have keys. -/
structure ClassElement.HasKeys (c : ClassElement) : Prop where
  /-- Those in the code of methods. -/
  methods : ∀ m ∈ c.methods.entries, m.2.HasKeys
  /-- Those in the initializers of the class. -/
  staticInits : ∀ i ∈ c.staticInits.entries, i.2.HasKeys
  /-- Those in the initializers of its objects. -/
  instanceInits : ∀ i ∈ c.instanceInits.entries, i.2.HasKeys
  /-- Those in the initial values of its fields. -/
  fieldInits : ∀ i ∈ c.fieldInits.entries, i.2.HasKeys

/-- **The lambdas in a scene have keys**: where several are listed together, no two have the
same location. -/
def Scene.HasKeys (s : Scene) : Prop := ∀ c ∈ s.classes.entries, c.2.HasKeys

/-- The casts in the parameters of a lambda. -/
theorem VariableElement.fan_lambdaSites (place : CriteriaList) (v : VariableElement) :
    Fan place [.astPath] (castPlaces (v.lambdaSites place)) :=
  v.insertions.fan_castPlaces place

mutual

/-- The casts in expressions. -/
theorem ExpressionElement.fan_castPlaces (method : String) :
    ∀ (x : ExpressionElement) (place : CriteriaList), x.HasKeys →
      Fan place [.lambda] (castPlaces (x.sites place method))
  | ⟨casts, news, instanceOfs, memberReferences, calls, lambdas⟩, place, h => by
    have hlambdas : castPlaces ((⟨casts, news, instanceOfs, memberReferences, calls,
        lambdas⟩ : ExpressionElement).sites place method)
          = castPlaces (lambdaSites place method lambdas) := by
      simp [ExpressionElement.sites]
    rw [hlambdas, lambdaSites_eq_flatMap, castPlaces_flatMap]
    refine Fan.flatMap (fun e => .lambda method e.1) ?_ (fun _ _ => rfl)
      (fan_lambdas method lambdas place h.2)
    have hmap : lambdas.map (fun e => Criterion.lambda method e.1)
        = (lambdas.map Prod.fst).map (Criterion.lambda method) := by
      rw [List.map_map]
      rfl
    rw [hmap]
    exact h.1.map (fun _ _ heq => (Criterion.lambda.inj heq).2)

/-- The casts in lambdas. -/
theorem fan_lambdas (method : String) :
    ∀ (lambdas : List (RelativeLocation × MethodElement)) (place : CriteriaList),
      haveKeys lambdas → ∀ e ∈ lambdas, Fan (place.add (.lambda method e.1)) [.parameter, .lambda]
        (castPlaces (e.2.lambdaSites (place.add (.lambda method e.1)) method))
  | [], _, _ => fun _ he => absurd he List.not_mem_nil
  | (_, m) :: rest, place, h =>
    List.forall_mem_cons.mpr
      ⟨MethodElement.fan_castPlaces_lambda method m _ h.1, fan_lambdas method rest place h.2⟩

/-- The casts in a lambda. -/
theorem MethodElement.fan_castPlaces_lambda (method : String) :
    ∀ (m : MethodElement) (place : CriteriaList), m.HasKeys →
      Fan place [.parameter, .lambda] (castPlaces (m.lambdaSites place method))
  | ⟨_, _, _, _, parameters, _, body⟩, place, h => by
    rw [MethodElement.lambdaSites, castPlaces_append, castPlaces_flatMap]
    have hparameters : Fan place [.parameter] (parameters.entries.flatMap (fun p =>
        castPlaces (p.2.lambdaSites (place.add (.parameter anonymousMethod p.1))))) :=
      Fan.flatMap (fun p => .parameter anonymousMethod p.1)
        (parameters.nodup_map_criterion (fun _ _ heq => (Criterion.parameter.inj heq).2))
        (fun _ _ => rfl) (fun p _ => p.2.fan_lambdaSites _)
    exact hparameters.append (BlockElement.fan_castPlaces method body place h) (by simp)

/-- The casts in a block. -/
theorem BlockElement.fan_castPlaces (method : String) :
    ∀ (b : BlockElement) (place : CriteriaList), b.HasKeys →
      Fan place [.lambda] (castPlaces (b.sites place method))
  | ⟨locals, expressions⟩, place, h => by
    have hlocals : castPlaces (locals.entries.flatMap
        (fun l => l.2.localSites (place.add (.localVariable method l.1)))) = [] := by
      rw [castPlaces_flatMap]
      exact List.flatMap_eq_nil_iff.mpr (fun _ _ => rfl)
    rw [BlockElement.sites, castPlaces_append, hlocals]
    exact ExpressionElement.fan_castPlaces method expressions place h

end

/-! ## Members of classes -/

/-- The casts in a field. -/
theorem VariableElement.fan_fieldSites (place : CriteriaList) (name : String)
    (v : VariableElement) :
    Fan (place.add (.field name false)) [.astPath] (castPlaces (v.fieldSites place name)) :=
  v.insertions.fan_castPlaces (place.add (.field name false))

/-- The casts in a method. -/
theorem MethodElement.fan_castPlaces (place : CriteriaList) (className name : String)
    (m : MethodElement) (h : m.HasKeys) :
    Fan (place.add (.inMethod name)) [.astPath, .lambda]
      (castPlaces (m.sites place className name)) := by
  obtain ⟨annotations, receiver, returnType, bounds, parameters, insertions, body⟩ := m
  have hinside := insertions.fan_castPlaces (place.add (.inMethod name))
  have hbody := BlockElement.fan_castPlaces name body (place.add (.inMethod name)) h
  simpa [MethodElement.sites] using hinside.append hbody (by simp)

namespace ClassElement

variable (name : String) (c : ClassElement)

/-- The casts in the fields of a class. -/
theorem fan_fields : Fan (memberPlace name) [.field]
    (castPlaces (c.fields.entries.flatMap (fun f => f.2.fieldSites (memberPlace name) f.1))) := by
  rw [castPlaces_flatMap]
  exact Fan.flatMap (fun f => .field f.1 false)
    (c.fields.nodup_map_criterion (fun _ _ heq => (Criterion.field.inj heq).1))
    (fun _ _ => rfl) (fun f _ => f.2.fan_fieldSites _ f.1)

/-- The casts in the methods of a class. -/
theorem fan_methods (h : c.HasKeys) : Fan (memberPlace name) [.inMethod]
    (castPlaces (c.methods.entries.flatMap
      (fun m => m.2.sites (memberPlace name) name m.1))) := by
  rw [castPlaces_flatMap]
  exact Fan.flatMap (fun m => .inMethod m.1)
    (c.methods.nodup_map_criterion (fun _ _ heq => Criterion.inMethod.inj heq))
    (fun _ _ => rfl) (fun m hm => m.2.fan_castPlaces _ name m.1 (h.methods m hm))

/-- The casts in initializers of one sort. -/
theorem fan_inits {κ : Type} (inits : OrderedMap κ BlockElement) {criterion : κ → Criterion}
    {kind : CriterionKind} (method : κ → String) (hinjective : criterion.Injective)
    (hkind : ∀ k, (criterion k).kind = kind) (h : ∀ i ∈ inits.entries, i.2.HasKeys) :
    Fan (memberPlace name) [kind] (castPlaces (inits.entries.flatMap
      (fun i => i.2.sites ((memberPlace name).add (criterion i.1)) (method i.1)))) := by
  rw [castPlaces_flatMap]
  exact Fan.flatMap (fun i => criterion i.1) (inits.nodup_map_criterion hinjective)
    (fun i _ => hkind i.1) (fun i hi => i.2.fan_castPlaces (method i.1) _ (h i hi))

/-- The casts in the initial values of the fields of a class. -/
theorem fan_fieldInits (h : c.HasKeys) : Fan (memberPlace name) [.inFieldInit]
    (castPlaces (c.fieldInits.entries.flatMap (fun i =>
      i.2.sites ((memberPlace name).add (.inFieldInit i.1))
        ("init for field " ++ i.1 ++ "()")))) := by
  rw [castPlaces_flatMap]
  exact Fan.flatMap (fun i => .inFieldInit i.1)
    (c.fieldInits.nodup_map_criterion (fun _ _ heq => Criterion.inFieldInit.inj heq))
    (fun _ _ => rfl) (fun i hi => i.2.fan_castPlaces _ _ (h.fieldInits i hi))

/-- The casts in a class, section by section. -/
theorem castPlaces_sites : castPlaces (c.sites name)
    = castPlaces (c.insertions.sites (memberPlace name))
      ++ castPlaces (c.fields.entries.flatMap (fun f => f.2.fieldSites (memberPlace name) f.1))
      ++ castPlaces (c.methods.entries.flatMap (fun m => m.2.sites (memberPlace name) name m.1))
      ++ castPlaces (c.staticInits.entries.flatMap (fun i =>
        i.2.sites ((memberPlace name).add (.inStaticInit i.1))
          ("static init number " ++ i.1.toNat.repr ++ "()")))
      ++ castPlaces (c.instanceInits.entries.flatMap (fun i =>
        i.2.sites ((memberPlace name).add (.inInstanceInit i.1))
          ("instance init number " ++ i.1.toNat.repr ++ "()")))
      ++ castPlaces (c.fieldInits.entries.flatMap (fun i =>
        i.2.sites ((memberPlace name).add (.inFieldInit i.1))
          ("init for field " ++ i.1 ++ "()"))) := by
  have hsupertypes : castPlaces (c.supertypes.entries.map (fun t =>
      Site.supertype ((memberPlace name).add (.supertype name t.1)) t.2)) = [] :=
    castPlaces_eq_nil (List.forall_mem_map.mpr (fun _ _ => rfl))
  simp only [sites, castPlaces_append, castPlaces_cons, castPlaces_map_type, hsupertypes,
    Site.castPlaces_declaration, List.nil_append, List.append_nil]

/-- **The casts in a class.** -/
theorem fan_castPlaces (h : c.HasKeys) :
    Fan (CriteriaList.empty.add (.inClass name true)) [.inClass] (castPlaces (c.sites name)) := by
  have hstatic := fan_inits name c.staticInits
    (fun n => "static init number " ++ n.toNat.repr ++ "()")
    (fun _ _ heq => Criterion.inStaticInit.inj heq) (fun _ => rfl) h.staticInits
  have hinstance := fan_inits name c.instanceInits
    (fun n => "instance init number " ++ n.toNat.repr ++ "()")
    (fun _ _ heq => Criterion.inInstanceInit.inj heq) (fun _ => rfl) h.instanceInits
  have hall := (((((c.insertions.fan_castPlaces (memberPlace name)).append (c.fan_fields name)
    (by simp)).append (c.fan_methods name h) (by simp)).append hstatic (by simp)).append hinstance
      (by simp)).append (c.fan_fieldInits name h) (by simp)
  rw [castPlaces_sites]
  exact hall.of_add

end ClassElement

/-! ## Scenes -/

/-- **No two casts are to be inserted in one place**, and all are in classes. -/
theorem Scene.fan_castPlaces (s : Scene) (h : s.HasKeys) :
    Fan CriteriaList.empty [.inClass] (castPlaces (s.parts.flatMap Part.sites)) := by
  have hpackages : castPlaces ((s.packages.entries.map
      (fun p => Part.package p.1 p.2.annotations)).flatMap Part.sites) = [] := by
    rw [List.flatMap_map, castPlaces_flatMap]
    exact List.flatMap_eq_nil_iff.mpr (fun _ _ => rfl)
  rw [parts, List.flatMap_append, castPlaces_append, hpackages, List.nil_append, List.flatMap_map,
    castPlaces_flatMap]
  have hclass : ∀ c ∈ s.classes.entries, Fan (CriteriaList.empty.add (.inClass c.1 true)) [.inClass]
      (castPlaces (Part.ofClass c.1 c.2).sites) := by
    intro c hc
    -- a class that stands for a package has no sites but that of the package
    unfold Part.ofClass
    split
    · exact c.2.fan_castPlaces c.1 (h c hc)
    · exact .nil _ _
    · exact .nil _ _
  exact Fan.flatMap (fun c => .inClass c.1 true)
    (s.classes.nodup_map_criterion (fun _ _ heq => (Criterion.inClass.inj heq).1))
    (fun _ _ => rfl) hclass

end AnnotationPlan
