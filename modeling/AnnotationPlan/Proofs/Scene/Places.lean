import AnnotationPlan.Proofs.Scene.Sites

/-!
# Every site knows where it is

All that the rest needs to know about the criteria of the sites of a part is collected
in `Site.Fits`, and every site of every part fits (`Part.fits_sites`):

* the criteria name the class of the part, and for a package no class, no method and
  nothing that gathers annotations;
* an annotation on a result type is an insertion of its own;
* a position within a type has a path into it;
* where a cast is to be inserted, the annotations within its type are withheld.
-/

namespace AnnotationPlan

/-- The class that a part is. -/
def Part.className? : Part → Option String
  | .type name _ => some name
  | _ => none

/-- **A spot that knows where it is.** -/
structure Spot.Fits (className : Option String) (p : Spot) : Prop where
  /-- The criteria name the class. -/
  className?_eq : p.criteria.compose.className? = className
  /-- Outside of classes there are declarations only. -/
  outside : className = none →
    p.form = .single ∧ p.criteria.compose.targetsImplicitConstructor = false
  /-- An annotation on a result type is an insertion of its own. -/
  returnType : p.criteria.compose.isOnReturnType = true → p.form = .single

/-- **A site that knows where it is.** -/
structure Site.Fits (className : Option String) (s : Site) : Prop where
  /-- All its spots do. -/
  spots : ∀ p ∈ s.spots, p.Fits className
  /-- The positions within its type have paths. -/
  within : ∀ p ∈ s.nested, ∃ path, p.criteria.compose.typePath? = some path
  /-- Where a cast is to be inserted, the annotations within its type are withheld. -/
  withholds : s.cast.isSome = true → s.withholds = true

/-- **A place in a class** that is no result type. -/
structure CriteriaList.IsInside (className : String) (place : CriteriaList) : Prop where
  /-- The class is named. -/
  className?_eq : place.compose.className? = some className
  /-- No result type is. -/
  notReturnType : place.compose.isOnReturnType = false

namespace CriteriaList.IsInside

variable {className : String} {place : CriteriaList}

/-- A place stays in its class when it is narrowed. -/
theorem add {c : Criterion} (h : place.IsInside className) (hclass : c.kind ≠ .inClass)
    (hclass' : c.kind ≠ .isClass) (hreturn : c.kind ≠ .returnType) :
    (place.add c).IsInside className :=
  ⟨(className?_add hclass hclass').trans h.className?_eq,
    (isOnReturnType_add hreturn).trans h.notReturnType⟩

/-- A path into a type does not lead out of the class. -/
theorem atLocation (h : place.IsInside className) (path : TypePath) :
    (place.add (.atLocation path)).IsInside className :=
  h.add (by simp [Criterion.kind]) (by simp [Criterion.kind]) (by simp [Criterion.kind])

theorem ordinary {c : Criterion} (h : place.IsInside className) (hc : c.IsOrdinary) :
    (place.add c).IsInside className := by
  refine h.add ?_ ?_ ?_ <;> intro hkind <;> cases c <;> first | exact hc | cases hkind

/-- Every spot at such a place fits. -/
theorem fits {p : Spot} (h : p.criteria.IsInside className) : p.Fits (some className) where
  className?_eq := h.className?_eq
  outside := fun hnone => by cases hnone
  returnType := fun hreturn => by
    rw [h.notReturnType] at hreturn
    cases hreturn

end CriteriaList.IsInside

namespace Site

variable {className : String} {place : CriteriaList}

/-- **A site of a class fits** if the site itself is in the class, the positions within
its type are where the type is, and annotations that may go into a cast are withheld. -/
theorem fits_of_isInside {s : Site} (hsite : s.criteria.IsInside className)
    (hplace : place.IsInside className) {inner : List (TypePath × TypeElement)}
    (hnested : s.nested = positionsWithin place inner)
    (hcast : s.cast.isSome = true → s.withholds = true) : s.Fits (some className) where
  spots := by
    intro p hp
    rcases List.mem_append.mp hp with hp | hp
    · obtain ⟨q, hq, rfl⟩ := List.mem_map.mp hp
      rw [hnested] at hq
      obtain ⟨path, hpath⟩ := exists_path_of_mem_positionsWithin hq
      refine CriteriaList.IsInside.fits ?_
      rw [Spot.within, hpath]
      exact hplace.atLocation path
    · obtain rfl := List.mem_singleton.mp hp
      exact CriteriaList.IsInside.fits hsite
  within := by
    intro p hp
    rw [hnested] at hp
    obtain ⟨path, hpath⟩ := exists_path_of_mem_positionsWithin hp
    exact ⟨path, by rw [hpath, CriteriaList.typePath?_add_atLocation]⟩
  withholds := hcast

/-- The sites at places in a class fit. -/
theorem fitsRule (className : String) :
    SiteRule (CriteriaList.IsInside className) (Site.Fits (some className)) where
  add := fun h hc => h.ordinary hc
  declaration := fun as h =>
    fits_of_isInside h h (rfl : _ = positionsWithin _ []) (fun hcast => by cases hcast)
  type := fun t h => fits_of_isInside (h.atLocation _) h rfl (fun hcast => by cases hcast)
  supertype := fun t h => fits_of_isInside h h rfl (fun hcast => by cases hcast)
  inserted := fun path t h =>
    fits_of_isInside (h.ordinary (by trivial)) (h.ordinary (by trivial)) rfl
      (fun hcast => by cases hcast)
  insertedCast := fun path c h =>
    fits_of_isInside (h.ordinary (by trivial)) (h.ordinary (by trivial)) rfl (fun _ => rfl)

/-! ## Result types -/

/-- The place of the result type of a method. -/
def returnPlace (className method : String) : CriteriaList :=
  ((ClassElement.memberPlace className).add (.inMethod method)).add
    (.returnType className method)

/-- Annotations on a result type and within it are insertions of their own: the place is
neither on a receiver nor on a created object, nor in a syntax tree. -/
theorem classify_returnPlace (className method : String) (path : TypePath) :
    Form.classify ((returnPlace className method).add (.atLocation path)).compose none
      = .single := by
  have hast : ((returnPlace className method).add (.atLocation path)).compose.astPath?
      = none := rfl
  have hreceiver : ((returnPlace className method).add
      (.atLocation path)).compose.targetsReceiver = false := by
    rw [Criteria.targetsReceiver, hast]
    rfl
  have hnew : ((returnPlace className method).add (.atLocation path)).compose.targetsNew
      = false := by
    rw [Criteria.targetsNew, hast]
    rfl
  simp [Form.classify, hreceiver, hnew]

/-- **A result type fits.** -/
theorem fits_returnType (className method : String) (t : TypeElement) :
    (Site.type (returnPlace className method) t).Fits (some className) := by
  have hspot : ∀ p : Spot, p.cast = none →
      (∃ path, p.criteria = (returnPlace className method).add (.atLocation path)) →
      p.Fits (some className) := by
    rintro p hcast ⟨path, hpath⟩
    refine ⟨?_, (fun hnone => by cases hnone), fun _ => ?_⟩
    · rw [hpath]
      rfl
    · rw [Spot.form, hcast, hpath]
      exact classify_returnPlace className method path
  -- the type itself is at the root of its own positions
  refine ⟨fun p hp => ?_, fun p hp => ?_, fun hcast => by cases hcast⟩
  · rcases List.mem_append.mp hp with hp | hp
    · obtain ⟨q, hq, rfl⟩ := List.mem_map.mp hp
      exact hspot _ rfl (exists_path_of_mem_positionsWithin hq)
    · obtain rfl := List.mem_singleton.mp hp
      exact hspot _ rfl ⟨TypePath.root, rfl⟩
  · obtain ⟨path, hpath⟩ := exists_path_of_mem_positionsWithin hp
    exact ⟨path, by rw [hpath, CriteriaList.typePath?_add_atLocation]⟩

/-- The declaration of a package fits. -/
theorem fits_package (name : String) (as : List AnnotationUse) :
    (Site.declaration (CriteriaList.empty.add (.packageDecl name)) as).Fits none := by
  refine ⟨fun p hp => ?_, fun p hp => absurd hp List.not_mem_nil, fun hcast => by cases hcast⟩
  obtain rfl := List.mem_singleton.mp hp
  exact ⟨rfl, fun _ => ⟨rfl, rfl⟩, fun _ => rfl⟩

end Site

/-! ## Casts to be inserted -/

namespace Site

/-- **A site where a cast is to be inserted.** -/
def IsInsertedCast (s : Site) : Prop := ∃ place c, s = Site.insertedCast place c

/-- Only where a cast is to be inserted there is a type to cast to. -/
theorem insertedCastRule :
    SiteRule (fun _ => True) (fun s => s.cast.isSome = true → s.IsInsertedCast) where
  add := fun _ _ => trivial
  declaration := fun _ _ hcast => by cases hcast
  type := fun _ _ hcast => by cases hcast
  supertype := fun _ _ hcast => by cases hcast
  inserted := fun _ _ _ hcast => by cases hcast
  insertedCast := fun _ _ _ _ => ⟨_, _, rfl⟩

end Site

/-- **The sites of a part that are cast** are those where a cast is to be inserted. -/
theorem Part.isInsertedCast (p : Part) :
    ∀ s ∈ p.sites, s.cast.isSome = true → s.IsInsertedCast :=
  Part.forall_sites Site.insertedCastRule (fun _ => trivial) (fun _ => trivial)
    (fun _ => trivial) (fun _ => trivial) (fun _ _ => trivial)
    (fun _ _ _ hcast => by cases hcast) p

/-- **Every site of a part fits.** -/
theorem Part.fits_sites (p : Part) : ∀ s ∈ p.sites, s.Fits p.className? := by
  cases p with
  | nameless className => exact fun s hs => absurd hs List.not_mem_nil
  | package name annotations =>
    exact List.forall_mem_singleton.mpr (Site.fits_package name annotations)
  | type name c =>
    refine ClassElement.forall_sites (Site.fitsRule name) ⟨rfl, rfl⟩ ⟨rfl, rfl⟩ ⟨rfl, rfl⟩ c
      (fun m _ => ?_)
    exact MethodElement.forall_sites (Site.fitsRule name) ⟨rfl, rfl⟩
      (Site.fits_returnType name m.1) m.2

end AnnotationPlan
