import AnnotationPlan.Proofs.Scene.Places

/-!
# What the criteria of a spot tell

The place of a spot is narrowed on the way down to its site, and once more by the path
into the type. What both keep holds of every spot (`SiteRule.spots`), and three facts about
the criteria of spots are of this sort:

* a further type of an intersection is never named: that criterion is added to single
  insertions only, and so it can be told from the criteria of their spots;
* where a cast is to be inserted the place has a path in the syntax tree, and it is the
  whole of a type;
* the method that a spot is in is the one that its site was laid out for
  (`ClassElement.exists_method`).
-/

namespace AnnotationPlan

/-- Criteria that only narrow a place further do not say where in a type it is. -/
theorem Criterion.IsOrdinary.kind_ne_atLocation {c : Criterion} (h : c.IsOrdinary) :
    c.kind ≠ .atLocation := by
  intro hkind
  cases c <;> first | exact h | cases hkind

/-- They do not say which method it is in. -/
theorem Criterion.IsOrdinary.kind_ne_inMethod {c : Criterion} (h : c.IsOrdinary) :
    c.kind ≠ .inMethod := by
  intro hkind
  cases c <;> first | exact h | cases hkind

/-- **The spots of a site** are of one sort if the site is, and the type that it has. -/
theorem Site.forall_spots {P : CriteriaList → Prop} {s : Site} {place : CriteriaList}
    {inner : List (TypePath × TypeElement)}
    (hat : ∀ {place} path, P place → P (place.add (.atLocation path)))
    (hsite : P s.criteria) (hplace : P place) (hnested : s.nested = positionsWithin place inner) :
    ∀ p ∈ s.spots, P p.criteria := by
  intro p hp
  rcases List.mem_append.mp hp with hp | hp
  · obtain ⟨q, hq, rfl⟩ := List.mem_map.mp hp
    rw [hnested] at hq
    obtain ⟨path, hpath⟩ := exists_path_of_mem_positionsWithin hq
    rw [Spot.within, hpath]
    exact hat path hplace
  · obtain rfl := List.mem_singleton.mp hp
    exact hsite

namespace SiteRule

variable {P : CriteriaList → Prop} {Q Q' : Site → Prop}

/-- A fact about sites may be weakened. -/
theorem mono (rule : SiteRule P Q) (h : ∀ s, Q s → Q' s) : SiteRule P Q' where
  add := rule.add
  declaration := fun as hplace => h _ (rule.declaration as hplace)
  type := fun t hplace => h _ (rule.type t hplace)
  supertype := fun t hplace => h _ (rule.supertype t hplace)
  inserted := fun path t hplace => h _ (rule.inserted path t hplace)
  insertedCast := fun path c hplace => h _ (rule.insertedCast path c hplace)

/-- **What narrowing a place keeps, holds of all spots.** -/
theorem spots (hadd : ∀ {place c}, P place → c.IsOrdinary → P (place.add c))
    (hat : ∀ {place} path, P place → P (place.add (.atLocation path))) :
    SiteRule P (fun s => ∀ p ∈ s.spots, P p.criteria) where
  add := hadd
  declaration := fun _ h => Site.forall_spots hat h h (rfl : _ = Site.positionsWithin _ [])
  type := fun _ h => Site.forall_spots hat (hat _ h) h rfl
  supertype := fun _ h => Site.forall_spots hat h h rfl
  inserted := fun _ _ h =>
    Site.forall_spots hat (hadd h (by trivial)) (hadd h (by trivial)) rfl
  insertedCast := fun _ _ h =>
    Site.forall_spots hat (hadd h (by trivial)) (hadd h (by trivial)) rfl

end SiteRule

/-! ## Intersections -/

/-- **A place that names no further type of an intersection.** -/
def CriteriaList.NamesNoFurtherType (place : CriteriaList) : Prop :=
  ∀ location, Criterion.intersectionType location ∉ place.toList

theorem CriteriaList.NamesNoFurtherType.add {place : CriteriaList} {c : Criterion}
    (h : place.NamesNoFurtherType) (hc : c.kind ≠ .intersectionType) :
    (place.add c).NamesNoFurtherType := by
  intro location hmem
  rw [toList_add] at hmem
  rcases List.mem_append.mp hmem with hmem | hmem
  · exact h location hmem
  · obtain rfl := List.mem_singleton.mp hmem
    exact hc rfl

/-- The spots at places that name no further type name none. -/
theorem Spot.furtherTypeRule : SiteRule CriteriaList.NamesNoFurtherType
    (fun s => ∀ p ∈ s.spots, p.criteria.NamesNoFurtherType) :=
  SiteRule.spots
    (fun {_ c} h hc => h.add (by intro hkind; cases c <;> first | exact hc | cases hkind))
    (fun _ h => h.add (by simp [Criterion.kind]))

/-- **No spot of a part names a further type of an intersection.** -/
theorem Part.namesNoFurtherType (p : Part) :
    ∀ s ∈ p.sites, ∀ q ∈ s.spots, q.criteria.NamesNoFurtherType := by
  have hempty : CriteriaList.empty.NamesNoFurtherType := fun _ => List.not_mem_nil
  have hexact : ∀ name, (CriteriaList.empty.add (.inClass name true)).NamesNoFurtherType :=
    fun _ => hempty.add (by simp [Criterion.kind])
  have hplace : ∀ name, (ClassElement.memberPlace name).NamesNoFurtherType :=
    fun name => (hexact name).add (by simp [Criterion.kind])
  have hmethod : ∀ name method,
      ((ClassElement.memberPlace name).add (.inMethod method)).NamesNoFurtherType :=
    fun name _ => (hplace name).add (by simp [Criterion.kind])
  refine Part.forall_sites Spot.furtherTypeRule (fun _ => hempty.add (by simp [Criterion.kind]))
    (fun _ => hempty.add (by simp [Criterion.kind])) hexact hplace hmethod
    (fun name method t => Spot.furtherTypeRule.type t ?_) p
  exact (hmethod name method).add (by simp [Criterion.kind])

/-! ## Casts -/

/-- **A place for a cast**: the whole of a type, at a place in a syntax tree. -/
structure CriteriaList.IsCastPlace (place : CriteriaList) : Prop where
  /-- It is not within a type. -/
  typePath?_eq : place.compose.typePath? = none
  /-- It has a path in a syntax tree. -/
  astPath?_isSome : place.compose.astPath?.isSome = true

/-- Casts go to such places only. -/
theorem Site.castRule : SiteRule (fun place => place.compose.typePath? = none)
    (fun s => ∀ p ∈ s.spots, p.cast.isSome = true → p.criteria.IsCastPlace) := by
  have hnone : ∀ s : Site, s.cast = none → ∀ p ∈ s.spots, p.cast.isSome = true →
      p.criteria.IsCastPlace := by
    intro s hs p hp hcast
    rcases List.mem_append.mp hp with hp | hp
    · obtain ⟨q, -, rfl⟩ := List.mem_map.mp hp
      cases hcast
    · obtain rfl := List.mem_singleton.mp hp
      rw [show s.spot.cast = none from hs] at hcast
      cases hcast
  refine
    { add := fun h hc => (CriteriaList.typePath?_add hc.kind_ne_atLocation).trans h
      declaration := fun as _ => hnone _ rfl
      type := fun t _ => hnone _ rfl
      supertype := fun t _ => hnone _ rfl
      inserted := fun path t _ => hnone _ rfl
      insertedCast := fun {place} path c h p hp hcast => ?_ }
  rcases List.mem_append.mp hp with hp | hp
  · obtain ⟨q, -, rfl⟩ := List.mem_map.mp hp
    cases hcast
  · obtain rfl := List.mem_singleton.mp hp
    refine ⟨(CriteriaList.typePath?_add (by simp [Criterion.kind])).trans h, ?_⟩
    show (place.add (.astPath path)).compose.astPath?.isSome = true
    rw [CriteriaList.astPath?_add_astPath]
    rfl

/-- **Where a cast is to be inserted in a part**, there is a place for it. -/
theorem Part.isCastPlace (p : Part) :
    ∀ s ∈ p.sites, ∀ q ∈ s.spots, q.cast.isSome = true → q.criteria.IsCastPlace :=
  Part.forall_sites Site.castRule (fun _ => rfl) (fun _ => rfl) (fun _ => rfl) (fun _ => rfl)
    (fun _ _ => rfl) (fun _ _ t => Site.castRule.type t rfl) p

/-! ## Methods -/

/-- The spots at places in a method, or in none, are in the same one. -/
theorem Spot.methodRule (method : Option String) :
    SiteRule (fun place => place.compose.method? = method)
      (fun s => ∀ p ∈ s.spots, p.criteria.compose.method? = method) :=
  SiteRule.spots (fun h hc => (CriteriaList.method?_add hc.kind_ne_inMethod).trans h)
    (fun _ h => (CriteriaList.method?_add (by simp [Criterion.kind])).trans h)

/-- **The spots of a method** are in it. -/
theorem MethodElement.method?_spots {className name : String} (m : MethodElement) :
    ∀ s ∈ m.sites (ClassElement.memberPlace className) className name, ∀ p ∈ s.spots,
      p.criteria.compose.method? = some name :=
  MethodElement.forall_sites (Spot.methodRule (some name)) rfl
    (fun t => (Spot.methodRule (some name)).type t rfl) m

namespace ClassElement

variable {name method : String} {c : ClassElement} {s : Site}

/-- The sites of a method are sites of its class. -/
theorem mem_sites_of_method {m : MethodElement} (hm : (method, m) ∈ c.methods.entries)
    (hs : s ∈ m.sites (memberPlace name) name method) : s ∈ c.sites name := by
  simp only [sites, List.mem_append, List.mem_flatMap]
  exact Or.inl (Or.inl (Or.inl (Or.inr ⟨_, hm, hs⟩)))

/-- **A site of a class with a spot in a method** is a site of this method. -/
theorem exists_method (hs : s ∈ c.sites name) {p : Spot} (hp : p ∈ s.spots)
    (hmethod : p.criteria.compose.method? = some method) :
    ∃ m, (method, m) ∈ c.methods.entries ∧ s ∈ m.sites (memberPlace name) name method := by
  have hsplit : (∀ q ∈ s.spots, q.criteria.compose.method? = none)
      ∨ ∃ m ∈ c.methods.entries, s ∈ m.2.sites (memberPlace name) name m.1 :=
    forall_sites (Q := fun s => (∀ q ∈ s.spots, q.criteria.compose.method? = none)
        ∨ ∃ m ∈ c.methods.entries, s ∈ m.2.sites (memberPlace name) name m.1)
      ((Spot.methodRule none).mono (fun _ h => Or.inl h)) rfl rfl rfl c
      (fun m hm t ht => Or.inr ⟨m, hm, ht⟩) s hs
  rcases hsplit with hnone | ⟨⟨key, m⟩, hm, hs⟩
  · cases (hnone p hp).symm.trans hmethod
  · obtain rfl : key = method := Option.some.inj ((m.method?_spots s hs p hp).symm.trans hmethod)
    exact ⟨m, hm, hs⟩

end ClassElement

end AnnotationPlan
