import AnnotationPlan.Proofs.Scene.CastPlaces

/-!
# What goes into the syntax trees of a class

Annotations and casts are asked for by their paths in a syntax tree: that of a class, of a
field, of a method, or of a parameter of a lambda (`ClassElement.Inserts`). The lambdas are in
the code of the class, and in code there may be more lambdas (`ClassElement.Code`). The layout of
a class goes through all of it. So each cast that is asked for has its site
(`ClassElement.Inserts.site_mem`).

Whether such a place is a receiver or what is created can be seen from the end of its path
(`CriteriaList.targetsReceiver_add_astPath`, `CriteriaList.targetsNew_add_astPath`).
-/

namespace AnnotationPlan

variable {place : CriteriaList} {name method : String}

/-! ## Paths -/

namespace AstPath

/-- **A path to a receiver**: it ends at a parameter with a negative number or none. -/
def EndsAtReceiver (path : AstPath) : Prop :=
  ∃ e ∈ path.last?, e.selector = AstEntry.parameter ∧ ∀ n ∈ e.argument, n < 0

/-- **A path to what is created**: it ends at the type of a new array or the class of a new
object. -/
def EndsAtNew (path : AstPath) : Prop :=
  ∃ e ∈ path.last?,
    (e.kind = TreeKind.newArray ∧ e.selector = AstEntry.type ∧ e.argument = some 0)
      ∨ (e.kind = TreeKind.newClass ∧ e.selector = AstEntry.identifier)

instance (path : AstPath) : Decidable path.EndsAtReceiver :=
  inferInstanceAs (Decidable (∃ e ∈ path.last?, _))

instance (path : AstPath) : Decidable path.EndsAtNew :=
  inferInstanceAs (Decidable (∃ e ∈ path.last?, _))

end AstPath

namespace CriteriaList

theorem targetsReceiver_add_astPath (place : CriteriaList) (path : AstPath) :
    (place.add (.astPath path)).compose.targetsReceiver = true ↔ path.EndsAtReceiver := by
  rw [Criteria.targetsReceiver, astPath?_add_astPath, AstPath.EndsAtReceiver]
  dsimp only
  cases path.last? with
  | none => simp
  | some e => cases hargument : e.argument <;> simp [hargument]

theorem targetsNew_add_astPath (path : AstPath) (h : place.compose.isOnNew = false) :
    (place.add (.astPath path)).compose.targetsNew = true ↔ path.EndsAtNew := by
  have hnew : (place.add (.astPath path)).compose.isOnNew = false :=
    (isOnNew_add (by simp [Criterion.kind])).trans h
  rw [Criteria.targetsNew, astPath?_add_astPath, Option.bind_some, AstPath.EndsAtNew]
  cases path.last? with
  | none => simp [hnew]
  | some e => simp [and_assoc]

end CriteriaList

/-! ## Code and the code in it -/

theorem BlockElement.expressions_sites_subset (b : BlockElement) :
    b.expressions.sites place method ⊆ b.sites place method := by
  obtain ⟨locals, expressions⟩ := b
  exact List.subset_append_right _ _

theorem MethodElement.insertions_sites_subset (m : MethodElement) :
    m.insertions.sites (place.add (.inMethod method)) ⊆ m.sites place name method := by
  intro s hs
  simp only [sites, List.mem_append]
  exact .inl (.inr hs)

theorem MethodElement.body_sites_subset (m : MethodElement) :
    m.body.sites (place.add (.inMethod method)) method ⊆ m.sites place name method :=
  List.subset_append_right _ _

/-- The code of a lambda. -/
theorem MethodElement.body_lambdaSites_subset (m : MethodElement) :
    m.body.sites place method ⊆ m.lambdaSites place method := by
  obtain ⟨_, _, _, _, parameters, _, body⟩ := m
  exact List.subset_append_right _ _

/-- What goes into a parameter of a lambda. -/
theorem MethodElement.parameter_lambdaSites_subset {m : MethodElement} {n : UInt32}
    {v : VariableElement} (hv : (n, v) ∈ m.parameters.entries) :
    v.insertions.sites (place.add (.parameter anonymousMethod n)) ⊆ m.lambdaSites place method := by
  obtain ⟨_, _, _, _, parameters, _, body⟩ := m
  intro s hs
  have hs' : s ∈ v.lambdaSites (place.add (.parameter anonymousMethod n)) :=
    List.mem_cons_of_mem _ hs
  exact List.mem_append_left _ (List.mem_flatMap.mpr ⟨_, hv, hs'⟩)

/-- A lambda in expressions. -/
theorem ExpressionElement.lambda_sites_subset {x : ExpressionElement} {l : RelativeLocation}
    {m : MethodElement} (hm : (l, m) ∈ x.lambdas) :
    m.lambdaSites (place.add (.lambda method l)) method ⊆ x.sites place method := by
  obtain ⟨casts, news, instanceOfs, memberReferences, calls, lambdas⟩ := x
  intro s hs
  have hs' : s ∈ lambdaSites place method lambdas := by
    rw [lambdaSites_eq_flatMap]
    exact List.mem_flatMap.mpr ⟨_, hm, hs⟩
  exact List.mem_append_right _ hs'

/-- A cast that is asked for has its site. -/
theorem AstInsertions.insertedCast_mem_sites {i : AstInsertions} {path : AstPath} {e : CastElement}
    (he : (path, e) ∈ i.casts.entries) :
    Site.insertedCast (place.add (.astPath path)) e ∈ i.sites place :=
  List.mem_append_right _ (List.mem_map.mpr ⟨_, he, rfl⟩)

namespace ClassElement

variable {c : ClassElement} {m : MethodElement} {v : VariableElement} {b : BlockElement}
  {x : ExpressionElement} {i : AstInsertions} {n : UInt32}

/-! ## The members of a class -/

theorem insertions_sites_subset : c.insertions.sites (memberPlace name) ⊆ c.sites name := by
  intro s hs
  simp only [sites, List.mem_append]
  exact .inl (.inl (.inl (.inl (.inl (.inr hs)))))

theorem field_sites_subset {f : String} (hv : (f, v) ∈ c.fields.entries) :
    v.fieldSites (memberPlace name) f ⊆ c.sites name := by
  intro s hs
  simp only [sites, List.mem_append]
  exact .inl (.inl (.inl (.inl (.inr (List.mem_flatMap.mpr ⟨_, hv, hs⟩)))))

theorem method_sites_subset (hm : (method, m) ∈ c.methods.entries) :
    m.sites (memberPlace name) name method ⊆ c.sites name := by
  intro s hs
  simp only [sites, List.mem_append]
  exact .inl (.inl (.inl (.inr (List.mem_flatMap.mpr ⟨_, hm, hs⟩))))

theorem staticInit_sites_subset (hb : (n, b) ∈ c.staticInits.entries) :
    b.sites ((memberPlace name).add (.inStaticInit n))
      ("static init number " ++ n.toNat.repr ++ "()") ⊆ c.sites name := by
  intro s hs
  simp only [sites, List.mem_append]
  exact .inl (.inl (.inr (List.mem_flatMap.mpr ⟨_, hb, hs⟩)))

theorem instanceInit_sites_subset (hb : (n, b) ∈ c.instanceInits.entries) :
    b.sites ((memberPlace name).add (.inInstanceInit n))
      ("instance init number " ++ n.toNat.repr ++ "()") ⊆ c.sites name := by
  intro s hs
  simp only [sites, List.mem_append]
  exact .inl (.inr (List.mem_flatMap.mpr ⟨_, hb, hs⟩))

theorem fieldInit_sites_subset {f : String} (hx : (f, x) ∈ c.fieldInits.entries) :
    x.sites ((memberPlace name).add (.inFieldInit f)) ("init for field " ++ f ++ "()")
      ⊆ c.sites name :=
  fun _ hs => List.mem_append_right _ (List.mem_flatMap.mpr ⟨_, hx, hs⟩)

/-! ## Everything in a class -/

/-- **The code of a class**: expressions, with their place and the method that they are said to
be in. -/
inductive Code (name : String) (c : ClassElement) :
    CriteriaList → String → ExpressionElement → Prop where
  /-- The code of a method. -/
  | method {method : String} {m : MethodElement} (hm : (method, m) ∈ c.methods.entries) :
    Code name c ((memberPlace name).add (.inMethod method)) method m.body.expressions
  /-- An initializer of the class. -/
  | staticInit {n : UInt32} {b : BlockElement} (hb : (n, b) ∈ c.staticInits.entries) :
    Code name c ((memberPlace name).add (.inStaticInit n))
      ("static init number " ++ n.toNat.repr ++ "()") b.expressions
  /-- An initializer of its objects. -/
  | instanceInit {n : UInt32} {b : BlockElement} (hb : (n, b) ∈ c.instanceInits.entries) :
    Code name c ((memberPlace name).add (.inInstanceInit n))
      ("instance init number " ++ n.toNat.repr ++ "()") b.expressions
  /-- The initial value of a field. -/
  | fieldInit {f : String} {x : ExpressionElement} (hx : (f, x) ∈ c.fieldInits.entries) :
    Code name c ((memberPlace name).add (.inFieldInit f)) ("init for field " ++ f ++ "()") x
  /-- The code of a lambda in other code. -/
  | lambda {place : CriteriaList} {method : String} {x : ExpressionElement}
    {l : RelativeLocation} {m : MethodElement} (hx : Code name c place method x)
    (hm : (l, m) ∈ x.lambdas) :
    Code name c (place.add (.lambda method l)) method m.body.expressions

/-- **What goes into the syntax trees of a class**, with the place that it goes to: that of the
class itself, of a field, of a method, or of a parameter of a lambda. -/
inductive Inserts (name : String) (c : ClassElement) : CriteriaList → AstInsertions → Prop where
  /-- Into the class itself. -/
  | own : Inserts name c (memberPlace name) c.insertions
  /-- Into a field. -/
  | field {f : String} {v : VariableElement} (hv : (f, v) ∈ c.fields.entries) :
    Inserts name c ((memberPlace name).add (.field f false)) v.insertions
  /-- Into a method. -/
  | method {method : String} {m : MethodElement} (hm : (method, m) ∈ c.methods.entries) :
    Inserts name c ((memberPlace name).add (.inMethod method)) m.insertions
  /-- Into a parameter of a lambda. -/
  | lambdaParameter {place : CriteriaList} {method : String} {x : ExpressionElement}
    {l : RelativeLocation} {m : MethodElement} {n : UInt32} {v : VariableElement}
    (hx : Code name c place method x) (hm : (l, m) ∈ x.lambdas)
    (hv : (n, v) ∈ m.parameters.entries) :
    Inserts name c ((place.add (.lambda method l)).add (.parameter anonymousMethod n)) v.insertions

/-- The layout of a class goes through all of its code. -/
theorem Code.sites_subset (h : c.Code name place method x) :
    x.sites place method ⊆ c.sites name := by
  induction h with
  | method hm =>
    exact fun s hs => method_sites_subset hm
      (MethodElement.body_sites_subset _ (BlockElement.expressions_sites_subset _ hs))
  | staticInit hb =>
    exact fun s hs => staticInit_sites_subset hb (BlockElement.expressions_sites_subset _ hs)
  | instanceInit hb =>
    exact fun s hs => instanceInit_sites_subset hb (BlockElement.expressions_sites_subset _ hs)
  | fieldInit hx => exact fieldInit_sites_subset hx
  | lambda hx hm ih =>
    intro s hs
    have hbody := MethodElement.body_lambdaSites_subset _
      (BlockElement.expressions_sites_subset _ hs)
    exact ih (ExpressionElement.lambda_sites_subset hm hbody)

/-- The layout of a class goes through all that goes into its syntax trees. -/
theorem Inserts.sites_subset (h : c.Inserts name place i) : i.sites place ⊆ c.sites name := by
  intro s hs
  cases h with
  | own => exact insertions_sites_subset hs
  | field hv => exact field_sites_subset hv (List.mem_cons_of_mem _ (List.mem_cons_of_mem _ hs))
  | method hm => exact method_sites_subset hm (MethodElement.insertions_sites_subset _ hs)
  | lambdaParameter hx hm hv =>
    exact hx.sites_subset (ExpressionElement.lambda_sites_subset hm
      (MethodElement.parameter_lambdaSites_subset hv hs))

/-- Code is not itself in the creation of an object. -/
theorem Code.isOnNew_eq_false (h : c.Code name place method x) :
    place.compose.isOnNew = false := by
  induction h with
  | lambda hx hm ih => exact (CriteriaList.isOnNew_add (by simp [Criterion.kind])).trans ih
  | _ => rfl

theorem Inserts.isOnNew_eq_false (h : c.Inserts name place i) :
    place.compose.isOnNew = false := by
  cases h with
  | lambdaParameter hx hm hv =>
    rw [CriteriaList.isOnNew_add (by simp [Criterion.kind]),
      CriteriaList.isOnNew_add (by simp [Criterion.kind]), hx.isOnNew_eq_false]
  | _ => rfl

/-- **Each cast that is asked for has its site.** -/
theorem Inserts.site_mem (h : c.Inserts name place i) {path : AstPath} {e : CastElement}
    (he : (path, e) ∈ i.casts.entries) :
    Site.insertedCast (place.add (.astPath path)) e ∈ c.sites name :=
  h.sites_subset (AstInsertions.insertedCast_mem_sites he)

end ClassElement

end AnnotationPlan
