import AnnotationPlan.Proofs.Draft.Receiver
import AnnotationPlan.Proofs.Store.Tags
import Mathlib.Algebra.Order.Group.Multiset

/-!
# A census of insertions

A **census** says which insertions there are and how many of them are where – in the output,
or above the constructors – but neither in which order nor what is written in them. That is
enough to tell what working off a spot does to it. What is made there is a matter of the spot
alone, and where it goes depends, for each annotation, on a single bit: whether it stands on
types only. So the census after a spot can be computed from that before it and from these
bits (`Census.visitSpot`).

Two annotations that become insertions of their own can change places without a change of the
census (`Census.single_comm`): what the first of them makes may as well be put where it belongs
after the second one. Annotations that are gathered are another matter. They are in one
insertion, and that is put where the first of them goes (`Census.visitSpot_eq`).
-/

namespace AnnotationPlan

/-! ## What is made at a spot -/

namespace Spot

/-- The tag of an insertion of its own. -/
def tag (p : Spot) : Tag := ("annotation", Draft.singleCriteria p.criteria p.criteria.compose)

/-- The tags of what gathers the annotations. -/
def tags (p : Spot) : List Tag :=
  match p.form with
  | .receiver => [("receiver", p.criteria)]
  | .new => [("new", p.criteria)]
  | .cast _ => [("cast", p.criteria), ("close_parenthesis", p.criteria)]
  | .single => []

/-- **Whether the constructor takes up everything** that is made at a spot on it: a receiver
becomes its receiver, and an annotation on the result is written on its name. -/
def isTakenUp (p : Spot) : Bool := p.isReceiver || p.criteria.compose.isOnReturnType

/-- What gathers the annotations is a receiver, or no part of it is. -/
theorem isReceiver_of_mem_tags (p : Spot) :
    ∀ tag ∈ p.tags, tag.1 = "receiver" ↔ p.isReceiver = true := by
  rw [← form_eq_receiver_iff]
  cases form : p.form <;> simp [tags, form]

/-- An insertion of its own is none, on a spot where there are any. -/
theorem isReceiver_of_single {p : Spot} (hform : p.form = .single) :
    ∀ tag ∈ [p.tag], tag.1 = "receiver" ↔ p.isReceiver = true := by
  refine List.forall_mem_singleton.mpr ?_
  rw [← form_eq_receiver_iff, hform]
  simp [tag]

end Spot

namespace Context

/-- Whether a position is on the constructor that the class does not declare. -/
def onConstructor (ctx : Context) (p : Position) : Bool :=
  !p.criteria.compose.hasTypePath && ctx.writesConstructor
    && p.criteria.compose.targetsImplicitConstructor

/-- For each annotation that is written at a position, whether it stands on types only. -/
def flags (ctx : Context) (p : Position) : List Bool :=
  match ctx.formatter.notes p.criteria p.annotations with
  | .ok notes => notes.map Note.typeOnly
  | .error _ => []

theorem flags_eq {ctx : Context} {p : Position} {notes : List Note}
    (h : ctx.formatter.notes p.criteria p.annotations = .ok notes) :
    ctx.flags p = notes.map Note.typeOnly := by
  rw [flags, h]

end Context

/-- **A census**: what insertions there are and how many of them are where. -/
structure Census where
  /-- The tags of the insertions by number. -/
  tags : List Tag
  /-- The constructor of the class. -/
  constructor : Option InsertionId
  /-- The tags of the insertions in the output, and of those above each constructor. -/
  held : Option InsertionId → Multiset (Option Tag)

namespace Census

variable {ctx : Context} {p : Spot} {t : Census} {made made' : List Tag} {o o' : Option InsertionId}

/-- The census of nothing. -/
def empty : Census := ⟨[], none, fun _ => 0⟩

/-- Insertions are made. -/
def grow (made : List Tag) (t : Census) : Census := { t with tags := t.tags ++ made }

/-- Insertions are put into the output, or above a constructor. -/
def put (o : Option InsertionId) (made : List Tag) (t : Census) : Census :=
  { t with held := fun q => t.held q + if q = o then ↑(made.map some) else 0 }

/-- There is a constructor of the class. -/
def ensure (place : CriteriaList) (t : Census) : Census :=
  match t.constructor with
  | some _ => t
  | none =>
    { (t.grow [("constructor", place)]).put none [("constructor", place)] with
      constructor := some t.tags.length }

/-- There is a constructor of the class if a spot is on it. -/
def ready (ctx : Context) (p : Spot) (t : Census) : Census :=
  if ctx.onConstructor p.toPosition then t.ensure p.criteria else t

/-- Where something goes that is made for an annotation: above the constructor, or into the
output. -/
def goal (ctx : Context) (p : Spot) (typeOnly : Bool) (t : Census) : Option InsertionId :=
  if ctx.onConstructor p.toPosition && !typeOnly then t.constructor else none

/-- **What is made finds its place**, unless the constructor takes it up. -/
def settle (ctx : Context) (p : Spot) (typeOnly : Bool) (made : List Tag) (t : Census) : Census :=
  (t.ready ctx p).put ((t.ready ctx p).goal ctx p typeOnly)
    (if ctx.onConstructor p.toPosition && p.isTakenUp then [] else made)

/-- An annotation becomes an insertion of its own. -/
def single (ctx : Context) (p : Spot) (withhold : Bool) (t : Census) (typeOnly : Bool) : Census :=
  (t.grow [p.tag]).settle ctx p typeOnly (if withhold then [] else [p.tag])

/-- All annotations on a spot are gathered. -/
def gather (ctx : Context) (p : Spot) (needed : Bool) (first : Option Bool) (t : Census) :
    Census :=
  match first with
  | some typeOnly => (t.grow p.tags).settle ctx p typeOnly p.tags
  | none => if needed then (t.grow p.tags).put none p.tags else t

/-- **A spot is worked off.** The second answer are the tags of the insertions of their own. -/
def visitSpot (ctx : Context) (p : Spot) (withhold : Bool) (inner : List Tag) (t : Census) :
    Census × List Tag :=
  match p.form with
  | .single =>
    ((ctx.flags p.toPosition).foldl (single ctx p withhold) t,
      (ctx.flags p.toPosition).map (fun _ => p.tag))
  | form => (t.gather ctx p (form.isCast || !inner.isEmpty) (ctx.flags p.toPosition).head?, [])

/-- The positions within a type are worked off. -/
def visitWithin (ctx : Context) (withhold : Bool) : Census → List Position → Census × List Tag
  | t, [] => (t, [])
  | t, q :: rest =>
    let first := t.visitSpot ctx (.within q) withhold []
    let more := visitWithin ctx withhold first.1 rest
    (more.1, first.2 ++ more.2)

/-- The site itself is worked off. -/
def visitOwn (ctx : Context) (s : Site) (inner : List Tag) (t : Census) : Census :=
  ((if s.withholds && !s.spot.form.isCast then t.put none inner else t).visitSpot ctx s.spot
    false inner).1

/-- **A site is worked off.** -/
def visit (ctx : Context) (t : Census) (s : Site) : Census :=
  (t.visitWithin ctx s.withholds s.nested).1.visitOwn ctx s
    (t.visitWithin ctx s.withholds s.nested).2

/-- Away from the constructor everything goes into the output. -/
theorem settle_of_not_on (h : ctx.onConstructor p.toPosition = false) (typeOnly : Bool)
    (made : List Tag) (t : Census) : t.settle ctx p typeOnly made = t.put none made := by
  simp [settle, ready, goal, h]

/-- On the constructor there is one first, and then it is decided where something goes. -/
theorem settle_of_on (h : ctx.onConstructor p.toPosition = true) (typeOnly : Bool)
    (made : List Tag) (t : Census) :
    t.settle ctx p typeOnly made
      = (t.ensure p.criteria).put
          (if typeOnly then none else (t.ensure p.criteria).constructor)
          (if p.isTakenUp then [] else made) := by
  cases typeOnly <;> simp [settle, ready, goal, h]

/-! ## The order does not matter -/

@[simp] theorem put_nil (o : Option InsertionId) (t : Census) : t.put o [] = t := by
  simp [put]

/-- Insertions are put where they go in either order. -/
theorem put_comm (t : Census) :
    (t.put o made).put o' made' = (t.put o' made').put o made :=
  congrArg (mk t.tags t.constructor) (funext fun _ => add_right_comm _ _ _)

theorem grow_grow (t : Census) : (t.grow made).grow made' = t.grow (made ++ made') :=
  congrArg (fun tags => mk tags t.constructor t.held) (List.append_assoc _ _ _)

theorem grow_put (t : Census) : (t.put o made).grow made' = (t.grow made').put o made := rfl

@[simp] theorem constructor_put (t : Census) : (t.put o made).constructor = t.constructor := rfl

theorem ensure_put (place : CriteriaList) (t : Census) :
    (t.put o made).ensure place = (t.ensure place).put o made := by
  unfold ensure
  rw [constructor_put]
  cases t.constructor with
  | some c => rfl
  | none =>
    exact congrArg (mk _ _) (funext fun _ => add_right_comm _ _ _)

theorem ready_put (t : Census) : (t.put o made).ready ctx p = (t.ready ctx p).put o made := by
  unfold ready
  split
  · exact ensure_put p.criteria t
  · rfl

/-- Where there is a constructor of the class, there is no other one made. -/
theorem ensure_of_constructor {place : CriteriaList} (h : t.constructor ≠ none) :
    t.ensure place = t := by
  unfold ensure
  cases hc : t.constructor with
  | some c => rfl
  | none => exact absurd hc h

theorem constructor_ensure (place : CriteriaList) (t : Census) :
    (t.ensure place).constructor ≠ none := by
  unfold ensure
  cases hc : t.constructor with
  | some c => simp [hc]
  | none => simp

/-- Where something goes is not changed by what is made after the first annotation. -/
theorem goal_ready (made : List Tag) (typeOnly : Bool) (t : Census) :
    (((t.ready ctx p).grow made).ready ctx p).goal ctx p typeOnly
      = (t.ready ctx p).goal ctx p typeOnly := by
  cases hon : ctx.onConstructor p.toPosition with
  | false => simp [goal, hon]
  | true =>
    have hready : t.ready ctx p = t.ensure p.criteria := if_pos hon
    have hsame : ((t.ready ctx p).grow made).ready ctx p = (t.ready ctx p).grow made :=
      (if_pos hon).trans (ensure_of_constructor (hready ▸ constructor_ensure p.criteria t))
    rw [hsame]
    rfl

/-- **Two annotations become insertions of their own** in either order. -/
theorem single_comm (withhold : Bool) (t : Census) (a b : Bool) :
    single ctx p withhold (single ctx p withhold t a) b
      = single ctx p withhold (single ctx p withhold t b) a := by
  let first := (t.grow [p.tag]).ready ctx p
  let second := (first.grow [p.tag]).ready ctx p
  let made := if ctx.onConstructor p.toPosition && p.isTakenUp then []
    else if withhold then [] else [p.tag]
  -- what the first of the two makes may as well be put where it belongs after the second one
  have htwo : ∀ a b, single ctx p withhold (single ctx p withhold t a) b
      = (second.put (first.goal ctx p a) made).put (first.goal ctx p b) made := by
    intro a b
    unfold single settle
    rw [grow_put, ready_put]
    exact congrArg (put · _ _) (goal_ready [p.tag] b (t.grow [p.tag]))
  rw [htwo, htwo, put_comm]

/-- **Gathered annotations go where the first one goes**, but away from the constructor, and
where it takes them up, all that matters is that there is one. -/
theorem gather_eq_of_isSome {first first' : Option Bool} (hsome : first.isSome = first'.isSome)
    (hfirst : ctx.onConstructor p.toPosition = true → p.isTakenUp = false → first = first')
    (needed : Bool) (t : Census) : t.gather ctx p needed first = t.gather ctx p needed first' := by
  cases first with
  | none =>
    cases first' with
    | none => rfl
    | some b => cases hsome
  | some a =>
    cases first' with
    | none => cases hsome
    | some b =>
      show (t.grow p.tags).settle ctx p a p.tags = (t.grow p.tags).settle ctx p b p.tags
      cases hon : ctx.onConstructor p.toPosition with
      | false => rw [settle_of_not_on hon, settle_of_not_on hon]
      | true =>
        cases htaken : p.isTakenUp with
        | true => rw [settle_of_on hon, settle_of_on hon, htaken, if_pos rfl, put_nil, put_nil]
        | false => rw [Option.some.inj (hfirst hon htaken)]

/-- **The order of the annotations on a spot does not matter**, but for which is the first one
where they are gathered for a created object or for a cast on the constructor. -/
theorem visitSpot_eq {p' : Spot} (hcriteria : p'.criteria = p.criteria) (hcast : p'.cast = p.cast)
    (hflags : (ctx.flags p.toPosition).Perm (ctx.flags p'.toPosition))
    (hfirst : p.form = .new ∨ p.form.isCast = true → ctx.OnConstructor p.toPosition →
      (ctx.flags p.toPosition).head? = (ctx.flags p'.toPosition).head?)
    (withhold : Bool) (inner : List Tag) (t : Census) :
    t.visitSpot ctx p' withhold inner = t.visitSpot ctx p withhold inner := by
  have hform : p'.form = p.form := by
    unfold Spot.form
    rw [hcriteria, hcast]
  have hsingle : single ctx p' withhold = single ctx p withhold := by
    obtain ⟨⟨criteria, annotations⟩, cast⟩ := p
    obtain ⟨⟨criteria', annotations'⟩, cast'⟩ := p'
    obtain rfl : criteria' = criteria := hcriteria
    obtain rfl : cast' = cast := hcast
    rfl
  have hgather : ∀ needed first, t.gather ctx p' needed first = t.gather ctx p needed first := by
    obtain ⟨⟨criteria, annotations⟩, cast⟩ := p
    obtain ⟨⟨criteria', annotations'⟩, cast'⟩ := p'
    obtain rfl : criteria' = criteria := hcriteria
    obtain rfl : cast' = cast := hcast
    exact fun _ _ => rfl
  have hsome : (ctx.flags p.toPosition).head?.isSome = (ctx.flags p'.toPosition).head?.isSome := by
    rw [Bool.eq_iff_iff, List.isSome_head?, List.isSome_head?, ne_eq, ne_eq,
      ← List.length_eq_zero_iff, ← List.length_eq_zero_iff, hflags.length_eq]
  have htag : p'.tag = p.tag := by rw [Spot.tag, Spot.tag, hcriteria]
  unfold visitSpot
  rw [hform, hsingle, htag]
  cases form : p.form with
  | single =>
    have : RightCommutative (single ctx p withhold) := ⟨single_comm withhold⟩
    rw [hflags.foldl_eq]
    simp only [List.map_const', hflags.length_eq]
  | receiver =>
    have htaken : p.isTakenUp = true := by
      rw [Spot.isTakenUp, Spot.form_eq_receiver_iff.mp form, Bool.true_or]
    dsimp only
    rw [hgather, gather_eq_of_isSome hsome
      (fun _ hnot => Bool.noConfusion (htaken.symm.trans hnot))]
  | new =>
    dsimp only
    rw [hgather, gather_eq_of_isSome hsome (fun hon _ => hfirst (.inl form) hon)]
  | cast type =>
    dsimp only
    rw [hgather, gather_eq_of_isSome hsome
      (fun hon _ => hfirst (.inr (congrArg Form.isCast form)) hon)]

end Census

end AnnotationPlan
