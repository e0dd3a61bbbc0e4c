import AnnotationPlan.Proofs.Scene.Places
import AnnotationPlan.Proofs.Store.Casts
import AnnotationPlan.Proofs.Store.Pairs

/-!
# Working off a spot in steps

While a spot is worked off, an insertion that was just made is nowhere yet: it may be
put into the output, go to the constructor of the class, or be written into a cast.
Until that is decided it is **in hand**. `Work` is a draft together with the insertions
in hand, and a note of which annotations were written into which casts; the program
keeps neither, but with them there is no moment at which an insertion is unaccounted
for.

`Step` lists everything that can happen at a spot, one small change after another and
each with the circumstances in which it happens. Whatever every step keeps is kept by a
whole run, so this list is what all invariants of drafts are proved by. The first of
them is `Draft.Sound`: the output and the constructor of the class are in the store,
and the store is wired.
-/

namespace AnnotationPlan

/-- **Work in progress.** -/
structure Work where
  /-- The draft. -/
  draft : Draft
  /-- The insertions in hand, in the order in which they were made. -/
  hand : List InsertionId
  /-- The annotations that were written into casts, each with its cast. -/
  written : List (InsertionId × InsertionId)

/-- A note of a spot: one of its annotations as it will be written. -/
def Context.HasNote (ctx : Context) (p : Position) (n : Note) : Prop :=
  ∃ notes, ctx.formatter.notes p.criteria p.annotations = .ok notes ∧ n ∈ notes

/-- **A spot on the constructor that the class does not declare**, for a class for which
one is written. -/
def Context.OnConstructor (ctx : Context) (p : Position) : Prop :=
  (!p.criteria.compose.hasTypePath && ctx.writesConstructor
    && p.criteria.compose.targetsImplicitConstructor) = true

theorem Context.onConstructor_iff {ctx : Context} {p : Position} :
    ctx.OnConstructor p ↔ p.criteria.compose.hasTypePath = false ∧ ctx.writesConstructor = true
      ∧ p.criteria.compose.targetsImplicitConstructor = true := by
  simp [Context.OnConstructor, and_assoc]

/-- A spot on the constructor is in a class. -/
theorem Spot.Fits.className_ne_none {ctx : Context} {p : Spot} {className : Option String}
    (hp : p.Fits className) (h : ctx.OnConstructor p.toPosition) : className ≠ none := by
  intro hname
  have himplicit := (Context.onConstructor_iff.mp h).2.2
  rw [(hp.outside hname).2] at himplicit
  cases himplicit

/-- The insertion of its own for a note of a position. -/
def Position.insertion (p : Position) (n : Note) : Insertion :=
  .single n.text (Draft.singleCriteria p.criteria p.criteria.compose) (!n.typeOnly)

/-- **An insertion of its own is where its position is**, but for the further types of an
intersection that is cast to. -/
theorem Position.get?_insertion (p : Position) (n : Note) {k : CriterionKind}
    (hk : k ≠ .intersectionType) :
    (p.insertion n).criteria.compose.get? k = p.criteria.compose.get? k := by
  show (Draft.singleCriteria p.criteria p.criteria.compose).compose.get? k = _
  unfold Draft.singleCriteria
  split
  · split
    · rfl
    · rw [CriteriaList.get?_compose_add]
      exact if_neg hk
  · rfl

@[simp] theorem Position.className?_insertion (p : Position) (n : Note) :
    (p.insertion n).className? = p.criteria.compose.className? := by
  simp [Insertion.className?, Criteria.className?, get?_insertion]

@[simp] theorem Position.typePath?_insertion (p : Position) (n : Note) :
    (p.insertion n).criteria.compose.typePath? = p.criteria.compose.typePath? := by
  simp [Criteria.typePath?, get?_insertion]

@[simp] theorem Position.hasTypePath_insertion (p : Position) (n : Note) :
    (p.insertion n).criteria.compose.hasTypePath = p.criteria.compose.hasTypePath := by
  simp [Criteria.hasTypePath]

@[simp] theorem Position.isOnReturnType_insertion (p : Position) (n : Note) :
    (p.insertion n).criteria.compose.isOnReturnType = p.criteria.compose.isOnReturnType := by
  simp [Criteria.isOnReturnType, get?_insertion]

@[simp] theorem Position.targetsImplicitConstructor_insertion (p : Position) (n : Note) :
    (p.insertion n).criteria.compose.targetsImplicitConstructor
      = p.criteria.compose.targetsImplicitConstructor := by
  simp [Criteria.targetsImplicitConstructor, Criteria.method?, get?_insertion]

open Insertion in
/-- **A step at a spot.** Insertions made at the spot have numbers from `base` on. -/
inductive Step (ctx : Context) (p : Spot) (base : Nat) : Work → Work → Prop
  /-- An annotation becomes an insertion of its own. -/
  | single {d hand written} (n : Note) (form : p.form = .single)
      (note : ctx.HasNote p.toPosition n) :
    Step ctx p base ⟨d, hand, written⟩
      ⟨({ d with store := d.store.push (p.insertion n) } : Draft).record d.store.size n,
        hand ++ [d.store.size], written⟩
  /-- A receiver is made. -/
  | receiver {d hand written} (text : Option String) (inner : List InsertionId)
      (form : p.form = .receiver) (within : ∀ j ∈ inner, d.store.Has IsWithin j) :
    Step ctx p base ⟨d, hand, written⟩
      ⟨{ d with store := d.store.pushReceiver text p.criteria inner },
        hand ++ [d.store.size], written⟩
  /-- The type of a created object is made. -/
  | new {d hand written} (text : Option String) (inner : List InsertionId)
      (form : p.form = .new) (within : ∀ j ∈ inner, d.store.Has IsWithin j) :
    Step ctx p base ⟨d, hand, written⟩
      ⟨{ d with store := d.store.pushNew text p.criteria inner },
        hand ++ [d.store.size], written⟩
  /-- A cast is made, and what was in hand is written into it. -/
  | cast {d hand inner written store} (type : JavaType) (text : Option String)
      (form : p.form = .cast type) (within : ∀ j ∈ inner, d.store.Has IsWithin j)
      (made : d.store.pushCast type text inner p.criteria = .ok store) :
    Step ctx p base ⟨d, hand ++ inner, written⟩
      ⟨{ d with store }, hand ++ [d.store.size, d.store.size + 1],
        written ++ inner.map (fun j => (j, d.store.size))⟩
  /-- It is recorded where an insertion comes from. -/
  | record {d hand written} (id : InsertionId) (n : Note) (known : id < d.store.size) :
    Step ctx p base ⟨d, hand, written⟩ ⟨d.record id n, hand, written⟩
  /-- The constructor of the class is made. -/
  | construct {d hand written store} (n : Note) (note : ctx.HasNote p.toPosition n)
      (on : ctx.OnConstructor p.toPosition) (none : d.constructor = none)
      (made : d.store.pushConstructor p.criteria = .ok store) :
    Step ctx p base ⟨d, hand, written⟩
      ⟨({ d with store, constructor := some d.store.size } : Draft).place [d.store.size],
        hand, written⟩
  /-- Insertions are put into the output, casts together with their parentheses. -/
  | place {d hand written} (ids : List InsertionId) (paired : d.store.Paired ids) :
    Step ctx p base ⟨d, hand ++ ids, written⟩ ⟨d.place ids, hand, written⟩
  /-- An annotation on the result is written on the name of the constructor. -/
  | fold {d hand written store c id} (n : Note)
      (note : ctx.HasNote p.toPosition n) (on : ctx.OnConstructor p.toPosition)
      (result : p.criteria.compose.isOnReturnType = true)
      (single : d.store.get? id = some (p.insertion n)) (constructor : d.constructor = some c)
      (made : d.store.addTypeAnnotation c n.text = .ok store) :
    Step ctx p base ⟨d, hand ++ [id], written⟩ ⟨{ d with store }, hand, written⟩
  /-- Insertions go above the constructor, casts together with their parentheses. -/
  | declare {d hand written store c} (n : Note) (ids : List InsertionId)
      (note : ctx.HasNote p.toPosition n) (on : ctx.OnConstructor p.toPosition)
      (declaration : n.typeOnly = false)
      (kind : ∀ id ∈ ids, d.store.Has
        (fun i => i.IsDeclarable ∧ i.className? = p.criteria.compose.className?) id)
      (paired : d.store.Paired ids) (constructor : d.constructor = some c)
      (made : ids.foldlM (fun s j => s.attachDeclaration c j) d.store = .ok store) :
    Step ctx p base ⟨d, hand ++ ids, written⟩ ⟨{ d with store }, hand, written⟩
  /-- A receiver goes to the constructor. -/
  | receive {d d' hand written c id} (on : ctx.OnConstructor p.toPosition)
      (form : p.form = .receiver)
      (kind : d.store.Has (fun i => i.IsReceiver ∧ i.criteria = p.criteria) id)
      (constructor : d.constructor = some c) (made : d.absorbReceiver c id = .ok d') :
    Step ctx p base ⟨d, hand ++ [id], written⟩ ⟨d', hand, written⟩
  /-- A further annotation goes to an insertion that gathers them. -/
  | annotate {d d' hand written id} (n : Note) (note : ctx.HasNote p.toPosition n)
      (new : base ≤ id) (kind : d.store.Has (fun i => ¬ i.IsConstructor) id)
      (made : Draft.addNote id d n = .ok d') :
    Step ctx p base ⟨d, hand, written⟩ ⟨d', hand, written⟩

/-- **The steps at a spot.** -/
abbrev Steps (ctx : Context) (p : Spot) (base : Nat) : Work → Work → Prop :=
  Relation.ReflTransGen (Step ctx p base)

/-- **The steps at the spots of a site.** -/
abbrev SiteSteps (ctx : Context) (s : Site) (base : Nat) : Work → Work → Prop :=
  Relation.ReflTransGen (fun w w' => ∃ p ∈ s.spots, Step ctx p base w w')

/-- What is new from one number on is new from every lower number on. -/
theorem Step.of_le {ctx : Context} {p : Spot} {base base' : Nat} {w w' : Work}
    (h : Step ctx p base w w') (hle : base' ≤ base) : Step ctx p base' w w' := by
  cases h with
  | single n form note => exact .single n form note
  | receiver text inner form within => exact .receiver text inner form within
  | new text inner form within => exact .new text inner form within
  | cast type text form within made => exact .cast type text form within made
  | record id n known => exact .record id n known
  | construct n note on none made => exact .construct n note on none made
  | place ids paired => exact .place ids paired
  | fold n note on result single constructor made =>
    exact .fold n note on result single constructor made
  | declare n ids note on declaration kind paired constructor made =>
    exact .declare n ids note on declaration kind paired constructor made
  | receive on form kind constructor made => exact .receive on form kind constructor made
  | annotate n note new kind made => exact .annotate n note (Nat.le_trans hle new) kind made

/-- The steps at one spot are steps at the site. -/
theorem Steps.site {ctx : Context} {s : Site} {p : Spot} {base base' : Nat} {w w' : Work}
    (h : Steps ctx p base w w') (hp : p ∈ s.spots) (hle : base' ≤ base) :
    SiteSteps ctx s base' w w' :=
  Relation.ReflTransGen.mono (fun _ _ hstep => ⟨p, hp, hstep.of_le hle⟩) w w' h

/-- **What every step keeps, all steps at a site keep.** -/
theorem SiteSteps.keep {ctx : Context} {s : Site} {base : Nat} {I : Work → Prop}
    (hstep : ∀ p ∈ s.spots, ∀ w w', Step ctx p base w w' → I w → I w') {w w' : Work}
    (h : SiteSteps ctx s base w w') (hw : I w) : I w' := by
  induction h with
  | refl => exact hw
  | tail _ hlast ih =>
    obtain ⟨p, hp, hlast⟩ := hlast
    exact hstep p hp _ _ hlast ih

namespace Draft

variable {d d' : Draft} {c id : InsertionId} {n : Note}

/-- **What absorbing a receiver does**, apart from what it records. -/
theorem absorbReceiver_spec (h : d.absorbReceiver c id = .ok d') :
    (∃ kept, d.store.attachReceiver c id = .ok (d'.store, kept))
    ∧ d'.placed = d.placed ∧ d'.constructor = d.constructor := by
  rw [absorbReceiver, bind_eq_ok] at h
  obtain ⟨⟨store, kept⟩, hattach, h⟩ := h
  dsimp only at h
  split at h <;> cases h <;> exact ⟨⟨kept, hattach⟩, rfl, rfl⟩

/-- **What adding a note does**, apart from what it records. -/
theorem addNote_spec (h : addNote id d n = .ok d') :
    d.store.addTypeAnnotation id n.text = .ok d'.store
    ∧ d'.placed = d.placed ∧ d'.constructor = d.constructor := by
  rw [addNote, bind_eq_ok] at h
  obtain ⟨store, hstore, h⟩ := h
  cases h
  exact ⟨hstore, rfl, rfl⟩

/-- **A sound draft**: what is in the output is in the store, the store is wired, and the
constructor of the class is one, and of this class. Outside of classes it is still that of
the last class. -/
structure Sound (className : Option String) (d : Draft) : Prop where
  /-- The output is in the store. -/
  placed_lt : ∀ id ∈ d.placed, id < d.store.size
  /-- The store is wired. -/
  wired : d.store.Wired
  /-- The constructor of the class is one. -/
  constructor_has : ∀ c, d.constructor = some c →
    d.store.Has (fun i => i.IsConstructor ∧ (className ≠ none → i.className? = className)) c

/-- **The constructor of the class**, and that it is of this class. -/
theorem Sound.get?_constructor {className : Option String} (h : d.Sound className)
    (hc : d.constructor = some c) :
    ∃ criteria type receiver declarations,
      d.store.get? c = some (.constructor criteria type receiver declarations)
      ∧ (className ≠ none → criteria.compose.className? = className) := by
  obtain ⟨i, hi, hkind, hname⟩ := h.constructor_has c hc
  cases i with
  | constructor criteria type receiver declarations =>
    exact ⟨criteria, type, receiver, declarations, hi, hname⟩
  | _ => exact hkind.elim

/-- **What declaring insertions above the constructor does**: they are put behind those
that are there. -/
theorem Sound.declare_spec {className : Option String} (h : d.Sound className)
    (hc : d.constructor = some c) {ids : List InsertionId} {store : Store}
    (made : ids.foldlM (fun s j => s.attachDeclaration c j) d.store = .ok store) :
    ∃ criteria type receiver declarations,
      d.store.get? c = some (.constructor criteria type receiver declarations)
      ∧ (className ≠ none → criteria.compose.className? = className)
      ∧ store = d.store.modify c
          (fun _ => .constructor criteria type receiver (declarations ++ ids)) := by
  obtain ⟨criteria, type, receiver, declarations, hget, hname⟩ := h.get?_constructor hc
  rw [Store.attachDeclarations_eq ids hget] at made
  exact ⟨criteria, type, receiver, declarations, hget, hname, (Except.ok.inj made).symm⟩

/-- A draft stays sound if its store grows and stays wired, and nothing else changes. -/
theorem Sound.of_grows {className : Option String} (h : d.Sound className)
    (hgrows : d.store.Grows d'.store) (hwired : d'.store.Wired) (hplaced : d'.placed = d.placed)
    (hconstructor : d'.constructor = d.constructor) : d'.Sound className where
  placed_lt := fun id hid =>
    Nat.lt_of_lt_of_le (h.placed_lt id (hplaced ▸ hid)) hgrows.size_le
  wired := hwired
  constructor_has := fun c hc => (h.constructor_has c (hconstructor ▸ hc)).grows hgrows
    (fun _ _ hg hi => ⟨hg.isConstructor hi.1, fun h => hg.className?_eq.trans (hi.2 h)⟩)

theorem sound_empty (className : Option String) : Draft.empty.Sound className :=
  ⟨fun _ hid => absurd hid List.not_mem_nil, Store.wired_empty, fun _ hc => by cases hc⟩

end Draft

namespace Step

variable {ctx : Context} {p : Spot} {base : Nat} {className : Option String} {w w' : Work}

/-- **Every step lets the store grow.** -/
theorem grows (h : Step ctx p base w w') (hd : w.draft.Sound className) :
    w.draft.store.Grows w'.draft.store := by
  cases h with
  | single n form note => exact Store.grows_push _ _
  | receiver text inner form within => exact Store.grows_push _ _
  | new text inner form within => exact Store.grows_push _ _
  | cast type text form within made => exact Store.grows_pushCast made
  | record id n known => exact .refl _
  | construct n note on none made => exact Store.grows_pushConstructor made
  | place ids paired => exact .refl _
  | fold n note on result single constructor made => exact Store.grows_addTypeAnnotation made
  | declare n ids note on declaration kind paired constructor made =>
    obtain ⟨criteria, type, receiver, declarations, hc, -, rfl⟩ := hd.declare_spec constructor made
    exact Store.grows_declarations hc ids
  | receive on form kind constructor made =>
    obtain ⟨⟨kept, hattach⟩, -, -⟩ := Draft.absorbReceiver_spec made
    exact Store.grows_attachReceiver hattach
  | annotate n note new kind made =>
    exact Store.grows_addTypeAnnotation (Draft.addNote_spec made).1

/-- **Every step at a spot that knows where it is keeps a draft sound.** -/
theorem sound (h : Step ctx p base w w') (hp : p.Fits className)
    (hd : w.draft.Sound className) : w'.draft.Sound className := by
  have hgrows := h.grows hd
  cases h with
  | single n form note =>
    exact hd.of_grows hgrows (hd.wired.push (i := p.insertion n) trivial) rfl rfl
  | receiver text inner form within =>
    refine hd.of_grows hgrows (hd.wired.push (i := .receiver p.criteria _ inner) ⟨?_, ?_⟩) rfl rfl
    · cases hname : className with
      | none =>
        rw [(hp.outside hname).1] at form
        cases form
      | some name =>
        rw [Criteria.isInClass, hp.className?_eq, hname]
        rfl
    · exact fun j hj => (within j hj).imp (fun _ h => ⟨h.1, h.2.1⟩)
  | new text inner form within =>
    exact hd.of_grows hgrows (hd.wired.push (i := .new p.criteria _ inner)
      (fun j hj => (within j hj).imp (fun _ h => ⟨h.1, h.2.1⟩))) rfl rfl
  | cast type text form within made =>
    exact hd.of_grows hgrows (hd.wired.pushCast made) rfl rfl
  | record id n known => exact hd.of_grows hgrows hd.wired rfl rfl
  | construct n note on none made =>
    have hwired := hd.wired.pushConstructor made
    obtain ⟨name, -, rfl⟩ := Store.pushConstructor_eq_ok.mp made
    refine ⟨fun id hid => ?_, hwired, fun c hc => ?_⟩
    · rcases List.mem_cons.mp hid with rfl | hid
      · exact Nat.lt_of_lt_of_eq (Nat.lt_succ_self _) (Store.size_push _ _).symm
      · exact Nat.lt_of_lt_of_le (hd.placed_lt id hid) hgrows.size_le
    · obtain rfl := Option.some.inj hc
      exact ⟨_, Store.get?_push_size _ _, trivial, fun _ => hp.className?_eq⟩
  | place ids paired =>
    refine ⟨fun id hid => ?_, hd.wired, hd.constructor_has⟩
    rcases List.mem_append.mp hid with hid | hid
    · exact paired.lt_size id (List.mem_reverse.mp hid)
    · exact hd.placed_lt id hid
  | fold n note on result single constructor made =>
    exact hd.of_grows hgrows (hd.wired.addTypeAnnotation made) rfl rfl
  | declare n ids note on declaration kind paired constructor made =>
    obtain ⟨criteria, type, receiver, declarations, hc, hname, rfl⟩ :=
      hd.declare_spec constructor made
    refine hd.of_grows hgrows (hd.wired.declarations hc (fun j hj => ?_)) rfl rfl
    exact (kind j hj).imp (fun _ h => ⟨h.1, h.2.1,
      h.2.2.trans (hp.className?_eq.trans (hname (hp.className_ne_none on)).symm)⟩)
  | receive on form kind constructor made =>
    obtain ⟨⟨kept, hattach⟩, hplaced, hconstructor⟩ := Draft.absorbReceiver_spec made
    obtain ⟨criteria, type, receiver, declarations, hc, hname⟩ := hd.get?_constructor constructor
    refine hd.of_grows hgrows (hd.wired.attachReceiver hattach (fun j hj => ?_)) hplaced
      hconstructor
    obtain rfl := Option.some.inj (hc.symm.trans hj)
    -- the receiver and the constructor are of the class that is worked off
    refine kind.imp (fun k h => ⟨h.1, h.2.1, ?_⟩)
    rw [Insertion.className?, h.2.2, hp.className?_eq]
    exact (hname (hp.className_ne_none on)).symm
  | annotate n note new kind made =>
    obtain ⟨hstore, hplaced, hconstructor⟩ := Draft.addNote_spec made
    exact hd.of_grows hgrows (hd.wired.addTypeAnnotation hstore) hplaced hconstructor

end Step

/-- All steps at a spot keep a draft sound, and let its store grow. -/
theorem Steps.sound {ctx : Context} {p : Spot} {base : Nat} {className : Option String}
    {w w' : Work} (h : Steps ctx p base w w') (hp : p.Fits className)
    (hd : w.draft.Sound className) :
    w'.draft.Sound className ∧ w.draft.store.Grows w'.draft.store := by
  induction h with
  | refl => exact ⟨hd, .refl _⟩
  | tail _ hlast ih => exact ⟨hlast.sound hp ih.1, ih.2.trans (hlast.grows ih.1)⟩

/-- All steps at a site keep a draft sound, and let its store grow. -/
theorem SiteSteps.sound {ctx : Context} {s : Site} {base : Nat} {className : Option String}
    {w w' : Work} (h : SiteSteps ctx s base w w') (hs : s.Fits className)
    (hd : w.draft.Sound className) :
    w'.draft.Sound className ∧ w.draft.store.Grows w'.draft.store := by
  refine h.keep (I := fun v => v.draft.Sound className ∧ w.draft.store.Grows v.draft.store)
    (fun p hp v v' hstep hv => ?_) ⟨hd, .refl _⟩
  exact ⟨hstep.sound (hs.spots p hp) hv.1, hv.2.trans (hstep.grows hv.1)⟩

end AnnotationPlan
