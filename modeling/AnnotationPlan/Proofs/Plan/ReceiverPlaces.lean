import AnnotationPlan.Proofs.Draft.ReceiverGains
import AnnotationPlan.Proofs.Plan.Constructors
import AnnotationPlan.Proofs.Plan.Making

/-!
# How many receivers a method gets

The receiver parameter of a method can be annotated as the receiver of the method, and at a
path to it in the syntax tree, on the method itself or on the parameter of a lambda in it.
All of these are the same parameter. A method gets as many receivers as there are places of
these kinds with annotations at them (`Plan.receiversOf_ofSceneWith`), and a program can take
only one. What comes together is what goes to the constructor that is written for a class:
there the first place is that of the one receiver, which the constructor has for all of
them.

The receivers in the output are followed from visit to visit. The constructor of a class has
its receiver once the class is worked off, and nothing happens to it afterwards
(`Store.HoldsFor.visitPart`).
-/

namespace AnnotationPlan

open Insertion

/-! ## Parts -/

namespace Part

/-- Whether a constructor is written for annotations on the one that the class of a part did
not declare. -/
def writesConstructor (settings : Settings) (lookup : ConstructorLookup) : Part → Bool
  | .type className _ => settings.writesConstructor (Plan.knowledge settings lookup className).1
  | _ => false

/-- The spots of a part that a receiver is made for. -/
def receiverSpots (p : Part) : List Spot := p.sites.flatMap Site.receiverSpots

/-- **The places in a part that have a receiver of their own.** -/
def ownPlaces (settings : Settings) (lookup : ConstructorLookup) (p : Part) : List CriteriaList :=
  Spot.ownPlaces (p.writesConstructor settings lookup) p.receiverSpots

/-- **The place of the receiver that the constructor of a class has**: the first of those
that are shared. -/
def sharedPlace? (settings : Settings) (lookup : ConstructorLookup) (p : Part) :
    Option CriteriaList :=
  Spot.sharedPlace? (p.writesConstructor settings lookup) p.receiverSpots

section Gains

variable {formatter : Formatter} {settings : Settings} {lookup : ConstructorLookup}
  {className : Option String} {d e : Draft} {p : Part}

/-- **What a part gains**, and what is on the receiver of the constructor of its class. -/
theorem gains (hd : d.Sound className) (h : Plan.visitPart formatter settings lookup d p = .ok e) :
    e.receiverPlaces = d.receiverPlaces ++ p.ownPlaces settings lookup
    ∧ (p.className? ≠ none → e.heldPlace? = p.sharedPlace? settings lookup) := by
  have hgains := Draft.gains_visits p.fits_sites (p.sound_start settings lookup hd)
    (foldlM_of_visitPart formatter settings lookup h)
  have hwrites : (p.context formatter settings lookup).writesConstructor
      = p.writesConstructor settings lookup := by
    cases p <;> rfl
  obtain ⟨hplaced, hheld⟩ := hgains
  rw [hwrites] at hplaced hheld
  refine ⟨hplaced.trans ?_, fun hname => hheld.trans ?_⟩
  · exact congrArg (· ++ _) (by cases p <;> rfl)
  · cases p with
    | type name element => exact Option.none_or
    | _ => exact absurd rfl hname

end Gains

end Part

/-! ## The receiver of a constructor -/

/-- The receiver of a constructor for a class. -/
def Insertion.receiverIn? (className : String) : Insertion → Option InsertionId
  | .constructor criteria _ held _ =>
    if criteria.compose.className? = some className then held else none
  | _ => none

namespace Store

/-- **The place of the receiver of a constructor** for a class; nothing if the insertion is
no constructor for the class, or has no receiver. -/
def heldPlace? (s : Store) (className : String) (c : InsertionId) : Option CriteriaList :=
  ((s.get? c).bind (Insertion.receiverIn? className)).bind s.receiverPlace?

variable {s s' : Store} {name : String} {c : InsertionId} {l : CriteriaList}

/-- A receiver is held by a constructor of the class. -/
theorem heldPlace?_eq_some_iff : s.heldPlace? name c = some l
    ↔ s.Has (fun i => i.IsConstructor ∧ i.className? = some name) c
      ∧ (s.receiverOf c).bind s.receiverPlace? = some l := by
  unfold heldPlace? receiverOf
  cases hi : s.get? c with
  | none => exact iff_of_false (fun h => by cases h) (fun h => by
      obtain ⟨⟨i, hget, -⟩, -⟩ := h
      cases hi.symm.trans hget)
  | some i =>
    have hhas : s.Has (fun i => i.IsConstructor ∧ i.className? = some name) c
        ↔ i.IsConstructor ∧ i.className? = some name :=
      ⟨fun ⟨j, hj, h⟩ => Option.some.inj (hj.symm.trans hi) ▸ h, fun h => ⟨i, hi, h⟩⟩
    rw [hhas]
    cases i with
    | constructor criteria type receiver declarations =>
      show (if criteria.compose.className? = some name then receiver else none).bind _ = _
        ↔ (True ∧ criteria.compose.className? = some name) ∧ receiver.bind _ = _
      split
      case isTrue hname => exact ⟨fun h => ⟨⟨trivial, hname⟩, h⟩, And.right⟩
      case isFalse hname => exact iff_of_false (fun h => by cases h) (fun h => hname h.1.2)
    | _ => exact iff_of_false (fun h => by cases h) (fun h => h.1.1.elim)

/-- A receiver that is held is in the store, at the place where it was. -/
theorem Grows.heldPlace?_eq (h : s.Grows s') (hs : s.Wired) (hc : s'.get? c = s.get? c) :
    s'.heldPlace? name c = s.heldPlace? name c := by
  unfold heldPlace?
  rw [hc]
  cases hr : (s.get? c).bind (Insertion.receiverIn? name) with
  | none => rfl
  | some r =>
    have hof : s.receiverOf c = some r := by
      obtain ⟨i, hi, hreceiver⟩ := Option.bind_eq_some_iff.mp hr
      refine Option.bind_eq_some_iff.mpr ⟨i, hi, ?_⟩
      cases i with
      | constructor criteria type receiver declarations =>
        exact (Option.ite_none_right_eq_some.mp hreceiver).2
      | _ => cases hreceiver
    obtain ⟨place, type, inner, hget⟩ := hs.get?_receiverOf hof
    exact h.receiverPlace?_eq (lt_size hget)

/-- **The constructors of classes hold the receivers** that there are places for. -/
def HoldsFor (place : Part → Option CriteriaList) (done : List Part) (s : Store) : Prop :=
  ∀ p ∈ done, ∀ name, p.className? = some name → ∀ l,
    (∃ c, s.heldPlace? name c = some l) ↔ place p = some l

end Store

section Run

variable {formatter : Formatter} {settings : Settings} {lookup : ConstructorLookup}

/-- **A part adds the receiver of the constructor of its class.** -/
theorem Store.HoldsFor.visitPart {className : Option String} {done : List Part} {d e : Draft}
    {p : Part} (h : d.store.HoldsFor (Part.sharedPlace? settings lookup) done)
    (hbuilt : d.store.BuiltFrom formatter done) (hd : d.Sound className)
    (hdistinct : ∀ q ∈ done, ∀ name, q.className? = some name → p.className? ≠ some name)
    (hp : Plan.visitPart formatter settings lookup d p = .ok e) :
    e.store.HoldsFor (Part.sharedPlace? settings lookup) (done ++ [p]) := by
  obtain ⟨hsound, -, hsites⟩ := Part.above hd hp
  have hgrows : d.store.Grows e.store := by
    have hchain := (Draft.Sound.chain (p.sound_start settings lookup hd) p.fits_sites hsites).2
    exact p.store_start settings lookup d ▸ hchain.grows
  have hold : ∀ {name : String} {c : InsertionId}, c < d.store.size →
      e.store.heldPlace? name c = d.store.heldPlace? name c :=
    fun hc => hgrows.heldPlace?_eq hd.wired (Part.receiverTexts?_of_lt hd hp hc).1
  -- a constructor that is new is for the class of the part, and an old one is not
  have hnew : ∀ {name : String} {c : InsertionId},
      e.store.Has (fun i => i.IsConstructor ∧ i.className? = some name) c →
      d.store.size ≤ c → p.className? = some name ∧ e.constructor = some c := by
    intro name c hc hle
    obtain ⟨name', element, rfl, hconstructor, hname', -⟩ :=
      Part.receiverTexts?_of_le hd hp hle (hc.imp (fun _ h => ⟨h.1, h.2.1⟩))
    obtain rfl := hname'.unique (hc.imp (fun _ h => ⟨h.1, h.2.2⟩))
    exact ⟨rfl, hconstructor⟩
  have hother : ∀ {name : String} {c : InsertionId},
      e.store.Has (fun i => i.IsConstructor ∧ i.className? = some name) c →
      c < d.store.size → p.className? ≠ some name := by
    rintro name c ⟨i, hi, hkind, hname⟩ hlt
    have hi' : d.store.get? c = some i := (Part.receiverTexts?_of_lt hd hp hlt).1 ▸ hi
    obtain ⟨name', element, hmem, hname', -⟩ := hbuilt.receiver c ⟨i, hi', hkind⟩
    obtain rfl := hname'.unique ⟨i, hi', hname⟩
    exact hdistinct _ hmem _ rfl
  intro q hq name hname l
  rcases List.mem_append.mp hq with hq | hq
  · rw [← h q hq name hname l]
    constructor
    · rintro ⟨c, hc⟩
      have hlt : c < d.store.size := Nat.lt_of_not_le (fun hle => hdistinct q hq name hname
        (hnew (Store.heldPlace?_eq_some_iff.mp hc).1 hle).1)
      exact ⟨c, (hold hlt).symm.trans hc⟩
    · rintro ⟨c, hc⟩
      exact ⟨c, (hold (Store.heldPlace?_eq_some_iff.mp hc).1.lt_size).trans hc⟩
  · obtain rfl := List.mem_singleton.mp hq
    have hheld := (Part.gains hd hp).2 (by rw [hname]; exact Option.some_ne_none _)
    rw [← hheld]
    constructor
    · rintro ⟨c, hc⟩
      obtain ⟨hhas, hplace⟩ := Store.heldPlace?_eq_some_iff.mp hc
      have hle : d.store.size ≤ c := Nat.le_of_not_lt (fun hlt => hother hhas hlt hname)
      unfold Draft.heldPlace? Draft.receiver?
      rw [(hnew hhas hle).2]
      exact hplace
    · intro hplace
      obtain ⟨r, hr, hplace⟩ := Option.bind_eq_some_iff.mp hplace
      obtain ⟨c, hc, hr⟩ := Option.bind_eq_some_iff.mp hr
      refine ⟨c, Store.heldPlace?_eq_some_iff.mpr ⟨?_, ?_⟩⟩
      · refine (hsound.constructor_has c hc).imp (fun _ h => ⟨h.1, h.2.1, ?_⟩)
        exact (h.2.2 (by rw [hname]; exact Option.some_ne_none _)).trans hname
      · rw [hr]
        exact hplace

/-- **A run through parts** puts the receivers into the output that have places of their own,
and gives the constructors theirs. -/
theorem Plan.receivers_parts :
    ∀ {parts done : List Part} {className : Option String} {d e : Draft}, d.Sound className →
      d.store.BuiltFrom formatter done →
      d.store.HoldsFor (Part.sharedPlace? settings lookup) done → Part.Distinct (done ++ parts) →
      parts.foldlM (Plan.visitPart formatter settings lookup) d = .ok e →
      e.receiverPlaces = d.receiverPlaces ++ parts.flatMap (Part.ownPlaces settings lookup)
      ∧ e.store.HoldsFor (Part.sharedPlace? settings lookup) (done ++ parts)
  | [], done, className, d, e, _, _, hholds, _, h => by
    cases h
    rw [List.flatMap_nil, List.append_nil, List.append_nil]
    exact ⟨rfl, hholds⟩
  | p :: rest, done, className, d, e, hd, hbuilt, hholds, hdistinct, h => by
    rw [List.foldlM_cons] at h
    obtain ⟨f, hf, h⟩ := bind_eq_ok.mp h
    have hp : ∀ q ∈ done, ∀ name, q.className? = some name → p.className? ≠ some name :=
      fun q hq name => (List.pairwise_append.mp hdistinct).2.2 q hq p List.mem_cons_self name
    rw [List.append_cons] at hdistinct ⊢
    obtain ⟨hplaces, hholds'⟩ := Plan.receivers_parts (Part.above hd hf).1
      (hbuilt.visitPart hd hp hf) (hholds.visitPart hbuilt hd hp hf) hdistinct h
    refine ⟨?_, hholds'⟩
    rw [hplaces, (Part.gains hd hf).1, List.flatMap_cons, List.append_assoc]

end Run

/-! ## The receivers of a method -/

/-- Whether a path in the syntax tree leads from a method to its receiver parameter. -/
def AstPath.isReceiverParameter (path : AstPath) : Bool :=
  match path.entries with
  | [e] => e.kind == .method && e.selector == AstEntry.parameter
      && e.argument.all (fun n => decide (n < 0))
  | _ => false

/-- **Whether a place is the receiver parameter of a method** of a class: it is in the method,
and if it is told by a path in the syntax tree, then the path leads there. -/
def Criteria.isReceiverOf (className method : String) (cs : Criteria) : Bool :=
  cs.className? == some className && cs.method? == some method
    && cs.astPath?.all AstPath.isReceiverParameter

/-- **The places that have a receiver** which is that of a method: those that have one of
their own, and for the constructor without parameters the first of those that share the
one of the constructor that is written. -/
def Scene.receiversOf (settings : Settings) (lookup : ConstructorLookup) (s : Scene)
    (className method : String) : List CriteriaList :=
  (s.parts.flatMap (Part.ownPlaces settings lookup)
    ++ if method = implicitConstructor then
        ((s.parts.find? (fun p => p.className? = some className)).bind
          (Part.sharedPlace? settings lookup)).toList
      else []).filter (fun l => l.compose.isReceiverOf className method)

namespace Plan

/-- The places of the receivers that the constructors of a class have. -/
def heldPlaces (plan : Plan) (className : String) : List CriteriaList :=
  (List.range plan.store.size).filterMap (plan.store.heldPlace? className)

/-- **The receivers of a method**, told by their places: those in the output, and for the
constructor without parameters that of the constructor that is written for the class. -/
def receiversOf (plan : Plan) (className method : String) : List CriteriaList :=
  (plan.order.filterMap plan.store.receiverPlace?
    ++ if method = implicitConstructor then plan.heldPlaces className else []).filter
      (fun l => l.compose.isReceiverOf className method)

/-- Where there is only one number with a value, the values are that one. -/
theorem filterMap_range_of_unique {α : Type} {f : Nat → Option α} {n : Nat} {o : Option α}
    (hvalue : ∀ l, (∃ c, f c = some l) ↔ o = some l) (hlt : ∀ c l, f c = some l → c < n)
    (hunique : ∀ c c' l l', f c = some l → f c' = some l' → c = c') :
    (List.range n).filterMap f = o.toList := by
  cases o with
  | none =>
    refine List.filterMap_eq_nil_iff.mpr (fun c _ => ?_)
    cases hc : f c with
    | none => rfl
    | some l => exact absurd ((hvalue l).mp ⟨c, hc⟩) (by simp)
  | some l =>
    obtain ⟨c, hc⟩ := (hvalue l).mpr rfl
    have hnone : ∀ j, j ≠ c → f j = none := by
      intro j hj
      cases hf : f j with
      | none => rfl
      | some k => exact absurd (hunique j c k l hf hc) hj
    obtain ⟨before, after, hsplit⟩ := List.append_of_mem (List.mem_range.mpr (hlt c l hc))
    have hnodup := hsplit ▸ List.nodup_range (n := n)
    obtain ⟨-, hafter, hbefore⟩ := List.nodup_append.mp hnodup
    have hempty : before.filterMap f = [] := List.filterMap_eq_nil_iff.mpr
      (fun j hj => hnone j (hbefore j hj c List.mem_cons_self))
    have hempty' : after.filterMap f = [] := List.filterMap_eq_nil_iff.mpr
      (fun j hj => hnone j (fun heq => (List.nodup_cons.mp hafter).1 (heq ▸ hj)))
    rw [hsplit, List.filterMap_append, hempty, List.filterMap_cons_some hc, hempty']
    rfl

section Run

variable {policy : NamePolicy} {scene : Scene} {lookup : ConstructorLookup} {settings : Settings}
  {plan : Plan} (h : ofSceneWith policy scene lookup settings = .ok plan)
include h

/-- **The receivers in the output** are those for the places that have one of their own, and
constructors have those that there are shared places for. -/
theorem receivers_of_ofSceneWith :
    plan.order.filterMap plan.store.receiverPlace?
        = scene.parts.flatMap (Part.ownPlaces settings lookup)
    ∧ plan.store.HoldsFor (Part.sharedPlace? settings lookup) scene.parts := by
  obtain ⟨d, hd, hplan⟩ := bind_eq_ok.mp h
  cases hplan
  have hnone : Store.BuiltFrom ⟨scene.definitions, policy⟩ [] Draft.empty.store := by
    refine ⟨fun j hj => ?_, fun j k name hj => ?_⟩ <;>
      exact absurd hj.lt_size (Nat.not_lt_zero _)
  have hdistinct : Part.Distinct ([] ++ scene.parts) := scene.distinct_parts
  obtain ⟨hplaces, hholds⟩ := receivers_parts (Draft.sound_empty none) hnone
    (fun p hp => absurd hp List.not_mem_nil) hdistinct hd
  exact ⟨hplaces, hholds⟩

/-- **The receiver of the constructor for a class** is the one that there is a shared place
for. -/
theorem heldPlaces_of_ofSceneWith (className : String) :
    plan.heldPlaces className
      = ((scene.parts.find? (fun p => p.className? = some className)).bind
          (Part.sharedPlace? settings lookup)).toList := by
  have hconstructor : ∀ c l, plan.store.heldPlace? className c = some l →
      plan.store.Has (fun i => i.IsConstructor ∧ i.className? = some className) c :=
    fun c l hc => (Store.heldPlace?_eq_some_iff.mp hc).1
  refine filterMap_range_of_unique (fun l => ?_) (fun c l hc => (hconstructor c l hc).lt_size)
    (fun c c' l l' hc hc' => constructor_unique h (hconstructor c l hc) (hconstructor c' l' hc'))
  cases hfind : scene.parts.find? (fun p => p.className? = some className) with
  | none =>
    -- there is no such class, and so no constructor for it
    refine iff_of_false (fun ⟨c, hc⟩ => ?_) (fun hnone => by cases hnone)
    have hhas := hconstructor c l hc
    obtain ⟨name, element, hmem, hname, -⟩ :=
      (builtFrom h).receiver c (hhas.imp (fun _ h => ⟨h.1, h.2.1⟩))
    obtain rfl := hname.unique (hhas.imp (fun _ h => ⟨h.1, h.2.2⟩))
    exact absurd (decide_eq_true rfl) (List.find?_eq_none.mp hfind _ hmem)
  | some p =>
    have hname : p.className? = some className := by
      simpa using List.find?_some hfind
    exact (receivers_of_ofSceneWith h).2 p (List.mem_of_find?_eq_some hfind) className hname l

/-- **How many receivers a method gets.** There is one for every spot on its receiver that has
annotations, or annotations within its type: where such a spot is on the receiver of the
method, and where it is at a path to it in the syntax tree, each gets its own. Only the
spots with annotations on the constructor that is written for a class share one. -/
theorem receiversOf_ofSceneWith (className method : String) :
    plan.receiversOf className method = scene.receiversOf settings lookup className method := by
  unfold receiversOf Scene.receiversOf
  rw [(receivers_of_ofSceneWith h).1, heldPlaces_of_ofSceneWith h]

end Run

end Plan

/-- **A method with two places on its receiver**: the receiver itself, and a path to it in the
syntax tree. -/
def Scene.doubleReceiver : Scene where
  definitions := .ofList [{ name := "A", targets := some [.typeUse] },
    { name := "B", targets := some [.typeUse] }]
  packages := .empty
  classes := .ofList [("C", { (default : ClassElement) with
    methods := .ofList [("m()V", { (default : MethodElement) with
      receiver := ⟨[.ofName "A"], []⟩
      insertions := ⟨.ofList [(⟨[⟨.method, "parameter", some (-1)⟩]⟩,
        ⟨[.ofName "B"], []⟩)], .empty⟩ })] })]

namespace Plan

/-- Each of the two places gets its receiver. -/
theorem receiversOf_doubleReceiver :
    ∃ plan, ofSceneWith ⟨[]⟩ Scene.doubleReceiver .nothing {} = .ok plan
      ∧ plan.receiversOf "C" "m()V" = Scene.doubleReceiver.receiversOf {} .nothing "C" "m()V" :=
  ⟨_, rfl, receiversOf_ofSceneWith rfl "C" "m()V"⟩

/-- **A method may get two receivers.** -/
theorem doubleReceiver_two :
    ∃ plan, ofScene Scene.doubleReceiver .nothing {} = .ok plan
      ∧ ¬ (plan.receiversOf "C" "m()V").length ≤ 1 := by
  obtain ⟨plan, hplan, htwo⟩ : ∃ plan, ofScene Scene.doubleReceiver .nothing {} = .ok plan
      ∧ (plan.receiversOf "C" "m()V").length = 2 := ⟨_, rfl, rfl⟩
  exact ⟨plan, hplan, by omega⟩

end Plan

end AnnotationPlan
