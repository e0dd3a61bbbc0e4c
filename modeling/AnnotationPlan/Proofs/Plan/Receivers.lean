import AnnotationPlan.Proofs.JavaType.Text
import AnnotationPlan.Proofs.Plan.Constructors
import AnnotationPlan.Proofs.Plan.Safety

/-!
# What a constructor has on its receiver

The receiver of a constructor that is written for a class can be annotated at several
spots: as the receiver of the constructor without parameters, and at places in its syntax
tree. All of these are meant to come together in one parameter. What is there in the end
is told by `Plan.receiver_of_constructor`: every annotation of the first spot that has
any, but of every later spot only the first one. The others are added to an insertion
that was merged before, and are lost (`Plan.sharedReceiver_loses`).

So all annotations reach the constructor exactly if the later spots bring nothing new
behind their first annotation.
-/

namespace AnnotationPlan

open Insertion

/-- The text of a receiver parameter contains that of its annotations. -/
theorem Store.occurs_receiverText (annotations className : String) :
    Occurs annotations (Store.receiverText annotations className) := by
  unfold receiverText
  split
  case isTrue h =>
    rw [h]
    exact ⟨"", _, (String.empty_append).symm⟩
  case isFalse =>
    exact (((Occurs.refl annotations).append_left _).append_left _).append_left _

/-- **The text of a constructor contains that of the type of its receiver.** -/
theorem Store.occurs_render {s : Store} {c r : InsertionId} {criteria place : CriteriaList}
    {type rtype : JavaType} {declarations inner : List InsertionId} {text : String}
    (hc : s.get? c = some (.constructor criteria type (some r) declarations))
    (hr : s.get? r = some (.receiver place rtype inner)) (h : s.render c = .ok text) :
    Occurs rtype.text text := by
  obtain ⟨n, hn⟩ : ∃ n, s.size = n + 1 :=
    Nat.exists_eq_succ_of_ne_zero (Nat.ne_of_gt (Nat.zero_lt_of_lt (Store.lt_size hc)))
  rw [render, hn, renderWithin, lookup_eq_ok.mpr hc, bind_eq_ok] at h
  obtain ⟨i, hi, h⟩ := h
  cases hi
  obtain ⟨above, -, h⟩ := bind_eq_ok.mp h
  obtain ⟨parameter, hparameter, h⟩ := bind_eq_ok.mp h
  cases h
  have hoccurs : Occurs rtype.text parameter := by
    rw [renderWithin, lookup_eq_ok.mpr hr, bind_eq_ok] at hparameter
    obtain ⟨j, hj, hparameter⟩ := hparameter
    cases hj
    dsimp only at hparameter
    split at hparameter <;> cases hparameter
    exact occurs_receiverText _ _
  exact (hoccurs.append_right _).append_left _

/-! ## What is on the receiver -/

/-- **A text is on the receiver of a constructor**: it is one of the annotations on the
type of the receiver that the constructor has, and so it can be read in the text of the
constructor. -/
def Store.OnReceiver (s : Store) (c : InsertionId) (t : String) : Prop :=
  ∃ r place type inner text, s.receiverOf c = some r
    ∧ s.get? r = some (.receiver place type inner) ∧ t ∈ type.annotations
    ∧ s.render c = .ok text ∧ Occurs t text

/-- In what a run leaves, the texts on a receiver can be read in its constructor. -/
theorem Draft.Sound.onReceiver_iff {className : Option String} {d : Draft}
    (hd : d.Sound className) {c : InsertionId} {t : String} :
    d.store.OnReceiver c t ↔ ∃ texts, d.store.receiverTexts? c = some texts ∧ t ∈ texts := by
  constructor
  · rintro ⟨r, place, type, inner, text, hof, hget, ht, -⟩
    refine ⟨type.annotations, ?_, ht⟩
    unfold Store.receiverTexts?
    rw [hof]
    exact Store.textsAt_of_get? hget
  · rintro ⟨texts, htexts, ht⟩
    obtain ⟨r, hof, htexts⟩ := Option.bind_eq_some_iff.mp htexts
    obtain ⟨place, type, inner, hget⟩ := hd.wired.get?_receiverOf hof
    rw [Store.textsAt_of_get? hget] at htexts
    obtain rfl : type.annotations = texts := Option.some.inj htexts
    obtain ⟨i, hi, hreceiver⟩ := Option.bind_eq_some_iff.mp hof
    obtain ⟨text, htext⟩ := Store.exists_render hd.wired.closed hd.wired.acyclic
      hd.wired.receiversInClass (Store.lt_size hi)
    refine ⟨r, place, type, inner, text, hof, hget, ht, htext, ?_⟩
    cases i with
    | constructor criteria ctype receiver declarations =>
      obtain rfl : receiver = some r := hreceiver
      exact (type.occurs_text ht).trans (Store.occurs_render hi hget htext)
    | _ => cases hreceiver

namespace Draft

/-- **The spots together drop nothing**: what a later one has behind its first text is
there anyway, on the first spot or at the head of a later one. -/
def DropsNothing : List (List String) → Prop
  | [] => True
  | first :: later =>
    ∀ texts ∈ later, ∀ t ∈ texts.tail, t ∈ first ∨ ∃ other ∈ later, other.head? = some t

/-- What is received is the first spot, and the heads of the later ones. -/
theorem mem_received {first : List String} {later : List (List String)} {t : String} :
    (∃ texts, received? (first :: later) = some texts ∧ t ∈ texts)
      ↔ t ∈ first ∨ ∃ other ∈ later, other.head? = some t := by
  rw [← List.mem_filterMap, ← Store.mem_addMissing]
  constructor
  · rintro ⟨texts, htexts, ht⟩
    obtain rfl := Option.some.inj htexts
    exact ht
  · intro ht
    exact ⟨_, rfl, ht⟩

/-- **Everything is received** exactly if the spots together drop nothing. -/
theorem forall_received_iff (all : List (List String)) :
    (∀ texts ∈ all, ∀ t ∈ texts, ∃ kept, received? all = some kept ∧ t ∈ kept)
      ↔ DropsNothing all := by
  cases all with
  | nil => exact iff_of_true (fun texts h => absurd h List.not_mem_nil) trivial
  | cons first later =>
    constructor
    · intro h texts htexts t ht
      exact mem_received.mp (h texts (List.mem_cons_of_mem _ htexts) t (List.mem_of_mem_tail ht))
    · intro h texts htexts t ht
      refine mem_received.mpr ?_
      rcases List.mem_cons.mp htexts with rfl | htexts
      · exact Or.inl ht
      · cases texts with
        | nil => exact absurd ht List.not_mem_nil
        | cons u rest =>
          rcases List.mem_cons.mp ht with rfl | ht
          · exact Or.inr ⟨_, htexts, rfl⟩
          · exact h _ htexts t ht

end Draft

namespace Plan

/-- **What a constructor has on its receiver.** The annotations of the receiver are those
of the first spot that has any, and the first one of every later spot. So the annotations
of all spots are on the receiver, and can be read in the constructor, exactly if the spots
together drop nothing. -/
theorem receiver_of_constructor {policy : NamePolicy} {scene : Scene}
    {lookup : ConstructorLookup} {settings : Settings} {plan : Plan}
    (h : Plan.ofSceneWith policy scene lookup settings = .ok plan) {name : String}
    {element : ClassElement} (hpart : Part.type name element ∈ scene.parts) {c : InsertionId}
    (hc : plan.store.Has (fun i => i.IsConstructor ∧ i.className? = some name) c) :
    plan.store.receiverTexts? c
        = Draft.received? (element.receiverTexts ⟨scene.definitions, policy⟩ name)
    ∧ ((∀ p ∈ element.receiverSpots name, ∀ t ∈ p.texts ⟨scene.definitions, policy⟩,
          plan.store.OnReceiver c t)
      ↔ Draft.DropsNothing (element.receiverTexts ⟨scene.definitions, policy⟩ name)) := by
  obtain ⟨d, className, hstore, -, hd, -, -⟩ :=
    (Plan.visits_yields .trivial policy scene lookup settings).of_ok h
  have htexts : plan.store.receiverTexts? c
      = Draft.received? (element.receiverTexts ⟨scene.definitions, policy⟩ name) := by
    obtain ⟨name', element', hpart', hname', htexts⟩ :=
      (Plan.builtFrom h).receiver c (hc.imp (fun _ h => ⟨h.1, h.2.1⟩))
    obtain rfl := hname'.unique (hc.imp (fun _ h => ⟨h.1, h.2.2⟩))
    obtain rfl := Scene.eq_of_mem_parts hpart hpart'
    exact htexts
  refine ⟨htexts, ?_⟩
  rw [← ClassElement.forall_receiverTexts, ← Draft.forall_received_iff]
  rw [← htexts, hstore]
  refine forall_congr' fun texts => imp_congr_right fun _ => ?_
  exact forall_congr' fun t => imp_congr_right fun _ => hd.onReceiver_iff

end Plan

/-! ## Annotations are lost -/

/-- **A class whose constructor shares its receiver** between two spots: the receiver of
the method itself, and a place in the syntax tree that has two annotations. -/
def Scene.sharedReceiver : Scene where
  definitions := .ofList [{ name := "A", targets := some [.typeUse] },
    { name := "B", targets := some [.typeUse] }, { name := "D", targets := some [.typeUse] }]
  packages := .empty
  classes := .ofList [("C", { (default : ClassElement) with
    methods := .ofList [(implicitConstructor, { (default : MethodElement) with
      receiver := ⟨[.ofName "A"], []⟩
      insertions := ⟨.ofList [(⟨[⟨.method, "parameter", some (-1)⟩]⟩,
        ⟨[.ofName "B", .ofName "D"], []⟩)], .empty⟩ })] })]

/-- The constructor of this class has what is received of the two spots. -/
theorem Plan.receiver_of_sharedReceiver :
    ∃ plan element c, Plan.ofSceneWith ⟨[]⟩ Scene.sharedReceiver .implicit {} = .ok plan
      ∧ Part.type "C" element ∈ Scene.sharedReceiver.parts
      ∧ plan.store.Has (fun i => i.IsConstructor ∧ i.className? = some "C") c
      ∧ plan.store.receiverTexts? c
          = Draft.received? (element.receiverTexts ⟨Scene.sharedReceiver.definitions, ⟨[]⟩⟩ "C")
      ∧ ((∀ p ∈ element.receiverSpots "C",
            ∀ t ∈ p.texts ⟨Scene.sharedReceiver.definitions, ⟨[]⟩⟩, plan.store.OnReceiver c t)
        ↔ Draft.DropsNothing
            (element.receiverTexts ⟨Scene.sharedReceiver.definitions, ⟨[]⟩⟩ "C")) := by
  obtain ⟨plan, element, hplan, hpart, hc⟩ :
      ∃ plan element, Plan.ofSceneWith ⟨[]⟩ Scene.sharedReceiver .implicit {} = .ok plan
        ∧ Part.type "C" element ∈ Scene.sharedReceiver.parts
        ∧ plan.store.Has (fun i => i.IsConstructor ∧ i.className? = some "C") 1 :=
    ⟨_, _, rfl, List.mem_cons_self, _, rfl, trivial, rfl⟩
  exact ⟨plan, element, 1, hplan, hpart, hc, Plan.receiver_of_constructor hplan hpart hc⟩

/-- **The second annotation of the second spot is lost.** -/
theorem Plan.sharedReceiver_loses :
    ∃ plan element c, Plan.ofSceneWith ⟨[]⟩ Scene.sharedReceiver .implicit {} = .ok plan
      ∧ Part.type "C" element ∈ Scene.sharedReceiver.parts
      ∧ plan.store.Has (fun i => i.IsConstructor ∧ i.className? = some "C") c
      ∧ ¬ ∀ p ∈ element.receiverSpots "C",
          ∀ t ∈ p.texts ⟨Scene.sharedReceiver.definitions, ⟨[]⟩⟩, plan.store.OnReceiver c t := by
  obtain ⟨plan, element, hplan, hpart, hc, hbrought, hof, place, type, inner, hget, htype⟩ :
      ∃ plan element, Plan.ofSceneWith ⟨[]⟩ Scene.sharedReceiver .implicit {} = .ok plan
        ∧ Part.type "C" element ∈ Scene.sharedReceiver.parts
        ∧ plan.store.Has (fun i => i.IsConstructor ∧ i.className? = some "C") 1
        ∧ element.receiverTexts ⟨Scene.sharedReceiver.definitions, ⟨[]⟩⟩ "C"
          = [["@A"], ["@B", "@D"]]
        ∧ plan.store.receiverOf 1 = some 0
        ∧ ∃ place type inner, plan.store.get? 0 = some (.receiver place type inner)
          ∧ type.annotations = ["@A", "@B"] :=
    ⟨_, _, rfl, List.mem_cons_self, ⟨_, rfl, trivial, rfl⟩, rfl, rfl, _, _, _, rfl, rfl⟩
  refine ⟨plan, element, 1, hplan, hpart, hc, fun hall => ?_⟩
  obtain ⟨r, place', type', inner', text, hr, hget', hlost, -⟩ :=
    ClassElement.forall_receiverTexts.mpr hall ["@B", "@D"] (by rw [hbrought]; simp) "@D"
      (by simp)
  obtain rfl : 0 = r := Option.some.inj (hof.symm.trans hr)
  obtain rfl : type = type' := by
    cases hget.symm.trans hget'
    rfl
  rw [htype] at hlost
  exact absurd hlost (by decide)

end AnnotationPlan
