import AnnotationPlan.Proofs.Draft.Visit
import AnnotationPlan.Proofs.Store.Receivers

/-!
# The receiver is left alone

The constructor written for a class has one receiver, and its annotations
(`Draft.receiverTexts?`) are followed from spot to spot. Only spots on the receiver of the
constructor without parameters bring it texts (`Spot.Receives`). Steps at all other spots
leave it alone (`Steps.keepsReceiver`): what they change are insertions that they have
made themselves, or the constructor in other respects.
-/

namespace AnnotationPlan

open Insertion

namespace Draft

variable {d d' : Draft} {className : Option String} {r : InsertionId}

/-- The receiver of the constructor of the class. -/
def receiver? (d : Draft) : Option InsertionId := d.constructor.bind d.store.receiverOf

/-- **The texts on the receiver** of the constructor of the class. -/
def receiverTexts? (d : Draft) : Option (List String) := d.receiver?.bind d.store.textsAt

/-- The receiver of a constructor that is known. -/
theorem receiver?_of_get? {c : InsertionId} {i : Insertion} (hc : d.constructor = some c)
    (hi : d.store.get? c = some i) : d.receiver? = i.receiver? := by
  unfold receiver? Store.receiverOf
  rw [hc]
  show (d.store.get? c).bind _ = _
  rw [hi]
  rfl

/-- **The receiver is left alone**: it is the same one, and has not changed. -/
def KeepsReceiver (d d' : Draft) : Prop :=
  d'.receiver? = d.receiver?
    ∧ ∀ r, d.receiver? = some r → d'.store.get? r = d.store.get? r

namespace KeepsReceiver

theorem refl (d : Draft) : d.KeepsReceiver d := ⟨rfl, fun _ _ => rfl⟩

theorem trans {d'' : Draft} (h : d.KeepsReceiver d') (h' : d'.KeepsReceiver d'') :
    d.KeepsReceiver d'' :=
  ⟨h'.1.trans h.1, fun r hr => (h'.2 r (h.1.trans hr)).trans (h.2 r hr)⟩

/-- A receiver that is left alone has the same texts. -/
theorem receiverTexts?_eq (h : d.KeepsReceiver d') : d'.receiverTexts? = d.receiverTexts? := by
  unfold receiverTexts?
  rw [h.1]
  cases hr : d.receiver? with
  | none => rfl
  | some r =>
    show d'.store.textsAt r = d.store.textsAt r
    unfold Store.textsAt
    rw [h.2 r hr]

end KeepsReceiver

/-- The receiver is a receiver, and not the constructor. -/
theorem Sound.get?_receiver (h : d.Sound className) (hr : d.receiver? = some r) :
    ∃ criteria type inner, d.store.get? r = some (.receiver criteria type inner) := by
  obtain ⟨c, -, hr⟩ := Option.bind_eq_some_iff.mp hr
  exact h.wired.get?_receiverOf hr

/-- The receiver is the same one if the constructor is left alone. -/
theorem receiver?_eq_of_get? (hconstructor : d'.constructor = d.constructor)
    (hc : ∀ c, d.constructor = some c → d'.store.get? c = d.store.get? c) :
    d'.receiver? = d.receiver? := by
  unfold receiver?
  rw [hconstructor]
  cases h : d.constructor with
  | none => rfl
  | some c =>
    show (d'.store.get? c).bind _ = (d.store.get? c).bind _
    rw [hc c h]

/-- Adding a note to another insertion leaves the constructor alone. -/
theorem Sound.get?_addNote (h : d.Sound className) {id c : InsertionId} {n : Note}
    (hid : d.store.Has (fun i => ¬ i.IsConstructor) id) (hadd : addNote id d n = .ok d')
    (hc : d.constructor = some c) : d'.store.get? c = d.store.get? c := by
  obtain ⟨hstore, -, -⟩ := addNote_spec hadd
  obtain ⟨i, -, -, hmodify⟩ := Store.addTypeAnnotation_eq_ok.mp hstore
  rw [hmodify]
  refine Store.get?_modify_of_ne (fun heq => ?_)
  subst heq
  obtain ⟨j, hj, hnot⟩ := hid
  obtain ⟨k, hk, hkind, -⟩ := h.constructor_has _ hc
  obtain rfl := Option.some.inj (hj.symm.trans hk)
  exact hnot hkind

/-- Making insertions leaves the receiver alone. -/
theorem Sound.keepsReceiver_of_lt (h : d.Sound className)
    (hconstructor : d'.constructor = d.constructor)
    (hstore : ∀ j < d.store.size, d'.store.get? j = d.store.get? j) : d.KeepsReceiver d' := by
  refine ⟨receiver?_eq_of_get? hconstructor (fun c hc => ?_), fun r hr => ?_⟩
  · exact hstore c (h.constructor_has c hc).lt_size
  · obtain ⟨criteria, type, inner, hr⟩ := h.get?_receiver hr
    exact hstore r (Store.lt_size hr)

/-- Changing the constructor otherwise leaves the receiver alone. -/
theorem Sound.keepsReceiver_modify (h : d.Sound className) {c : InsertionId}
    (hc : d.constructor = some c) {f : Insertion → Insertion}
    (hf : ∀ i, d.store.get? c = some i → (f i).receiver? = i.receiver?) :
    d.KeepsReceiver { d with store := d.store.modify c f } := by
  obtain ⟨criteria, type, receiver, declarations, hget, -⟩ := h.get?_constructor hc
  refine ⟨?_, fun r hr => ?_⟩
  · unfold receiver?
    rw [hc]
    show ((d.store.modify c f).get? c).bind _ = (d.store.get? c).bind _
    rw [Store.get?_modify_self hget, hget]
    exact hf _ hget
  · obtain ⟨place, type', inner, hr⟩ := h.get?_receiver hr
    refine Store.get?_modify_of_ne (fun heq => ?_)
    subst heq
    cases hget.symm.trans hr

/-- A constructor that is made has no receiver. -/
theorem keepsReceiver_construct {criteria : CriteriaList} {store : Store}
    (hnone : d.constructor = none) (made : d.store.pushConstructor criteria = .ok store) :
    d.KeepsReceiver
      (({ d with store, constructor := some d.store.size } : Draft).place [d.store.size]) := by
  obtain ⟨name, -, rfl⟩ := Store.pushConstructor_eq_ok.mp made
  have hreceiver : d.receiver? = none := by
    unfold receiver?
    rw [hnone]
    rfl
  refine ⟨?_, fun r hr => absurd (hreceiver.symm.trans hr) (by simp)⟩
  rw [hreceiver]
  show ((d.store.push _).get? d.store.size).bind _ = none
  rw [Store.get?_push_size]
  rfl

end Draft

/-- Whether a spot is a receiver parameter, and not within its type. -/
def Spot.isReceiver (p : Spot) : Bool :=
  !p.criteria.compose.hasTypePath && p.criteria.compose.targetsReceiver

/-- What is on a receiver parameter is gathered in a receiver. -/
theorem Spot.form_eq_receiver_iff {p : Spot} : p.form = .receiver ↔ p.isReceiver = true := by
  unfold form Form.classify isReceiver
  split
  case isTrue h => exact iff_of_true rfl h
  case isFalse h =>
    refine iff_of_false (fun heq => ?_) h
    split at heq
    · cases heq
    · split at heq <;> cases heq

/-- Whether a spot is on the receiver of the constructor without parameters. -/
def Spot.onConstructorReceiver (p : Spot) : Bool :=
  !p.criteria.compose.hasTypePath && p.criteria.compose.targetsReceiver
    && p.criteria.compose.targetsImplicitConstructor

/-- **A spot on the receiver of the constructor** that is written for the class. -/
def Spot.Receives (ctx : Context) (p : Spot) : Prop :=
  p.form = .receiver ∧ ctx.OnConstructor p.toPosition

/-- A constructor receives what is on its receiver if it is written for the class. -/
theorem Spot.receives_iff {ctx : Context} {p : Spot} :
    p.Receives ctx ↔ (ctx.writesConstructor && p.onConstructorReceiver) = true := by
  unfold Spot.Receives Spot.onConstructorReceiver
  rw [Spot.form_eq_receiver_iff, Context.onConstructor_iff]
  simp only [Spot.isReceiver, Bool.and_eq_true, Bool.not_eq_true']
  constructor
  · rintro ⟨⟨hpath, hreceiver⟩, -, hwrites, himplicit⟩
    exact ⟨hwrites, ⟨hpath, hreceiver⟩, himplicit⟩
  · rintro ⟨hwrites, ⟨hpath, hreceiver⟩, himplicit⟩
    exact ⟨⟨hpath, hreceiver⟩, hpath, hwrites, himplicit⟩

/-- **The texts of the annotations on a spot.** -/
def Spot.texts (f : Formatter) (p : Spot) : List String :=
  match f.notes p.criteria p.annotations with
  | .ok notes => notes.map Note.text
  | .error _ => []

section Frame

variable {ctx : Context} {p : Spot} {base : Nat} {className : Option String} {w w' : Work}

/-- **Steps elsewhere leave the receiver alone.** -/
theorem Step.keepsReceiver (h : Step ctx p base w w') (hd : w.draft.Sound className)
    (hp : ¬ p.Receives ctx) (hbase : ∀ r, w.draft.receiver? = some r → r < base) :
    w.draft.KeepsReceiver w'.draft := by
  cases h with
  | single n form note =>
    exact hd.keepsReceiver_of_lt rfl (fun j hj => Store.get?_push_of_lt hj _)
  | receiver text inner form within =>
    exact hd.keepsReceiver_of_lt rfl (fun j hj => Store.get?_push_of_lt hj _)
  | new text inner form within =>
    exact hd.keepsReceiver_of_lt rfl (fun j hj => Store.get?_push_of_lt hj _)
  | cast type text form within made =>
    exact hd.keepsReceiver_of_lt rfl (fun j hj => Store.get?_pushCast_of_lt made hj)
  | record id n known => exact .refl _
  | construct n note on none made =>
    exact Draft.keepsReceiver_construct none made
  | place ids paired => exact ⟨rfl, fun _ _ => rfl⟩
  | fold n note on result single constructor made =>
    obtain ⟨i, -, -, rfl⟩ := Store.addTypeAnnotation_eq_ok.mp made
    exact hd.keepsReceiver_modify constructor (fun j _ => by cases j <;> rfl)
  | declare n ids note on declaration kind paired constructor made =>
    obtain ⟨criteria, type, receiver, declarations, hc, -, rfl⟩ := hd.declare_spec constructor made
    refine hd.keepsReceiver_modify constructor (fun j hj => ?_)
    obtain rfl := Option.some.inj (hc.symm.trans hj)
    rfl
  | receive on form kind constructor made => exact absurd ⟨form, on⟩ hp
  | annotate n note new kind made =>
    -- the insertion is newer than the receiver, and it is not the constructor
    obtain ⟨hstore, -, hconstructor⟩ := Draft.addNote_spec made
    obtain ⟨i, -, -, hmodify⟩ := Store.addTypeAnnotation_eq_ok.mp hstore
    refine ⟨Draft.receiver?_eq_of_get? hconstructor (fun c hc => hd.get?_addNote kind made hc),
      fun r hr => ?_⟩
    rw [hmodify]
    exact Store.get?_modify_of_ne (Nat.ne_of_gt (Nat.lt_of_lt_of_le (hbase r hr) new))

/-- **All steps elsewhere leave the receiver alone**, if what they make is new. -/
theorem Steps.keepsReceiver (h : Steps ctx p base w w') (hd : w.draft.Sound className)
    (hfits : p.Fits className) (hp : ¬ p.Receives ctx) (hbase : w.draft.store.size ≤ base) :
    w.draft.KeepsReceiver w'.draft := by
  have hlt : ∀ r, w.draft.receiver? = some r → r < base := fun r hr => by
    obtain ⟨criteria, type, inner, hr⟩ := hd.get?_receiver hr
    exact Nat.lt_of_lt_of_le (Store.lt_size hr) hbase
  induction h with
  | refl => exact .refl _
  | tail hsteps hlast ih =>
    refine ih.trans (hlast.keepsReceiver (Steps.sound hsteps hfits hd).1 hp (fun r hr => ?_))
    exact hlt r (ih.1 ▸ hr)

end Frame

end AnnotationPlan
