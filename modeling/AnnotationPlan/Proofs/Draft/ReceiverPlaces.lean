import AnnotationPlan.Proofs.Draft.Placing
import AnnotationPlan.Proofs.Draft.Receiving

/-!
# Where there are receivers

A receiver is made for every spot on a receiver that has annotations, and for one that has
none if there are annotations of their own within its type (`Site.receiverSpots`). Whether
there is a receiver for the same method already is not asked. Only the constructor that is
written for a class takes up what is made for annotations on its receiver, and has one
receiver for all of them (`Spot.isShared`).

So what a visit adds to the receivers in the output, and to the one that the constructor
has, is told by the spots of the site alone (`Draft.Gains`): a receiver each for those that
are not shared, and the first of those that are, if the constructor has none yet. At spots
on anything else no receiver comes into the output, since none is in hand
(`Step.receiverPlaces`).
-/

namespace AnnotationPlan

open Insertion

/-! ## What is asked for -/

/-- Whether annotations on a position become insertions of their own. -/
def Form.isSingle : Form → Bool
  | .single => true
  | _ => false

namespace Spot

/-- **Whether what a spot asks for goes to the constructor**, given whether one is written
for the class: the annotations on its receiver do. -/
def isShared (writes : Bool) (p : Spot) : Bool :=
  writes && p.criteria.compose.targetsImplicitConstructor && !p.annotations.isEmpty

/-- The places of the spots that have a receiver of their own. -/
def ownPlaces (writes : Bool) (spots : List Spot) : List CriteriaList :=
  (spots.filter (fun p => !p.isShared writes)).map (·.criteria)

/-- The place of the first spot that is shared. -/
def sharedPlace? (writes : Bool) (spots : List Spot) : Option CriteriaList :=
  (spots.find? (isShared writes)).map (·.criteria)

end Spot

namespace Site

/-- Whether there are annotations within the type of a site that become insertions of their
own. -/
def wraps (s : Site) : Bool :=
  s.nested.any (fun q => (Spot.within q).form.isSingle && !q.annotations.isEmpty)

/-- **The spots of a site that a receiver is made for.** -/
def receiverSpots (s : Site) : List Spot :=
  (s.nested.map Spot.within).filter (fun p => p.isReceiver && !p.annotations.isEmpty)
    ++ [s.spot].filter (fun p => p.isReceiver && (!p.annotations.isEmpty || s.wraps))

end Site

/-! ## What there is -/

/-- The place of a receiver. -/
def Insertion.receiverPlace? : Insertion → Option CriteriaList
  | .receiver place _ _ => some place
  | _ => none

/-- A receiver stays one, and stays at its place. -/
theorem Insertion.Grows.receiverPlace?_eq {i j : Insertion} (h : i.Grows j) :
    j.receiverPlace? = i.receiverPlace? := by
  cases h <;> rfl

namespace Store

/-- **The place of a receiver**; nothing for other insertions. -/
def receiverPlace? (s : Store) (id : InsertionId) : Option CriteriaList :=
  (s.get? id).bind Insertion.receiverPlace?

theorem receiverPlace?_of_get? {s : Store} {id : InsertionId} {i : Insertion}
    (h : s.get? id = some i) : s.receiverPlace? id = i.receiverPlace? := by
  unfold receiverPlace?
  rw [h]
  rfl

/-- What is in a store that grows stays where it is. -/
theorem Grows.receiverPlace?_eq {s s' : Store} (h : s.Grows s') {id : InsertionId}
    (hid : id < s.size) : s'.receiverPlace? id = s.receiverPlace? id := by
  obtain ⟨i, hi⟩ := exists_get? hid
  obtain ⟨j, hj, hgrown⟩ := h id i hi
  rw [receiverPlace?_of_get? hi, receiverPlace?_of_get? hj, hgrown.receiverPlace?_eq]

/-- An insertion that is no receiver. -/
def NoReceiver (s : Store) (id : InsertionId) : Prop :=
  s.Has (fun i => i.receiverPlace? = none) id

theorem NoReceiver.grows {s s' : Store} {id : InsertionId} (h : s.NoReceiver id)
    (hgrows : s.Grows s') : s'.NoReceiver id :=
  Has.grows h hgrows (fun _ _ hg hi => hg.receiverPlace?_eq.trans hi)

theorem NoReceiver.receiverPlace?_eq {s : Store} {id : InsertionId} (h : s.NoReceiver id) :
    s.receiverPlace? id = none := by
  obtain ⟨i, hi, hplace⟩ := h
  exact (receiverPlace?_of_get? hi).trans hplace

end Store

namespace Draft

variable {ctx : Context} {p : Spot} {className : Option String} {d e f : Draft}
  {id : InsertionId} {ids inner : List InsertionId} {n : Note} {notes : List Note}

/-- **The places of the receivers in the output**, in order. -/
def receiverPlaces (d : Draft) : List CriteriaList :=
  d.placed.reverse.filterMap d.store.receiverPlace?

/-- **The place of the receiver that the constructor has.** -/
def heldPlace? (d : Draft) : Option CriteriaList := d.receiver?.bind d.store.receiverPlace?

/-- The receivers in the output are those that were there and those that are put there. -/
theorem receiverPlaces_place (ids : List InsertionId) (hd : d.IsBounded)
    (hgrows : d.store.Grows e.store) (hplaced : e.placed = ids.reverse ++ d.placed) :
    e.receiverPlaces = d.receiverPlaces ++ ids.filterMap e.store.receiverPlace? := by
  unfold receiverPlaces
  rw [hplaced, List.reverse_append, List.reverse_reverse, List.filterMap_append]
  refine congrArg (· ++ _) (List.filterMap_congr (fun j hj => ?_))
  exact hgrows.receiverPlace?_eq (hd j (List.mem_reverse.mp hj))

/-- If nothing else is put into the output no receiver comes there. -/
theorem receiverPlaces_keep (hd : d.IsBounded) (hgrows : d.store.Grows e.store)
    (hplaced : e.placed = d.placed) : e.receiverPlaces = d.receiverPlaces := by
  rw [receiverPlaces_place [] hd hgrows hplaced, List.filterMap_nil, List.append_nil]

/-- Nor if what is put there is no receiver. -/
theorem receiverPlaces_place_noReceiver (ids : List InsertionId) (hd : d.IsBounded)
    (hgrows : d.store.Grows e.store) (hplaced : e.placed = ids.reverse ++ d.placed)
    (hids : ∀ j ∈ ids, e.store.NoReceiver j) :
    e.receiverPlaces = d.receiverPlaces := by
  rw [receiverPlaces_place ids hd hgrows hplaced,
    List.filterMap_eq_nil_iff.mpr (fun j hj => (hids j hj).receiverPlace?_eq), List.append_nil]

/-- A receiver that is left alone stays where it is. -/
theorem KeepsReceiver.heldPlace?_eq (h : d.KeepsReceiver e) : e.heldPlace? = d.heldPlace? := by
  unfold heldPlace?
  rw [h.1]
  cases hr : d.receiver? with
  | none => rfl
  | some r =>
    show e.store.receiverPlace? r = d.store.receiverPlace? r
    unfold Store.receiverPlace?
    rw [h.2 r hr]

/-! ## Gains -/

/-- **The receivers that spots bring**: those that are not shared have one each, and of those
that are the first one's goes to the constructor if it has none. -/
structure Gains (ctx : Context) (d : Draft) (spots : List Spot) (e : Draft) : Prop where
  /-- The receivers in the output. -/
  placed : e.receiverPlaces = d.receiverPlaces ++ Spot.ownPlaces ctx.writesConstructor spots
  /-- The receiver of the constructor. -/
  held : e.heldPlace? = d.heldPlace?.or (Spot.sharedPlace? ctx.writesConstructor spots)

namespace Gains

variable {xs ys : List Spot}

/-- Without spots nothing is gained. -/
theorem nil (hplaced : e.receiverPlaces = d.receiverPlaces) (hheld : e.heldPlace? = d.heldPlace?) :
    d.Gains ctx [] e :=
  ⟨hplaced.trans (List.append_nil _).symm, hheld.trans (Option.or_none).symm⟩

/-- One spot after another. -/
theorem trans (h : d.Gains ctx xs e) (h' : e.Gains ctx ys f) : d.Gains ctx (xs ++ ys) f := by
  refine ⟨?_, ?_⟩
  · rw [h'.placed, h.placed, List.append_assoc, Spot.ownPlaces, Spot.ownPlaces, Spot.ownPlaces,
      List.filter_append, List.map_append]
  · rw [h'.held, h.held, Option.or_assoc, Spot.sharedPlace?, Spot.sharedPlace?, Spot.sharedPlace?,
      List.find?_append, Option.map_or]

/-- A spot that is not shared. -/
theorem own (hp : p.isShared ctx.writesConstructor = false)
    (hplaced : e.receiverPlaces = d.receiverPlaces ++ [p.criteria])
    (hheld : e.heldPlace? = d.heldPlace?) : d.Gains ctx [p] e := by
  refine ⟨?_, ?_⟩
  · simpa [Spot.ownPlaces, hp] using hplaced
  · simpa [Spot.sharedPlace?, hp] using hheld

/-- A spot that is shared. -/
theorem shared (hp : p.isShared ctx.writesConstructor = true)
    (hplaced : e.receiverPlaces = d.receiverPlaces)
    (hheld : e.heldPlace? = d.heldPlace?.or (some p.criteria)) : d.Gains ctx [p] e := by
  refine ⟨?_, ?_⟩
  · simpa [Spot.ownPlaces, hp] using hplaced
  · simpa [Spot.sharedPlace?, hp] using hheld

end Gains

end Draft

/-! ## Spots on anything else -/

/-- **There is no receiver in hand.** -/
def Work.HoldsNoReceiver (w : Work) : Prop := ∀ j ∈ w.hand, w.draft.store.NoReceiver j

/-- Taking an insertion in hand that is no receiver. -/
theorem Work.HoldsNoReceiver.push {d d' : Draft} {hand : List InsertionId}
    {written : List (InsertionId × InsertionId)} {i : Insertion}
    (h : Work.HoldsNoReceiver ⟨d, hand, written⟩) (hi : i.receiverPlace? = none)
    (hstore : d'.store = d.store.push i) :
    Work.HoldsNoReceiver ⟨d', hand ++ [d.store.size], written⟩ := by
  show ∀ j ∈ hand ++ [d.store.size], d'.store.NoReceiver j
  rw [hstore]
  intro j hj
  rcases List.mem_append.mp hj with hj | hj
  · exact (h j hj).grows (Store.grows_push _ _)
  · obtain rfl := List.mem_singleton.mp hj
    exact ⟨i, Store.get?_push_size _ _, hi⟩

section Elsewhere

variable {ctx : Context} {p : Spot} {base : Nat} {className : Option String} {w w' : Work}

/-- **A step at a spot that is on no receiver** puts none into the output, and takes none in
hand. -/
theorem Step.receiverPlaces (h : Step ctx p base w w') (hd : w.draft.Sound className)
    (hform : p.form ≠ .receiver) (hhand : w.HoldsNoReceiver) :
    w'.HoldsNoReceiver ∧ w'.draft.receiverPlaces = w.draft.receiverPlaces := by
  have hgrows := h.grows hd
  have hbounded : w.draft.IsBounded := hd.placed_lt
  have hkeep := Draft.receiverPlaces_keep hbounded hgrows
  have hsettle : w'.hand ⊆ w.hand → w'.HoldsNoReceiver :=
    fun hsub j hj => (hhand j (hsub hj)).grows hgrows
  cases h with
  | single n form note => exact ⟨hhand.push rfl rfl, hkeep rfl⟩
  | receiver text inner form within => exact absurd form hform
  | new text inner form within => exact ⟨hhand.push rfl rfl, hkeep rfl⟩
  | @cast d hand inner written store type text form within made =>
    refine ⟨fun j hj => ?_, hkeep rfl⟩
    obtain ⟨-, ⟨decorated, hcast⟩, hclose, -⟩ := Store.pushCast_spec made
    rcases List.mem_append.mp hj with hj | hj
    · exact (hhand j (List.mem_append_left _ hj)).grows hgrows
    · rcases List.mem_cons.mp hj with rfl | hj
      · exact ⟨_, hcast, rfl⟩
      · obtain rfl := List.mem_singleton.mp hj
        exact ⟨_, hclose, rfl⟩
  | record id n known => exact ⟨hsettle (List.Subset.refl _), hkeep rfl⟩
  | @construct d hand written store n note on none made =>
    obtain ⟨name, -, rfl⟩ := Store.pushConstructor_eq_ok.mp made
    refine ⟨hsettle (List.Subset.refl _),
      Draft.receiverPlaces_place_noReceiver [d.store.size] hbounded hgrows rfl ?_⟩
    exact List.forall_mem_singleton.mpr ⟨_, Store.get?_push_size _ _, rfl⟩
  | place ids paired =>
    exact ⟨hsettle (List.subset_append_left _ _), Draft.receiverPlaces_place_noReceiver ids
      hbounded hgrows rfl (fun j hj => hhand j (List.mem_append_right _ hj))⟩
  | fold n note on result single constructor made =>
    exact ⟨hsettle (List.subset_append_left _ _), hkeep rfl⟩
  | declare n ids note on declaration kind paired constructor made =>
    exact ⟨hsettle (List.subset_append_left _ _), hkeep rfl⟩
  | receive on form kind constructor made => exact absurd form hform
  | annotate n note new kind made =>
    exact ⟨hsettle (List.Subset.refl _), hkeep (Draft.addNote_spec made).2.1⟩

/-- **At a spot that is on no receiver nothing is gained.** -/
theorem Steps.gains (h : Steps ctx p base w w') (hd : w.draft.Sound className)
    (hfits : p.Fits className) (hform : p.form ≠ .receiver) (hhand : w.HoldsNoReceiver)
    (hbase : w.draft.store.size ≤ base) :
    w'.HoldsNoReceiver ∧ w.draft.Gains ctx [] w'.draft := by
  have hreceiver : w'.HoldsNoReceiver ∧ w'.draft.receiverPlaces = w.draft.receiverPlaces := by
    clear hbase
    induction h with
    | refl => exact ⟨hhand, rfl⟩
    | tail hsteps hlast ih =>
      obtain ⟨hkept, hplaces⟩ :=
        hlast.receiverPlaces (Steps.sound hsteps hfits hd).1 hform ih.1
      exact ⟨hkept, hplaces.trans ih.2⟩
  have hheld := h.keepsReceiver hd hfits (fun hp => hform hp.1) hbase
  exact ⟨hreceiver.1, .nil hreceiver.2 hheld.heldPlace?_eq⟩

end Elsewhere

end AnnotationPlan
