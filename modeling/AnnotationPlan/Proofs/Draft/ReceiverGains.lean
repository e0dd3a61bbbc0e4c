import AnnotationPlan.Proofs.Draft.Making
import AnnotationPlan.Proofs.Draft.ReceiverPlaces

/-!
# What a visit adds to the receivers

At a spot on a receiver one is made with the first annotation, and whether it goes to the
constructor is decided before the others are added to it. So it comes into the output in the
end or not at all (`Draft.Sound.gains_gather`). A spot without annotations gets a receiver
for the annotations within its type, and that one never goes to the constructor.

Going through the spots of a site in the order in which they are worked off gives what a
visit adds (`Draft.Sound.gains_visit`), and going through the sites what all visits to them
do.
-/

namespace AnnotationPlan

open Insertion

/-! ## Spots on a receiver -/

namespace Draft

variable {ctx : Context} {p : Spot} {className : Option String} {d e : Draft} {l : CriteriaList}
  {id c : InsertionId} {inner : List InsertionId} {n : Note} {notes : List Note}

/-- **The receivers are the same**: those in the output, and the one that the constructor
has. -/
structure SameReceivers (d e : Draft) : Prop where
  placed : e.placed = d.placed
  constructor : e.constructor = d.constructor
  places : e.store.receiverPlace? = d.store.receiverPlace?
  receivers : e.store.receiverOf = d.store.receiverOf

namespace SameReceivers

theorem receiverPlaces_eq (h : d.SameReceivers e) : e.receiverPlaces = d.receiverPlaces := by
  rw [receiverPlaces, receiverPlaces, h.placed, h.places]

theorem heldPlace?_eq (h : d.SameReceivers e) : e.heldPlace? = d.heldPlace? := by
  rw [heldPlace?, heldPlace?, receiver?, receiver?, h.constructor, h.places, h.receivers]

end SameReceivers

/-- Adding a note to an insertion changes its type only. -/
theorem sameReceivers_addNote (h : addNote id d n = .ok e) : d.SameReceivers e := by
  obtain ⟨hstore, hplaced, hconstructor⟩ := addNote_spec h
  obtain ⟨-, -, -, hmodify⟩ := Store.addTypeAnnotation_eq_ok.mp hstore
  have hread : ∀ {α : Type} (read : Insertion → Option α),
      (∀ i, read (i.mapType (JavaType.annotate n.text)) = read i) →
      ∀ j, (e.store.get? j).bind read = (d.store.get? j).bind read := by
    intro α read hread j
    rw [hmodify, Store.get?_modify]
    split
    case isTrue => cases d.store.get? j <;> simp [hread]
    case isFalse => rfl
  refine ⟨hplaced, hconstructor, funext (hread _ ?_), funext (hread _ ?_)⟩
  all_goals rintro (_ | _ | _ | _ | _ | _) <;> rfl

/-- Further notes leave the receivers where they are. -/
theorem sameReceivers_addNotes : ∀ {notes : List Note} {d : Draft},
    notes.foldlM (addNote id) d = .ok e → d.SameReceivers e
  | [], d, h => by
    cases h
    exact ⟨rfl, rfl, rfl, rfl⟩
  | n :: rest, d, h => by
    rw [List.foldlM_cons] at h
    obtain ⟨f, hf, h⟩ := bind_eq_ok.mp h
    have hfirst := sameReceivers_addNote hf
    have hrest := sameReceivers_addNotes h
    exact ⟨hrest.placed.trans hfirst.placed, hrest.constructor.trans hfirst.constructor,
      hrest.places.trans hfirst.places, hrest.receivers.trans hfirst.receivers⟩

/-- Asking for the constructor puts no receiver into the output. -/
theorem receiverPlaces_ensureConstructor (hd : d.IsBounded)
    (h : d.ensureConstructor l = .ok (e, c)) :
    d.store.Grows e.store ∧ e.receiverPlaces = d.receiverPlaces := by
  unfold ensureConstructor at h
  split at h
  case h_1 =>
    cases h
    exact ⟨.refl _, rfl⟩
  case h_2 =>
    obtain ⟨store, hstore, h⟩ := bind_eq_ok.mp h
    obtain ⟨name, -, rfl⟩ := Store.pushConstructor_eq_ok.mp hstore
    cases h
    have hgrows := Store.grows_push d.store (.constructor l (.named (Name.simple name)) none [])
    refine ⟨hgrows, receiverPlaces_place_noReceiver [d.store.size] hd hgrows rfl ?_⟩
    exact List.forall_mem_singleton.mpr ⟨_, Store.get?_push_size _ _, rfl⟩

/-- The draft in which a receiver was made with its first note. -/
def withReceiver (d : Draft) (p : Spot) (n : Note) (inner : List InsertionId) : Draft :=
  ({ d with store := d.store.pushReceiver (some n.text) p.criteria inner } : Draft).record
    d.store.size n

section Made

variable (hd : d.Sound className)
include hd

/-- A receiver that the constructor does not take up. -/
theorem Sound.gains_own (hp : p.isShared ctx.writesConstructor = false)
    (h : notes.foldlM (addNote d.store.size) (d.withReceiver p n inner) = .ok e) :
    d.Gains ctx [p] (e.place [d.store.size]) := by
  have hsame := sameReceivers_addNotes h
  have hmade : e.store.receiverPlace? d.store.size = some p.criteria := by
    rw [hsame.places]
    exact Store.receiverPlace?_of_get? (Store.get?_push_size _ _)
  refine .own hp ?_ ?_
  · have hplaces : (e.place [d.store.size]).receiverPlaces
        = e.receiverPlaces ++ [d.store.size].filterMap e.store.receiverPlace? := by
      unfold receiverPlaces place
      rw [List.reverse_append, List.reverse_reverse, List.filterMap_append]
    have hkeep : (d.withReceiver p n inner).receiverPlaces = d.receiverPlaces :=
      receiverPlaces_keep hd.placed_lt (Store.grows_push _ _) rfl
    rw [hplaces, List.filterMap_cons_some hmade, hsame.receiverPlaces_eq, hkeep,
      List.filterMap_nil]
  · refine hsame.heldPlace?_eq.trans (KeepsReceiver.heldPlace?_eq ?_)
    exact hd.keepsReceiver_of_lt rfl (fun j hj => Store.get?_push_of_lt hj _)

/-- **A receiver that the constructor takes up** does not come into the output, and the
constructor has it if it has no other. -/
theorem Sound.gains_absorb (hp : p.isShared ctx.writesConstructor = true)
    (on : ctx.OnConstructor p.toPosition) {absorbed : Bool}
    (h : absorb ctx p.criteria p.criteria.compose (d.withReceiver p n inner) n
      [d.store.size] = .ok (e, absorbed)) : absorbed = true ∧ d.Gains ctx [p] e := by
  have hget : (d.withReceiver p n inner).store.get? d.store.size
      = some (.receiver p.criteria (JavaType.unnamed.annotate n.text) inner) :=
    Store.get?_push_size _ _
  have hpushed : d.store.Grows (d.withReceiver p n inner).store := Store.grows_push _ _
  have hbounded : (d.withReceiver p n inner).IsBounded :=
    fun j hj => Nat.lt_of_lt_of_le (hd.placed_lt j hj) hpushed.size_le
  have hkept : d.KeepsReceiver (d.withReceiver p n inner) :=
    hd.keepsReceiver_of_lt rfl (fun j hj => Store.get?_push_of_lt hj _)
  rw [absorb_of_on on] at h
  obtain ⟨⟨f, c⟩, hensure, h⟩ := bind_eq_ok.mp h
  obtain ⟨hkept', hc, hold⟩ := keepsReceiver_ensureConstructor hensure
  obtain ⟨hgrows, hplaces⟩ := receiverPlaces_ensureConstructor hbounded hensure
  have hget' := (hold _ (Store.lt_size hget)).trans hget
  dsimp only at h hget'
  rw [absorbInto, hget'] at h
  obtain ⟨g, hreceive, h⟩ := bind_eq_ok.mp h
  obtain ⟨⟨kept, hattach⟩, hplaced, -⟩ := absorbReceiver_spec hreceive
  obtain ⟨hreceiver, -⟩ := absorbReceiver_keeps hc hreceive
  have hgrows' := Store.grows_attachReceiver hattach
  -- it is not in the output, so taking it out again changes nothing
  have hlater := later_ensureConstructor hensure
  have hnot : d.store.size ∉ g.placed := by
    obtain ⟨-, new, hnew, hmade⟩ := hlater
    rw [hplaced, hnew]
    intro hmem
    rcases List.mem_append.mp hmem with hmem | hmem
    · exact Nat.not_lt.mpr (hmade _ hmem).1 (Store.lt_size hget)
    · exact Nat.lt_irrefl _ (hd.placed_lt _ hmem)
  rw [unplace_of_notMem (List.forall_mem_singleton.mpr hnot)] at h
  cases h
  refine ⟨rfl, .shared hp ?_ ?_⟩
  · rw [receiverPlaces_keep (hlater.isBounded hbounded) hgrows' hplaced, hplaces,
      receiverPlaces_keep hd.placed_lt hpushed rfl]
  · have hall := (hpushed.trans hgrows).trans hgrows'
    unfold heldPlace?
    rw [hreceiver, hkept'.1, hkept.1]
    cases hr : d.receiver? with
    | none =>
      refine ((hgrows.trans hgrows').receiverPlace?_eq (Store.lt_size hget)).trans ?_
      exact Store.receiverPlace?_of_get? hget
    | some r =>
      obtain ⟨place, type, inner', hrget⟩ := hd.get?_receiver hr
      refine (hall.receiverPlace?_eq (Store.lt_size hrget)).trans ?_
      show d.store.receiverPlace? r = (d.store.receiverPlace? r).or (some p.criteria)
      rw [Store.receiverPlace?_of_get? hrget]
      rfl

end Made

/-- A spot on a receiver without annotations gains one if there are insertions of their own
within its type. -/
theorem Sound.gains_gather_nil (hd : d.Sound className) (hnone : p.annotations = [])
    (h : gather ctx .receiver p.criteria p.criteria.compose inner d [] = .ok e) :
    d.Gains ctx ([p].filter (fun p => !p.annotations.isEmpty || !inner.isEmpty)) e := by
  have hshared : p.isShared ctx.writesConstructor = false := by
    unfold Spot.isShared
    rw [hnone]
    exact Bool.and_false _
  rw [gather] at h
  cases inner with
  | nil =>
    cases h
    rw [List.filter_cons_of_neg (by rw [hnone]; exact Bool.false_ne_true)]
    exact .nil rfl rfl
  | cons j rest =>
    obtain ⟨⟨f, made⟩, hf, h⟩ := bind_eq_ok.mp h
    cases hf
    cases h
    rw [List.filter_cons_of_pos (by simp)]
    have hgrows := Store.grows_push d.store (.receiver p.criteria .unnamed (j :: rest))
    have hget := Store.get?_push_size d.store (.receiver p.criteria .unnamed (j :: rest))
    refine .own hshared ?_ (KeepsReceiver.heldPlace?_eq ?_)
    · exact (receiverPlaces_place [d.store.size] hd.placed_lt hgrows rfl).trans
        (congrArg _ (List.filterMap_cons_some (Store.receiverPlace?_of_get? hget)))
    · exact hd.keepsReceiver_of_lt rfl (fun k hk => Store.get?_push_of_lt hk _)

/-- **A spot on a receiver with annotations** gains one. -/
theorem Sound.gains_gather_cons (hd : d.Sound className) (hform : p.form = .receiver)
    (hsome : p.annotations.isEmpty = false)
    (h : gather ctx .receiver p.criteria p.criteria.compose inner d (n :: notes) = .ok e) :
    d.Gains ctx [p] e := by
  obtain ⟨⟨made, ids⟩, hcreate, h⟩ := bind_eq_ok.mp h
  cases hcreate
  obtain ⟨⟨f, absorbed⟩, habsorb, h⟩ := bind_eq_ok.mp h
  obtain ⟨g, hadd, he⟩ := bind_eq_ok.mp h
  by_cases on : ctx.OnConstructor p.toPosition
  · have hshared : p.isShared ctx.writesConstructor = true := by
      obtain ⟨-, hwrites, himplicit⟩ := Context.onConstructor_iff.mp on
      simp [Spot.isShared, hwrites, himplicit, hsome]
    obtain ⟨rfl, hgains⟩ := hd.gains_absorb hshared on habsorb
    have hsame := sameReceivers_addNotes hadd
    cases he
    exact ⟨hsame.receiverPlaces_eq.trans hgains.placed, hsame.heldPlace?_eq.trans hgains.held⟩
  · have hshared : p.isShared ctx.writesConstructor = false := by
      have hreceiver := Spot.form_eq_receiver_iff.mp hform
      simp only [Spot.isReceiver, Bool.and_eq_true, Bool.not_eq_true'] at hreceiver
      rw [← Bool.not_eq_true]
      intro hshared
      simp only [Spot.isShared, Bool.and_eq_true] at hshared
      exact on (Context.onConstructor_iff.mpr ⟨hreceiver.1, hshared.1.1, hshared.1.2⟩)
    rw [absorb_of_not_on on] at habsorb
    cases habsorb
    cases he
    exact hd.gains_own hshared hadd

/-- **A spot on a receiver** gains one if it has annotations, or if there are insertions of
their own within its type. -/
theorem Sound.gains_gather (hd : d.Sound className) (hform : p.form = .receiver)
    (hnotes : notes = [] ↔ p.annotations = [])
    (h : gather ctx p.form p.criteria p.criteria.compose inner d notes = .ok e) :
    d.Gains ctx ([p].filter (fun p => !p.annotations.isEmpty || !inner.isEmpty)) e := by
  rw [hform] at h
  cases notes with
  | nil => exact hd.gains_gather_nil (hnotes.mp rfl) h
  | cons n rest =>
    have hsome : p.annotations.isEmpty = false := by
      rw [← Bool.not_eq_true, List.isEmpty_iff, ← hnotes]
      exact List.cons_ne_nil _ _
    rw [List.filter_cons_of_pos (by rw [hsome]; rfl), List.filter_nil]
    exact hd.gains_gather_cons hform hsome h

end Draft

/-! ## Visits -/

namespace Draft

variable {ctx : Context} {p : Spot} {className : Option String} {d e : Draft} {s : Site}
  {ids inner : List InsertionId} {withhold : Bool} {n : Note} {notes : List Note}

/-- For every note an insertion of its own is made. -/
theorem addSingles_eq_nil_iff {l : CriteriaList} {criteria : Criteria}
    (h : addSingles ctx l criteria withhold d notes = .ok (e, ids)) : ids = [] ↔ notes = [] := by
  cases notes with
  | nil =>
    cases h
    exact iff_of_true rfl rfl
  | cons n rest =>
    obtain ⟨⟨f, id⟩, -, h⟩ := bind_eq_ok.mp h
    obtain ⟨⟨g, more⟩, -, h⟩ := bind_eq_ok.mp h
    cases h
    exact iff_of_false (List.cons_ne_nil _ _) (List.cons_ne_nil _ _)

/-- Annotations within a type are no receivers. -/
theorem noReceiver_of_isWithin {id : InsertionId} (h : d.store.Has IsWithin id) :
    d.store.NoReceiver id := by
  obtain ⟨i, hi, hsingle, -⟩ := h
  refine ⟨i, hi, ?_⟩
  cases i <;> first | rfl | exact hsingle.elim

/-- There are notes of a position exactly if there are annotations on it. -/
theorem notes_eq_nil_iff {q : Position}
    (h : ctx.formatter.notes q.criteria q.annotations = .ok notes) :
    notes = [] ↔ q.annotations = [] :=
  (Formatter.notes_yields ctx.formatter q.criteria q.annotations).of_ok h

/-- **What a position within a type gains**, and whether insertions of their own are made
there. -/
theorem Sound.gains_visitNested (hd : d.Sound className) {q : Position}
    (hp : (Spot.within q).Fits className)
    (hpath : ∃ path, q.criteria.compose.typePath? = some path)
    (h : visitNested ctx withhold d q = .ok (e, ids)) :
    d.Gains ctx ([Spot.within q].filter (fun p => p.isReceiver && !p.annotations.isEmpty)) e
    ∧ (!ids.isEmpty) = ((Spot.within q).form.isSingle && !q.annotations.isEmpty) := by
  have hsteps := (visitNested_yields hd hp hpath withhold).of_ok h
  obtain ⟨notes, hnotes, h⟩ := bind_eq_ok.mp h
  have hnil := notes_eq_nil_iff hnotes
  by_cases hform : (Spot.within q).form = .receiver
  · have hreceiver := Spot.form_eq_receiver_iff.mp hform
    rw [show Form.classify q.criteria.compose none = .receiver from hform] at h
    obtain ⟨f, hf, h⟩ := bind_eq_ok.mp h
    cases h
    have hgains := hd.gains_gather (p := .within q) hform hnil (hform ▸ hf)
    refine ⟨?_, ?_⟩
    · simpa [List.filter_cons, hreceiver] using hgains
    · rw [hform]
      rfl
  · have hnot : (Spot.within q).isReceiver = false := by
      rw [← Bool.not_eq_true, ← Spot.form_eq_receiver_iff]
      exact hform
    refine ⟨?_, ?_⟩
    · rw [List.filter_cons_of_neg (by rw [hnot]; exact Bool.false_ne_true)]
      exact ((hsteps.2 [] []).gains hd hp hform (fun j hj => absurd hj List.not_mem_nil)
        (Nat.le_refl _)).2
    · cases hclass : (Spot.within q).form with
      | single =>
        rw [show Form.classify q.criteria.compose none = .single from hclass] at h
        have hids := (addSingles_eq_nil_iff h).trans hnil
        simp only [Form.isSingle, Bool.true_and]
        rw [Bool.eq_iff_iff]
        simpa using not_congr hids
      | _ =>
        rw [show Form.classify q.criteria.compose none = _ from hclass] at h
        obtain ⟨f, hf, h⟩ := bind_eq_ok.mp h
        cases h
        rfl

/-- **What the positions within a type gain.** -/
theorem gains_visitAllNested (hs : s.Fits className) :
    ∀ {positions : List Position} {d : Draft} {ids : List InsertionId}, positions ⊆ s.nested →
      d.Sound className → visitAllNested ctx s.withholds d positions = .ok (e, ids) →
      d.Gains ctx ((positions.map Spot.within).filter
          (fun p => p.isReceiver && !p.annotations.isEmpty)) e
      ∧ (!ids.isEmpty)
        = positions.any (fun q => (Spot.within q).form.isSingle && !q.annotations.isEmpty)
  | [], d, _, _, _, h => by
    cases h
    exact ⟨.nil rfl rfl, rfl⟩
  | q :: rest, d, _, hsub, hd, h => by
    obtain ⟨⟨f, first⟩, hf, h⟩ := bind_eq_ok.mp h
    obtain ⟨⟨g, more⟩, hg, h⟩ := bind_eq_ok.mp h
    cases h
    have hq : q ∈ s.nested := hsub List.mem_cons_self
    have hp := hs.spots _ (Site.within_mem_spots hq)
    obtain ⟨-, hsteps⟩ := (visitNested_yields hd hp (hs.within q hq) s.withholds).of_ok hf
    have hsound := ((hsteps [] []).sound hp hd).1
    obtain ⟨hgains, hids⟩ := hd.gains_visitNested hp (hs.within q hq) hf
    obtain ⟨hgains', hmore⟩ := gains_visitAllNested hs (List.subset_of_cons_subset hsub) hsound hg
    refine ⟨?_, ?_⟩
    · have hall := hgains.trans hgains'
      rwa [← List.filter_append] at hall
    · rw [List.any_cons, ← hids, ← hmore]
      cases first <;> rfl

/-- **What the site itself gains.** -/
theorem Sound.gains_visitOwn (hd : d.Sound className) (hs : s.Fits className)
    (hinner : ∀ j ∈ inner, d.store.Has IsWithin j) (h : visitOwn ctx s d inner = .ok e) :
    d.Gains ctx ([s.spot].filter
      (fun p => p.isReceiver && (!p.annotations.isEmpty || !inner.isEmpty))) e := by
  have hp := hs.spots _ s.spot_mem_spots
  have hsteps := ((visitOwn_yields hd hs hinner).of_ok h).2
  have hfree : ∀ j ∈ inner, d.store.NoReceiver j := fun j hj => noReceiver_of_isWithin (hinner j hj)
  by_cases hform : s.spot.form = .receiver
  · have hreceiver := Spot.form_eq_receiver_iff.mp hform
    obtain ⟨notes, hnotes, h⟩ := bind_eq_ok.mp h
    have hrelease := ((release_steps ctx hs hinner d.store.size []).sound hp hd).1
    have hgather : gather ctx s.spot.form s.criteria s.criteria.compose inner
        (release s d inner) notes = .ok e := by
      rw [hform] at h ⊢
      exact h
    have hgains := hrelease.gains_gather (p := s.spot) hform (notes_eq_nil_iff hnotes) hgather
    -- what was withheld is put into the output first, and is no receiver
    have hplaces : (release s d inner).receiverPlaces = d.receiverPlaces := by
      unfold release
      split
      · exact receiverPlaces_place_noReceiver inner hd.placed_lt (.refl _) rfl hfree
      · rfl
    have hheld : (release s d inner).heldPlace? = d.heldPlace? := by
      unfold release
      split <;> rfl
    have hall := Gains.trans (.nil hplaces hheld) hgains
    simpa [List.filter_cons, hreceiver] using hall
  · have hnot : s.spot.isReceiver = false := by
      rw [← Bool.not_eq_true, ← Spot.form_eq_receiver_iff]
      exact hform
    rw [List.filter_cons_of_neg (by rw [hnot]; exact Bool.false_ne_true)]
    refine ((hsteps []).gains hd hp hform (fun j hj => ?_) (Nat.le_refl _)).2
    split at hj
    · exact hfree j hj
    · exact absurd hj List.not_mem_nil

/-- **What a visit gains** are the receivers for the spots that one is made for. -/
theorem Sound.gains_visit (hd : d.Sound className) (hs : s.Fits className)
    (h : visit ctx d s = .ok e) : d.Gains ctx s.receiverSpots e := by
  rw [visit_eq] at h
  obtain ⟨⟨f, inner⟩, hf, h⟩ := bind_eq_ok.mp h
  obtain ⟨hinner, hsteps⟩ :=
    (visitAllNested_yields hs (List.Subset.refl _) hd (Nat.le_refl _)).of_ok hf
  have hsound := ((hsteps [] []).sound hs hd).1
  obtain ⟨hnested, hwraps⟩ := gains_visitAllNested hs (List.Subset.refl _) hd hf
  have hown := hsound.gains_visitOwn hs hinner h
  rw [hwraps] at hown
  exact hnested.trans hown

/-- What the visits to several sites gain. -/
theorem gains_visits :
    ∀ {sites : List Site} {d : Draft}, (∀ s ∈ sites, s.Fits className) → d.Sound className →
      sites.foldlM (visit ctx) d = .ok e → d.Gains ctx (sites.flatMap Site.receiverSpots) e
  | [], d, _, _, h => by
    cases h
    exact .nil rfl rfl
  | s :: rest, d, hsites, hd, h => by
    obtain ⟨hs, hrest⟩ := List.forall_mem_cons.mp hsites
    rw [List.foldlM_cons] at h
    obtain ⟨f, hf, h⟩ := bind_eq_ok.mp h
    rw [List.flatMap_cons]
    exact (hd.gains_visit hs hf).trans (gains_visits hrest (hd.of_visit hs hf).1 h)

end Draft

end AnnotationPlan
