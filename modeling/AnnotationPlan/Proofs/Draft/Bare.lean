import AnnotationPlan.Proofs.AnnotationUse.Collisions
import AnnotationPlan.Proofs.Draft.Visit
import AnnotationPlan.Proofs.Store.Bare

/-!
# Drafts without the texts of annotations

The functions that work off sites pass texts on to the store and imports to the list of
imports, and look at neither. All that they look at – which annotations there are to write,
what is in the store but for the texts – is the same in two drafts that differ in texts and
imports only (`Draft.Alike`). So working off a site with two name policies takes such drafts
to such drafts, or fails alike (`Draft.visit_agree`).

Texts are compared at one place only, where a use is not written a second time; there the
policies agree since texts of uses that are the same coincide under both or under none
(`Formatter.notes_agree`).

On the way it is noted from where imports come: every import of a draft is that of a note.
-/

namespace AnnotationPlan

/-- **Two notes alike** but for their texts and imports. The imports of the first are of
some sort. -/
structure Note.Alike (imported : String → Prop) (n n' : Note) : Prop where
  use_eq : n.use = n'.use
  typeOnly_eq : n.typeOnly = n'.typeOnly
  imports : ∀ i ∈ n.imports, imported i

namespace Formatter

variable {definitions : DefinitionTable} {p q : NamePolicy}

/-- A note is what a formatter makes of its annotation use. -/
structure Writes (f : Formatter) (n : Note) : Prop where
  format_eq : f.format n.use = .ok ⟨n.text, n.imports⟩
  typeOnly_eq : ∃ d, f.definitions.get? n.use.definition = some d ∧ n.typeOnly = d.isTypeOnly

/-- Two notes of one use, written with either policy. -/
structure WritesBoth (definitions : DefinitionTable) (p q : NamePolicy) (n n' : Note) : Prop where
  use_eq : n.use = n'.use
  left : Writes ⟨definitions, p⟩ n
  right : Writes ⟨definitions, q⟩ n'

/-- The notes of one use are alike. -/
theorem WritesBoth.alike {n n' : Note} (h : WritesBoth definitions p q n n') :
    n.Alike (Imports ⟨definitions, p⟩) n' := by
  obtain ⟨d, hd, htypeOnly⟩ := h.left.typeOnly_eq
  obtain ⟨d', hd', htypeOnly'⟩ := h.right.typeOnly_eq
  rw [← h.use_eq] at hd'
  obtain rfl : d = d' := Option.some.inj (hd.symm.trans hd')
  refine ⟨h.use_eq, htypeOnly.trans htypeOnly'.symm, ?_⟩
  obtain ⟨w, -, himports⟩ := (format_agree definitions p p n.use).exists_of_ok h.left.format_eq
  exact himports

/-- A use is there already under one policy exactly if it is under the other. -/
theorem any_same_eq {u : AnnotationUse} {w w' : Formatted}
    (hw : format ⟨definitions, p⟩ u = .ok w) (hw' : format ⟨definitions, q⟩ u = .ok w') :
    ∀ {notes notes' : List Note}, List.Forall₂ (WritesBoth definitions p q) notes notes' →
      notes.any (fun n => n.text == w.text && n.use.same u)
        = notes'.any (fun n => n.text == w'.text && n.use.same u)
  | _, _, .nil => rfl
  | n :: _, n' :: _, .cons hn hrest => by
    rw [List.any_cons, List.any_cons, any_same_eq hw hw' hrest]
    refine congrArg (· || _) ?_
    rw [← hn.use_eq]
    cases hsame : n.use.same u with
    | false => rw [Bool.and_false, Bool.and_false]
    | true =>
      have hright := hn.right.format_eq
      rw [← hn.use_eq] at hright
      have htext := text_eq_iff_of_same hsame hn.left.format_eq hw hright hw'
      rw [Bool.and_true, Bool.and_true, Bool.eq_iff_iff, beq_iff_eq, beq_iff_eq]
      exact htext

/-- Writing one more use. -/
theorem addNote_agree (u : AnnotationUse) {notes notes' : List Note}
    (h : List.Forall₂ (WritesBoth definitions p q) notes notes') :
    Agree (List.Forall₂ (WritesBoth definitions p q)) (addNote ⟨definitions, p⟩ notes u)
      (addNote ⟨definitions, q⟩ notes' u) := by
  unfold addNote
  have hformat := format_agree definitions p q u
  cases hw : format ⟨definitions, p⟩ u with
  | error e =>
    rw [hw] at hformat
    cases hw' : format ⟨definitions, q⟩ u with
    | ok w' =>
      rw [hw'] at hformat
      exact hformat.elim
    | error e' =>
      rw [hw'] at hformat
      exact hformat
  | ok w =>
    obtain ⟨w', hw', -⟩ := hformat.exists_of_ok hw
    rw [hw']
    refine (definition_agree definitions p q u).bind (fun d _ hd => ?_)
    obtain ⟨rfl, hd⟩ := hd
    rw [any_same_eq hw hw' h]
    split
    · exact Agree.pure h
    · refine Agree.pure (List.rel_append h (.cons ?_ .nil))
      exact ⟨rfl, ⟨hw, d, hd, rfl⟩, ⟨hw', d, hd, rfl⟩⟩

/-- **The annotations on a position** are the same under two policies, but for their texts
and imports. -/
theorem notes_agree (place : CriteriaList) (uses : List AnnotationUse) :
    Agree (List.Forall₂ (Note.Alike (Imports ⟨definitions, p⟩)))
      (notes ⟨definitions, p⟩ place uses) (notes ⟨definitions, q⟩ place uses) := by
  have hnotes : Agree (List.Forall₂ (WritesBoth definitions p q))
      (uses.foldlM (addNote ⟨definitions, p⟩) []) (uses.foldlM (addNote ⟨definitions, q⟩) []) :=
    Agree.foldlM_self (fun _ _ u h => addNote_agree u h) uses .nil
  exact (hnotes.mono (fun _ _ h => h.imp (fun _ _ hn => hn.alike))).mapError_locate place.text

end Formatter

namespace Draft

variable {imported : String → Prop} {ctx ctx' : Context} {d d' : Draft} {n n' : Note}

/-- **Two drafts alike** but for the texts of annotations and for imports. The imports of
the first are of some sort. -/
structure Alike (imported : String → Prop) (d d' : Draft) : Prop where
  store : d.store.Alike d'.store
  placed_eq : d.placed = d'.placed
  sources_eq : d.sources = d'.sources
  warnings_eq : d.warnings = d'.warnings
  constructor_eq : d.constructor = d'.constructor
  imports : ∀ i ∈ d.imports, imported i

/-- Drafts that are alike, each with something that is the same for both. -/
abbrev AlikeWith {α : Type} (imported : String → Prop) (r r' : Draft × α) : Prop :=
  r.1.Alike imported r'.1 ∧ r.2 = r'.2

namespace Alike

theorem empty (imported : String → Prop) : Alike imported Draft.empty Draft.empty :=
  ⟨.empty, rfl, rfl, rfl, rfl, fun _ hi => absurd hi List.not_mem_nil⟩

theorem withStore (h : d.Alike imported d') {store store' : Store} (hstore : store.Alike store') :
    Alike imported { d with store } { d' with store := store' } :=
  { h with store := hstore }

theorem place (h : d.Alike imported d') (ids : List InsertionId) :
    (d.place ids).Alike imported (d'.place ids) :=
  { h with placed_eq := congrArg (ids.reverse ++ ·) h.placed_eq }

theorem unplace (h : d.Alike imported d') (ids : List InsertionId) :
    (d.unplace ids).Alike imported (d'.unplace ids) :=
  { h with placed_eq := congrArg (ids.foldl List.erase) h.placed_eq }

theorem record (h : d.Alike imported d') (id : InsertionId) (hn : n.Alike imported n') :
    (d.record id n).Alike imported (d'.record id n') where
  store := h.store
  placed_eq := h.placed_eq
  sources_eq := by
    show d.sources.put id n.use = d'.sources.put id n'.use
    rw [h.sources_eq, hn.use_eq]
  warnings_eq := h.warnings_eq
  constructor_eq := h.constructor_eq
  imports := fun i hi => (Formatter.mem_mergeImports.mp hi).elim (h.imports i) (hn.imports i)

end Alike

/-! ## The constructor of a class -/

theorem ensureConstructor_agree (h : d.Alike imported d') (place : CriteriaList) :
    Agree (AlikeWith imported) (d.ensureConstructor place) (d'.ensureConstructor place) := by
  unfold ensureConstructor
  rw [← h.constructor_eq]
  cases d.constructor with
  | some c => exact ⟨h, rfl⟩
  | none =>
    refine (h.store.pushConstructor place).bind (fun s s' hs => ?_)
    rw [← h.store.size_eq]
    have he : Alike imported { d with store := s, constructor := some d.store.size }
        { d' with store := s', constructor := some d.store.size } :=
      { h with store := hs, constructor_eq := rfl }
    exact Agree.pure ⟨he.place [d.store.size], rfl⟩

theorem absorbReceiver_agree (h : d.Alike imported d') (c id : InsertionId) :
    Agree (Alike imported) (d.absorbReceiver c id) (d'.absorbReceiver c id) := by
  refine (h.store.attachReceiver c id).bind (fun r r' hr => ?_)
  obtain ⟨hs, hkept⟩ := hr
  dsimp only
  rw [← hkept]
  split
  · exact Agree.pure (h.withStore hs)
  · refine Agree.pure { h.withStore hs with sources_eq := ?_ }
    dsimp only
    rw [h.sources_eq]

theorem absorbInto_agree (h : d.Alike imported d') (c : InsertionId) (criteria : Criteria)
    (hn : n.Alike imported n') (made : List InsertionId) :
    Agree (AlikeWith imported) (d.absorbInto c criteria n made)
      (d'.absorbInto c criteria n' made) := by
  cases made with
  | nil => exact ⟨h, rfl⟩
  | cons id rest =>
    have hother : Agree (AlikeWith imported)
        (if criteria.isOnReturnType then do
          let store ← d.store.addTypeAnnotation c n.text
          pure (({ d with store } : Draft).unplace (id :: rest), true)
        else if n.typeOnly then pure (d, false)
        else do
          let store ← (id :: rest).foldlM (·.attachDeclaration c ·) d.store
          pure (({ d with store } : Draft).unplace (id :: rest), true))
        (if criteria.isOnReturnType then do
          let store ← d'.store.addTypeAnnotation c n'.text
          pure (({ d' with store } : Draft).unplace (id :: rest), true)
        else if n'.typeOnly then pure (d', false)
        else do
          let store ← (id :: rest).foldlM (·.attachDeclaration c ·) d'.store
          pure (({ d' with store } : Draft).unplace (id :: rest), true)) := by
      rw [← hn.typeOnly_eq]
      split
      · refine (h.store.addTypeAnnotation c n.text n'.text).bind (fun _ _ hs => ?_)
        exact Agree.pure ⟨(h.withStore hs).unplace _, rfl⟩
      split
      · exact Agree.pure ⟨h, rfl⟩
      · have hall := Agree.foldlM_self (R := Store.Alike) (f := (·.attachDeclaration c ·))
          (g := (·.attachDeclaration c ·)) (fun _ _ j hs => hs.attachDeclaration c j)
          (id :: rest) h.store
        exact hall.bind (fun _ _ hs => Agree.pure ⟨(h.withStore hs).unplace _, rfl⟩)
    rw [absorbInto, absorbInto]
    obtain ⟨i, i', hi, hi', hlike⟩ | ⟨hnone, hnone'⟩ := h.store.get?_cases id
    · rw [hi, hi']
      cases hlike with
      | receiver =>
        refine (absorbReceiver_agree h c id).bind (fun _ _ he => ?_)
        exact Agree.pure ⟨he.unplace _, rfl⟩
      | _ => exact hother
    · rw [hnone, hnone']
      exact hother

/-- Contexts that differ in what annotations are written with only. -/
theorem absorb_agree (hctx : ctx.writesConstructor = ctx'.writesConstructor)
    (h : d.Alike imported d') (place : CriteriaList) (criteria : Criteria)
    (hn : n.Alike imported n') (made : List InsertionId) :
    Agree (AlikeWith imported) (absorb ctx place criteria d n made)
      (absorb ctx' place criteria d' n' made) := by
  unfold absorb
  rw [← hctx]
  split
  · refine (ensureConstructor_agree h place).bind (fun ⟨e, c⟩ ⟨e', c'⟩ he => ?_)
    obtain ⟨he, rfl⟩ := he
    exact absorbInto_agree he c criteria hn made
  · exact ⟨h, rfl⟩

/-! ## Positions -/

section Positions

variable (hctx : ctx.writesConstructor = ctx'.writesConstructor)
include hctx

theorem addSingle_agree (h : d.Alike imported d') (place : CriteriaList) (criteria : Criteria)
    (withhold : Bool) (hn : n.Alike imported n') :
    Agree (AlikeWith imported) (addSingle ctx place criteria withhold d n)
      (addSingle ctx' place criteria withhold d' n') := by
  have hpush := h.withStore (h.store.push
    (.single n.text n'.text (singleCriteria place criteria) (!n.typeOnly)))
  unfold addSingle
  rw [← h.store.size_eq, ← hn.typeOnly_eq]
  refine (absorb_agree hctx ((hpush.place _).record _ hn) place criteria hn _).bind
    (fun r r' hr => Agree.pure ⟨hr.1, rfl⟩)

theorem addSingles_agree (place : CriteriaList) (criteria : Criteria) (withhold : Bool) :
    ∀ {notes notes' : List Note} {d d' : Draft}, d.Alike imported d' →
      List.Forall₂ (Note.Alike imported) notes notes' →
      Agree (AlikeWith imported) (addSingles ctx place criteria withhold d notes)
        (addSingles ctx' place criteria withhold d' notes')
  | _, _, _, _, h, .nil => ⟨h, rfl⟩
  | _, _, _, _, h, .cons hn hrest => by
    rw [addSingles, addSingles]
    refine (addSingle_agree hctx h place criteria withhold hn).bind
      (fun ⟨e, id⟩ ⟨e', id'⟩ he => ?_)
    obtain ⟨he, rfl⟩ := he
    refine (addSingles_agree place criteria withhold he hrest).bind
      (fun ⟨f, ids⟩ ⟨f', ids'⟩ hf => ?_)
    obtain ⟨hf, rfl⟩ := hf
    exact Agree.pure ⟨hf, rfl⟩

end Positions

theorem create_agree (h : d.Alike imported d') (form : Form) (place : CriteriaList)
    (inner : List InsertionId) {text text' : Option String} (htext : text.isSome = text'.isSome) :
    Agree (AlikeWith imported) (create form place inner text d)
      (create form place inner text' d') := by
  unfold create
  rw [← h.store.size_eq]
  cases form with
  | receiver => exact Agree.pure ⟨h.withStore (h.store.pushReceiver htext place inner), rfl⟩
  | new => exact Agree.pure ⟨h.withStore (h.store.pushNew htext place inner), rfl⟩
  | cast type =>
    refine (h.store.pushCast htext type inner place).bind (fun _ _ hs => ?_)
    exact Agree.pure ⟨h.withStore hs, rfl⟩
  | single => exact Agree.pure ⟨h, rfl⟩

theorem addNote_agree (id : InsertionId) (h : d.Alike imported d') (hn : n.Alike imported n') :
    Agree (Alike imported) (addNote id d n) (addNote id d' n') :=
  (h.store.addTypeAnnotation id n.text n'.text).bind
    (fun _ _ hs => Agree.pure ((h.withStore hs).record id hn))

theorem gather_agree (hctx : ctx.writesConstructor = ctx'.writesConstructor)
    (h : d.Alike imported d') (form : Form) (place : CriteriaList) (criteria : Criteria)
    (inner : List InsertionId) {notes notes' : List Note}
    (hnotes : List.Forall₂ (Note.Alike imported) notes notes') :
    Agree (Alike imported) (gather ctx form place criteria inner d notes)
      (gather ctx' form place criteria inner d' notes') := by
  cases hnotes with
  | nil =>
    rw [gather, gather]
    split
    · refine (create_agree h form place inner rfl).bind (fun r r' hr => ?_)
      obtain ⟨e, made⟩ := r
      obtain ⟨e', made'⟩ := r'
      obtain ⟨he, rfl⟩ := hr
      exact Agree.pure (he.place made)
    · exact h
  | @cons n n' rest rest' hn hrest =>
    rw [gather, gather]
    have htext : (some n.text).isSome = (some n'.text).isSome := rfl
    refine (create_agree h form place inner htext).bind (fun r r' hr => ?_)
    obtain ⟨e, made⟩ := r
    obtain ⟨e', made'⟩ := r'
    obtain ⟨he, rfl⟩ := hr
    dsimp only
    rw [← h.store.size_eq]
    refine (absorb_agree hctx (he.record d.store.size hn) place criteria hn made).bind
      (fun r r' hr => ?_)
    obtain ⟨f, absorbed⟩ := r
    obtain ⟨f', absorbed'⟩ := r'
    obtain ⟨hf, rfl⟩ := hr
    have hadd : ∀ (a b : Draft) (m m' : Note), a.Alike imported b → m.Alike imported m' →
        Agree (Alike imported) (addNote d.store.size a m) (addNote d.store.size b m') :=
      fun _ _ _ _ hab hm => addNote_agree d.store.size hab hm
    have hmore : Agree (Alike imported) (rest.foldlM (addNote d.store.size) f)
        (rest'.foldlM (addNote d.store.size) f') := Agree.foldlM hadd hrest hf
    refine hmore.bind (fun g g' hg => Agree.pure ?_)
    dsimp only
    split
    · exact hg
    · exact hg.place made

/-! ## Sites -/

section Sites

variable {definitions : DefinitionTable} {p q : NamePolicy} {writes : Bool}

/-- A constructor is written under one policy as well as under another. -/
theorem writesConstructor_eq (definitions : DefinitionTable) (p q : NamePolicy) (writes : Bool) :
    (Context.mk ⟨definitions, p⟩ writes).writesConstructor
      = (Context.mk ⟨definitions, q⟩ writes).writesConstructor := rfl

/-- A position within a type. -/
theorem visitNested_agree (h : d.Alike (Formatter.Imports ⟨definitions, p⟩) d')
    (withhold : Bool) (a : Position) :
    Agree (AlikeWith (Formatter.Imports ⟨definitions, p⟩))
      (visitNested ⟨⟨definitions, p⟩, writes⟩ withhold d a)
      (visitNested ⟨⟨definitions, q⟩, writes⟩ withhold d' a) := by
  refine (Formatter.notes_agree a.criteria a.annotations).bind (fun notes notes' hnotes => ?_)
  have hgather : ∀ form : Form, Agree (AlikeWith (Formatter.Imports ⟨definitions, p⟩))
      (gather ⟨⟨definitions, p⟩, writes⟩ form a.criteria a.criteria.compose [] d notes
        >>= fun e => pure (e, ([] : List InsertionId)))
      (gather ⟨⟨definitions, q⟩, writes⟩ form a.criteria a.criteria.compose [] d' notes'
        >>= fun e => pure (e, [])) := fun form =>
    (gather_agree (writesConstructor_eq _ _ _ _) h form a.criteria a.criteria.compose []
      hnotes).bind (fun _ _ he => Agree.pure ⟨he, rfl⟩)
  cases Form.classify a.criteria.compose none with
  | single =>
    exact addSingles_agree (writesConstructor_eq _ _ _ _) a.criteria a.criteria.compose withhold h
      hnotes
  | _ => exact hgather _

theorem visitAllNested_agree (withhold : Bool) :
    ∀ (positions : List Position) {d d' : Draft},
      d.Alike (Formatter.Imports ⟨definitions, p⟩) d' →
      Agree (AlikeWith (Formatter.Imports ⟨definitions, p⟩))
        (visitAllNested ⟨⟨definitions, p⟩, writes⟩ withhold d positions)
        (visitAllNested ⟨⟨definitions, q⟩, writes⟩ withhold d' positions)
  | [], _, _, h => ⟨h, rfl⟩
  | a :: rest, _, _, h => by
    rw [visitAllNested, visitAllNested]
    refine (visitNested_agree h withhold a).bind (fun ⟨e, ids⟩ ⟨e', ids'⟩ he => ?_)
    obtain ⟨he, rfl⟩ := he
    refine (visitAllNested_agree withhold rest he).bind (fun ⟨f, more⟩ ⟨f', more'⟩ hf => ?_)
    obtain ⟨hf, rfl⟩ := hf
    exact Agree.pure ⟨hf, rfl⟩

theorem visitOwn_agree (h : d.Alike (Formatter.Imports ⟨definitions, p⟩) d') (s : Site)
    (inner : List InsertionId) :
    Agree (Alike (Formatter.Imports ⟨definitions, p⟩))
      (visitOwn ⟨⟨definitions, p⟩, writes⟩ s d inner)
      (visitOwn ⟨⟨definitions, q⟩, writes⟩ s d' inner) := by
  have hrelease : (release s d inner).Alike (Formatter.Imports ⟨definitions, p⟩)
      (release s d' inner) := by
    unfold release
    split
    · exact h.place inner
    · exact h
  refine (Formatter.notes_agree s.criteria s.annotations).bind (fun notes notes' hnotes => ?_)
  have hsingles : Agree (AlikeWith (Formatter.Imports ⟨definitions, p⟩))
      (addSingles ⟨⟨definitions, p⟩, writes⟩ s.criteria s.criteria.compose false
        (release s d inner) notes)
      (addSingles ⟨⟨definitions, q⟩, writes⟩ s.criteria s.criteria.compose false
        (release s d' inner) notes') :=
    addSingles_agree (writesConstructor_eq _ _ _ _) s.criteria s.criteria.compose false hrelease
      hnotes
  cases s.spot.form with
  | single => exact hsingles.bind (fun _ _ hr => Agree.pure hr.1)
  | _ =>
    exact gather_agree (writesConstructor_eq _ _ _ _) hrelease _ s.criteria s.criteria.compose
      inner hnotes

/-- **A visit with two name policies** ends alike, or makes alike drafts of alike drafts. -/
theorem visit_agree (h : d.Alike (Formatter.Imports ⟨definitions, p⟩) d') (s : Site) :
    Agree (Alike (Formatter.Imports ⟨definitions, p⟩)) (visit ⟨⟨definitions, p⟩, writes⟩ d s)
      (visit ⟨⟨definitions, q⟩, writes⟩ d' s) := by
  rw [visit_eq, visit_eq]
  refine (visitAllNested_agree s.withholds s.nested h).bind (fun ⟨e, inner⟩ ⟨e', inner'⟩ he => ?_)
  obtain ⟨he, rfl⟩ := he
  exact visitOwn_agree he s inner

end Sites

end Draft

end AnnotationPlan
