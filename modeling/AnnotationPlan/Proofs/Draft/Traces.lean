import AnnotationPlan.Proofs.Draft.Visit
import AnnotationPlan.Proofs.Scene.Roles
import AnnotationPlan.Proofs.Store.Traces

/-!
# Drafts that record where texts come from

A text and the use that it was made from are recorded in different places: the text when
the insertion is made or when its type gets one more annotation, the use right after that.
And when a receiver is merged into another one, both are copied. The functions that do this
are gone through one by one. Each of them leaves a draft in which every insertion is traced
by its sources (`Draft.Traced`) if it was given one, and no insertion ever loses its kind.

The texts must be those of the uses that they are recorded with, and the uses must be exact
(`Note.IsFaithful`). The formatter makes such notes of exact uses (`Formatter.faithful_of_notes`).
-/

namespace AnnotationPlan

/-- **A note of an exact use**, with the text that it is written as. -/
structure Note.IsFaithful (f : Formatter) (n : Note) : Prop where
  exact : n.use.IsExact
  writes : f.WritesAs n.use n.text

theorem Note.IsFaithful.isSource {f : Formatter} {n : Note} (h : n.IsFaithful f) :
    f.IsSource n.use :=
  ⟨h.exact, n.text, h.writes⟩

/-- **The notes of exact uses are faithful.** -/
theorem Formatter.faithful_of_notes {f : Formatter} {place : CriteriaList}
    {uses : List AnnotationUse} {notes : List Note} (huses : ∀ u ∈ uses, u.IsExact)
    (h : f.notes place uses = .ok notes) : ∀ n ∈ notes, n.IsFaithful f := by
  unfold Formatter.notes at h
  cases hfold : uses.foldlM f.addNote [] with
  | error e =>
    rw [hfold] at h
    cases h
  | ok all =>
    rw [hfold] at h
    cases h
    refine keeps_of_foldlM (I := fun notes => ∀ n ∈ notes, n.IsFaithful f) ?_
      (fun n hn => absurd hn List.not_mem_nil) hfold
    intro u hu before after hbefore hadd
    obtain ⟨w, hw, hadd⟩ := bind_eq_ok.mp hadd
    obtain ⟨d, -, hadd⟩ := bind_eq_ok.mp hadd
    split at hadd
    · cases hadd
      exact hbefore
    · cases hadd
      exact List.forall_mem_append.mpr
        ⟨hbefore, List.forall_mem_singleton.mpr ⟨huses u hu, w.imports, hw⟩⟩

namespace Draft

open Insertion

variable {f : Formatter} {ctx : Context} {d e : Draft} {n : Note} {id c : InsertionId}
  {i : Insertion}

/-- **Every insertion is traced by its sources.** -/
structure Traced (f : Formatter) (d : Draft) : Prop where
  /-- The sources are those of insertions in the store. -/
  below : d.sources.Below d.store.size
  /-- All sources are exact and can be written. -/
  allSources : d.sources.AllSources f
  /-- What an insertion says is what its sources are written as. -/
  tracedBy : ∀ id i, d.store.get? id = some i → i.IsTracedBy (d.sources.texts f id)
  /-- The constructor of the class is one. -/
  constructor_has : ∀ c, d.constructor = some c → d.store.Has IsConstructor c

namespace Traced

theorem empty (f : Formatter) : Draft.empty.Traced f where
  below := fun _ hid => absurd hid List.not_mem_nil
  allSources := fun _ _ hu => absurd hu List.not_mem_nil
  tracedBy := fun _ _ hi => absurd (Store.lt_size hi) (Nat.not_lt_zero _)
  constructor_has := fun _ hc => by cases hc

theorem place (h : d.Traced f) (ids : List InsertionId) : (d.place ids).Traced f :=
  ⟨h.below, h.allSources, h.tracedBy, h.constructor_has⟩

theorem unplace (h : d.Traced f) (ids : List InsertionId) : (d.unplace ids).Traced f :=
  ⟨h.below, h.allSources, h.tracedBy, h.constructor_has⟩

/-- A class is begun without a constructor. -/
theorem start (h : d.Traced f) (warnings : List Warning) :
    Traced f { d with constructor := none, warnings } :=
  ⟨h.below, h.allSources, h.tracedBy, fun _ hc => by cases hc⟩

/-- A store that has grown, with sources that go with it. -/
theorem withStore (h : d.Traced f) {store : Store} {sources : Sources}
    (hgrows : d.store.Grows store) (below : sources.Below store.size)
    (allSources : sources.AllSources f)
    (tracedBy : ∀ id i, store.get? id = some i → i.IsTracedBy (sources.texts f id)) :
    Traced f { d with store, sources } where
  below := below
  allSources := allSources
  tracedBy := tracedBy
  constructor_has := fun c hc =>
    (h.constructor_has c hc).grows hgrows (fun _ _ h => h.isConstructor)

/-- A new insertion has no sources yet. -/
theorem texts_size (h : d.Traced f) : d.sources.texts f d.store.size = ∅ := by
  unfold Sources.texts
  rw [h.below.get_eq_nil (Nat.le_refl _), Formatter.textsOf_nil]

/-- An insertion that comes without annotations. -/
theorem push (h : d.Traced f) (hi : i.IsTracedBy ∅) :
    Traced f { d with store := d.store.push i } := by
  have hgrows := Store.grows_push d.store i
  refine h.withStore hgrows (h.below.mono hgrows.size_le) h.allSources (fun id j hj => ?_)
  rw [Store.get?_push] at hj
  split at hj
  case isTrue hid =>
    obtain rfl := Option.some.inj hj
    rw [hid, h.texts_size]
    exact hi
  case isFalse => exact h.tracedBy id j hj

/-- **An insertion that comes with its first annotation**, and the record of where that comes
from. -/
theorem pushRecord (h : d.Traced f) (hn : n.IsFaithful f) (hi : i.IsTracedBy {n.text}) :
    (({ d with store := d.store.push i } : Draft).record d.store.size n).Traced f := by
  have hgrows := Store.grows_push d.store i
  have hsize : d.store.size < (d.store.push i).size := by
    rw [Store.size_push]
    exact Nat.lt_succ_self _
  have hmore : Traced f { d with
      store := d.store.push i, sources := d.sources.put d.store.size n.use } := by
    refine h.withStore hgrows ((h.below.mono hgrows.size_le).put hsize n.use)
      (h.allSources.put _ hn.isSource) (fun id j hj => ?_)
    rw [Sources.texts_put h.allSources hn.writes]
    rw [Store.get?_push] at hj
    split at hj
    case isTrue hid =>
      obtain rfl := Option.some.inj hj
      rw [if_pos hid, hid, h.texts_size, insert_empty_eq]
      exact hi
    case isFalse hid =>
      rw [if_neg hid]
      exact h.tracedBy id j hj
  exact ⟨hmore.below, hmore.allSources, hmore.tracedBy, hmore.constructor_has⟩

/-- An insertion that grows and goes on saying the same. -/
theorem replace (h : d.Traced f) {g : Insertion → Insertion}
    (hg : ∀ i, d.store.get? id = some i → i.Grows (g i)
      ∧ ∀ texts, i.IsTracedBy texts → (g i).IsTracedBy texts) :
    Traced f { d with store := d.store.modify id g } ∧ d.store.Grows (d.store.modify id g) := by
  have hgrows := Store.grows_modify (fun i hi => (hg i hi).1)
  refine ⟨h.withStore hgrows (h.below.mono hgrows.size_le) h.allSources (fun j k hk => ?_), hgrows⟩
  by_cases hj : id = j
  · subst hj
    obtain ⟨i, hi⟩ := Store.exists_get? (Store.size_modify d.store id g ▸ Store.lt_size hk)
    rw [Store.get?_modify_self hi] at hk
    obtain rfl := Option.some.inj hk
    exact (hg i hi).2 _ (h.tracedBy id i hi)
  · rw [Store.get?_modify_of_ne hj] at hk
    exact h.tracedBy j k hk

end Traced

variable {place : CriteriaList} {criteria : Criteria} {made inner : List InsertionId}

/-! ## The constructor of a class -/

theorem ensureConstructor_traced (h : d.Traced f)
    (hok : d.ensureConstructor place = .ok (e, c)) :
    e.Traced f ∧ d.store.Grows e.store ∧ e.store.Has IsConstructor c := by
  unfold ensureConstructor at hok
  cases hc : d.constructor with
  | some c' =>
    rw [hc] at hok
    cases hok
    exact ⟨h, .refl _, h.constructor_has c hc⟩
  | none =>
    rw [hc] at hok
    obtain ⟨store, hstore, hok⟩ := bind_eq_ok.mp hok
    cases hok
    obtain ⟨name, -, rfl⟩ := Store.pushConstructor_eq_ok.mp hstore
    have hnew : (d.store.push (.constructor place (.named (Name.simple name)) none [])).Has
        IsConstructor d.store.size := ⟨_, Store.get?_push_size _ _, trivial⟩
    have hpushed := h.push (i := .constructor place (.named (Name.simple name)) none []) rfl
    refine ⟨⟨hpushed.below, hpushed.allSources, hpushed.tracedBy, fun c hc => ?_⟩,
      Store.grows_push _ _, hnew⟩
    obtain rfl := Option.some.inj hc
    exact hnew

/-- **Merging two receivers** adds the annotations and the sources of the one to those of
the other. -/
theorem absorbReceiver_traced (h : d.Traced f) (hok : d.absorbReceiver c id = .ok e) :
    e.Traced f ∧ d.store.Grows e.store := by
  rw [absorbReceiver, bind_eq_ok] at hok
  obtain ⟨⟨store, kept⟩, hattach, hok⟩ := hok
  have hgrows := Store.grows_attachReceiver hattach
  obtain ⟨criteria, type, receiver, declarations, hc, hcases⟩ := Store.attachReceiver_cases hattach
  obtain ⟨rfl, rfl, rfl⟩ | ⟨rfl, rfl, rfl⟩ |
    ⟨keptCriteria, keptType, keptInner, place, added, inner, rfl, hne, hkept, hid, rfl⟩ := hcases
  · dsimp only at hok
    rw [if_pos rfl] at hok
    cases hok
    refine h.replace (fun i hi => ?_)
    obtain rfl := Option.some.inj (hc.symm.trans hi)
    exact ⟨.constructor (.refl type) (fun _ hr => by cases hr) (List.Subset.refl _),
      fun _ htexts => htexts⟩
  · dsimp only at hok
    rw [if_pos rfl] at hok
    cases hok
    exact ⟨h, .refl _⟩
  · dsimp only at hok
    rw [if_neg hne] at hok
    cases hok
    obtain ⟨hall, htexts⟩ := Sources.texts_puts kept h.allSources (h.allSources id)
    have hlt := Nat.lt_of_lt_of_le (Store.lt_size hkept) hgrows.size_le
    refine ⟨h.withStore hgrows (.puts hlt _ (h.below.mono hgrows.size_le)) hall (fun j k hk => ?_),
      hgrows⟩
    rw [htexts]
    by_cases hj : kept = j
    · subst hj
      rw [Store.get?_modify_self hkept] at hk
      obtain rfl := Option.some.inj hk
      have hold : d.sources.texts f kept = {t | t ∈ keptType.annotations} :=
        h.tracedBy kept _ hkept
      have hnew : f.textsOf (d.sources.get id) = {t | t ∈ added.annotations} :=
        h.tracedBy id _ hid
      rw [if_pos rfl, hold, hnew]
      ext t
      simp [Store.mem_addMissing]
    · rw [Store.get?_modify_of_ne hj] at hk
      rw [if_neg (Ne.symm hj)]
      exact h.tracedBy j k hk

/-- Attaching a declaration leaves the sources alone. -/
theorem Traced.attachDeclaration (h : d.Traced f) {store : Store}
    (hok : d.store.attachDeclaration c id = .ok store) :
    Traced f { d with store } ∧ d.store.Grows store := by
  obtain ⟨criteria, type, receiver, declarations, hc, rfl⟩ := Store.attachDeclaration_eq_ok.mp hok
  refine h.replace (fun i hi => ?_)
  obtain rfl := Option.some.inj (hc.symm.trans hi)
  exact ⟨.constructor (.refl type) (fun _ hr => hr) (List.subset_append_left _ _),
    fun _ htexts => htexts⟩

theorem absorbInto_traced (h : d.Traced f) (hc : d.store.Has IsConstructor c) {absorbed : Bool}
    (hok : d.absorbInto c criteria n made = .ok (e, absorbed)) :
    e.Traced f ∧ d.store.Grows e.store := by
  cases made with
  | nil =>
    cases hok
    exact ⟨h, .refl _⟩
  | cons id rest =>
    rw [absorbInto] at hok
    split at hok
    case h_1 =>
      obtain ⟨g, hg, hok⟩ := bind_eq_ok.mp hok
      cases hok
      obtain ⟨htraced, hgrows⟩ := absorbReceiver_traced h hg
      exact ⟨htraced.unplace _, hgrows⟩
    case h_2 =>
      split at hok
      case isTrue =>
        obtain ⟨store, hstore, hok⟩ := bind_eq_ok.mp hok
        cases hok
        obtain ⟨k, hk, -, rfl⟩ := Store.addTypeAnnotation_eq_ok.mp hstore
        obtain ⟨k', hk', hkind⟩ := hc
        obtain ⟨htraced, hgrows⟩ := h.replace (fun i (hi : d.store.get? c = some i) => by
          obtain rfl := Option.some.inj (hk'.symm.trans hi)
          exact ⟨k'.grows_annotate n.text, fun _ ht => ht.annotate_constructor hkind n.text⟩)
        exact ⟨htraced.unplace _, hgrows⟩
      case isFalse =>
        split at hok
        case isTrue =>
          cases hok
          exact ⟨h, .refl _⟩
        case isFalse =>
          obtain ⟨store, hstore, hok⟩ := bind_eq_ok.mp hok
          cases hok
          have hall : Traced f { d with store } ∧ d.store.Grows store := by
            refine keeps_of_foldlM
              (I := fun store => Traced f { d with store } ∧ d.store.Grows store) ?_
              ⟨h, .refl _⟩ hstore
            intro j _ s s' hs hj
            obtain ⟨htraced, hgrows⟩ := hs.1.attachDeclaration hj
            exact ⟨htraced, hs.2.trans hgrows⟩
          exact ⟨hall.1.unplace _, hall.2⟩

theorem absorb_traced (h : d.Traced f) {absorbed : Bool}
    (hok : absorb ctx place criteria d n made = .ok (e, absorbed)) :
    e.Traced f ∧ d.store.Grows e.store := by
  unfold absorb at hok
  split at hok
  · obtain ⟨⟨g, c⟩, hensure, hok⟩ := bind_eq_ok.mp hok
    obtain ⟨hg, hgrows, hc⟩ := ensureConstructor_traced h hensure
    obtain ⟨he, hgrows'⟩ := absorbInto_traced hg hc hok
    exact ⟨he, hgrows.trans hgrows'⟩
  · cases hok
    exact ⟨h, .refl _⟩

/-! ## Positions -/

theorem addSingle_traced {withhold : Bool} (h : d.Traced f) (hn : n.IsFaithful f)
    (hok : addSingle ctx place criteria withhold d n = .ok (e, id)) : e.Traced f := by
  unfold addSingle at hok
  obtain ⟨⟨g, absorbed⟩, habsorb, hok⟩ := bind_eq_ok.mp hok
  cases hok
  have hmade := h.pushRecord (i := .single n.text (singleCriteria place criteria) (!n.typeOnly))
    hn rfl
  refine (absorb_traced ?_ habsorb).1
  exact ⟨hmade.below, hmade.allSources, hmade.tracedBy, hmade.constructor_has⟩

theorem addSingles_traced {withhold : Bool} :
    ∀ {notes : List Note} {d e : Draft} {ids : List InsertionId}, d.Traced f →
      (∀ n ∈ notes, n.IsFaithful f) →
      addSingles ctx place criteria withhold d notes = .ok (e, ids) → e.Traced f
  | [], _, _, _, h, _, hok => by
    cases hok
    exact h
  | n :: rest, d, e, ids, h, hnotes, hok => by
    obtain ⟨hn, hrest⟩ := List.forall_mem_cons.mp hnotes
    rw [addSingles, bind_eq_ok] at hok
    obtain ⟨⟨g, id⟩, hg, hok⟩ := hok
    obtain ⟨⟨g', ids'⟩, hg', hok⟩ := bind_eq_ok.mp hok
    cases hok
    exact addSingles_traced (addSingle_traced h hn hg) hrest hg'

/-- **A gathering insertion is made without annotations.** -/
theorem create_traced {form : Form} (h : d.Traced f)
    (hok : create form place inner none d = .ok (e, made)) : e.Traced f := by
  have hannotations : (∅ : Set String) = {t | t ∈ (Store.annotated none .unnamed).annotations} :=
    (Set.eq_empty_of_forall_notMem (fun _ ht => absurd ht List.not_mem_nil)).symm
  unfold create at hok
  cases form with
  | receiver =>
    cases hok
    exact h.push hannotations
  | new =>
    cases hok
    exact h.push hannotations
  | cast type =>
    obtain ⟨store, hstore, hok⟩ := bind_eq_ok.mp hok
    cases hok
    obtain ⟨decorated, -, rfl⟩ := Store.pushCast_eq_ok.mp hstore
    have hcast := h.push (i := .cast place decorated false) trivial
    exact hcast.push (i := .closeParenthesis place false) rfl
  | single =>
    cases hok
    exact h

/-- **A gathering insertion is made with its first annotation.** -/
theorem create_record_traced {form : Form} (h : d.Traced f) (hn : n.IsFaithful f)
    (hform : form ≠ .single) (hok : create form place inner (some n.text) d = .ok (e, made)) :
    (e.record d.store.size n).Traced f ∧ e.store.Has IsGathering d.store.size := by
  have hannotations : ({n.text} : Set String)
      = {t | t ∈ (Store.annotated (some n.text) .unnamed).annotations} :=
    Set.ext (fun _ => List.mem_singleton.symm)
  unfold create at hok
  cases form with
  | receiver =>
    cases hok
    exact ⟨h.pushRecord hn hannotations, _, Store.get?_push_size _ _, trivial⟩
  | new =>
    cases hok
    exact ⟨h.pushRecord hn hannotations, _, Store.get?_push_size _ _, trivial⟩
  | cast type =>
    obtain ⟨store, hstore, hok⟩ := bind_eq_ok.mp hok
    cases hok
    obtain ⟨decorated, -, rfl⟩ := Store.pushCast_eq_ok.mp hstore
    have hcast := h.pushRecord (i := .cast place decorated false) hn trivial
    have hthere : (d.store.push (.cast place decorated false)).Has IsGathering d.store.size :=
      ⟨_, Store.get?_push_size _ _, trivial⟩
    exact ⟨hcast.push (i := .closeParenthesis place false) rfl,
      hthere.grows (Store.grows_push _ _) (fun _ _ h => h.isGathering)⟩
  | single => exact absurd rfl hform

/-- **A further annotation** goes to the type and to the sources. -/
theorem addNote_traced (h : d.Traced f) (hid : d.store.Has IsGathering id) (hn : n.IsFaithful f)
    (hok : addNote id d n = .ok e) : e.Traced f ∧ d.store.Grows e.store := by
  rw [addNote, bind_eq_ok] at hok
  obtain ⟨store, hstore, hok⟩ := hok
  cases hok
  have hgrows := Store.grows_addTypeAnnotation hstore
  obtain ⟨i, hi, hkind⟩ := hid
  obtain ⟨k, hk, -, rfl⟩ := Store.addTypeAnnotation_eq_ok.mp hstore
  have hbelow := (h.below.mono hgrows.size_le).put
    (Nat.lt_of_lt_of_le (Store.lt_size hi) hgrows.size_le) n.use
  have hmore := h.withStore hgrows hbelow (h.allSources.put id hn.isSource) (fun j k hk => by
    rw [Sources.texts_put h.allSources hn.writes]
    by_cases hj : id = j
    · subst hj
      rw [Store.get?_modify_self hi] at hk
      obtain rfl := Option.some.inj hk
      rw [if_pos rfl]
      exact (h.tracedBy id i hi).annotate hkind n.text
    · rw [Store.get?_modify_of_ne hj] at hk
      rw [if_neg (Ne.symm hj)]
      exact h.tracedBy j k hk)
  exact ⟨⟨hmore.below, hmore.allSources, hmore.tracedBy, hmore.constructor_has⟩, hgrows⟩

theorem gather_traced {form : Form} {notes : List Note} (h : d.Traced f) (hform : form ≠ .single)
    (hnotes : ∀ n ∈ notes, n.IsFaithful f)
    (hok : gather ctx form place criteria inner d notes = .ok e) : e.Traced f := by
  cases notes with
  | nil =>
    rw [gather] at hok
    split at hok
    · obtain ⟨⟨g, made⟩, hcreate, hok⟩ := bind_eq_ok.mp hok
      cases hok
      exact (create_traced h hcreate).place made
    · cases hok
      exact h
  | cons n rest =>
    obtain ⟨hn, hrest⟩ := List.forall_mem_cons.mp hnotes
    rw [gather, bind_eq_ok] at hok
    obtain ⟨⟨g, made⟩, hcreate, hok⟩ := hok
    obtain ⟨⟨g', absorbed⟩, habsorb, hok⟩ := bind_eq_ok.mp hok
    obtain ⟨g'', hmore, hok⟩ := bind_eq_ok.mp hok
    obtain ⟨hg, hid⟩ := create_record_traced h hn hform hcreate
    obtain ⟨hg', hgrows⟩ := absorb_traced hg habsorb
    have hall : g''.Traced f ∧ g''.store.Has IsGathering d.store.size := by
      refine keeps_of_foldlM
        (I := fun a => a.Traced f ∧ a.store.Has IsGathering d.store.size) ?_
        ⟨hg', hid.grows hgrows (fun _ _ h => h.isGathering)⟩ hmore
      intro m hm a b ha hb
      obtain ⟨hb', hgrows'⟩ := addNote_traced ha.1 ha.2 (hrest m hm) hb
      exact ⟨hb', ha.2.grows hgrows' (fun _ _ h => h.isGathering)⟩
    cases hok
    split
    · exact hall.1
    · exact hall.1.place made

/-! ## Sites -/

theorem visitNested_traced {withhold : Bool} {q : Position} {ids : List InsertionId}
    (h : d.Traced ctx.formatter) (hq : ∀ u ∈ q.annotations, u.IsExact)
    (hok : visitNested ctx withhold d q = .ok (e, ids)) : e.Traced ctx.formatter := by
  rw [visitNested, bind_eq_ok] at hok
  obtain ⟨notes, hnotes, hok⟩ := hok
  have hfaithful := Formatter.faithful_of_notes hq hnotes
  cases hform : Form.classify q.criteria.compose none with
  | single =>
    rw [hform] at hok
    exact addSingles_traced h hfaithful hok
  | _ =>
    rw [hform] at hok
    obtain ⟨g, hg, hok⟩ := bind_eq_ok.mp hok
    cases hok
    exact gather_traced h (by simp) hfaithful hg

theorem visitAllNested_traced {withhold : Bool} :
    ∀ {positions : List Position} {d e : Draft} {ids : List InsertionId},
      d.Traced ctx.formatter → (∀ q ∈ positions, ∀ u ∈ q.annotations, u.IsExact) →
      visitAllNested ctx withhold d positions = .ok (e, ids) → e.Traced ctx.formatter
  | [], _, _, _, h, _, hok => by
    cases hok
    exact h
  | q :: rest, d, e, ids, h, hpositions, hok => by
    obtain ⟨hq, hrest⟩ := List.forall_mem_cons.mp hpositions
    rw [visitAllNested, bind_eq_ok] at hok
    obtain ⟨⟨g, first⟩, hg, hok⟩ := hok
    obtain ⟨⟨g', more⟩, hg', hok⟩ := bind_eq_ok.mp hok
    cases hok
    exact visitAllNested_traced (visitNested_traced h hq hg) hrest hg'

/-- **A visit to a site with exact uses** leaves every insertion traced by its sources. -/
theorem visit_traced {s : Site} (h : d.Traced ctx.formatter)
    (hs : ∀ u, s.Shows u → u.IsExact) (hok : visit ctx d s = .ok e) : e.Traced ctx.formatter := by
  rw [visit_eq, bind_eq_ok] at hok
  obtain ⟨⟨g, inner⟩, hnested, hok⟩ := hok
  have hg := visitAllNested_traced h
    (fun q hq u hu => hs u ⟨.within q, Site.within_mem_spots hq, hu⟩) hnested
  have hrelease : (release s g inner).Traced ctx.formatter := by
    unfold release
    split
    · exact hg.place inner
    · exact hg
  rw [visitOwn, bind_eq_ok] at hok
  obtain ⟨notes, hnotes, hok⟩ := hok
  have hfaithful := Formatter.faithful_of_notes
    (fun u hu => hs u ⟨s.spot, s.spot_mem_spots, hu⟩) hnotes
  cases hform : s.spot.form with
  | single =>
    rw [hform] at hok
    obtain ⟨⟨g', ids⟩, hg', hok⟩ := bind_eq_ok.mp hok
    cases hok
    exact addSingles_traced hrelease hfaithful hg'
  | _ =>
    rw [hform] at hok
    exact gather_traced hrelease (by simp) hfaithful hok

end Draft

end AnnotationPlan
