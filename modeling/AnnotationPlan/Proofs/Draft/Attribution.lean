import AnnotationPlan.Proofs.Draft.Traces

/-!
# What a single annotation is made from

A single annotation has one source, the use that it was made from, and it goes on a line of
its own unless the definition of that use is for types only. Nothing is ever recorded for it
again: further annotations are recorded for what gathers them, and when a receiver is merged
into another one, for that receiver. And what gathers annotations refers to insertions within
its type only, if every position there has a path into it.

Both are facts about all insertions at once (`Draft.Attributed`), and the functions that make
insertions are gone through one by one.
-/

namespace AnnotationPlan

/-- **A note as the formatter makes it**: whether it stands on types only is a matter of the
definition of its use. -/
def Note.IsDefined (f : Formatter) (n : Note) : Prop :=
  ∃ a, f.definition n.use = .ok a ∧ n.typeOnly = a.isTypeOnly

/-- The formatter makes such notes only. -/
theorem Formatter.isDefined_of_notes {f : Formatter} {place : CriteriaList}
    {uses : List AnnotationUse} {notes : List Note} (h : f.notes place uses = .ok notes) :
    ∀ n ∈ notes, n.IsDefined f := by
  unfold Formatter.notes at h
  cases hfold : uses.foldlM f.addNote [] with
  | error e =>
    rw [hfold] at h
    cases h
  | ok all =>
    rw [hfold] at h
    cases h
    refine keeps_of_foldlM (I := fun notes => ∀ n ∈ notes, n.IsDefined f) ?_
      (fun n hn => absurd hn List.not_mem_nil) hfold
    intro u _ before after hbefore hadd
    obtain ⟨w, -, hadd⟩ := bind_eq_ok.mp hadd
    obtain ⟨a, ha, hadd⟩ := bind_eq_ok.mp hadd
    split at hadd
    · cases hadd
      exact hbefore
    · cases hadd
      exact List.forall_mem_append.mpr ⟨hbefore, List.forall_mem_singleton.mpr ⟨a, ha, rfl⟩⟩

/-- An insertion within a type. -/
def Insertion.IsNested (i : Insertion) : Prop := i.criteria.compose.hasTypePath = true

/-- An insertion stays where it is. -/
theorem Insertion.Grows.isNested {i j : Insertion} (h : i.Grows j) (hi : i.IsNested) :
    j.IsNested := by
  unfold IsNested
  rw [h.criteria_eq]
  exact hi

/-- Recording uses for one insertion leaves the others alone. -/
theorem Sources.get_puts_of_ne {id j : InsertionId} (h : j ≠ id) :
    ∀ (uses : List AnnotationUse) (s : Sources),
      (uses.foldl (Sources.put · id) s).get j = s.get j
  | [], _ => rfl
  | u :: rest, s => (get_puts_of_ne h rest (s.put id u)).trans (s.get_put_of_ne h u)

namespace Draft

open Insertion

variable {f : Formatter} {ctx : Context} {d e : Draft} {n : Note} {id c : InsertionId}
  {i : Insertion}

/-- **Every single annotation has its source**, and what gathers annotations refers to
insertions within its type. -/
structure Attributed (f : Formatter) (d : Draft) : Prop where
  /-- The sources are those of insertions in the store. -/
  below : d.sources.Below d.store.size
  /-- A single annotation is made from one use, whose definition says where it stands. -/
  source : ∀ id text l separateLine, d.store.get? id = some (.single text l separateLine) →
    ∃ u a, d.sources.get id = [u] ∧ f.definition u = .ok a ∧ separateLine = !a.isTypeOnly
  /-- What gathers annotations refers to insertions within its type. -/
  inner : ∀ id i, d.store.get? id = some i → ∀ j ∈ i.inner, d.store.Has IsNested j

namespace Attributed

theorem empty (f : Formatter) : Draft.empty.Attributed f where
  below := fun _ hid => absurd hid List.not_mem_nil
  source := fun _ _ _ _ hi => absurd (Store.lt_size hi) (Nat.not_lt_zero _)
  inner := fun _ _ hi => absurd (Store.lt_size hi) (Nat.not_lt_zero _)

/-- The output does not matter. -/
theorem place (h : d.Attributed f) (ids : List InsertionId) : (d.place ids).Attributed f :=
  ⟨h.below, h.source, h.inner⟩

theorem unplace (h : d.Attributed f) (ids : List InsertionId) : (d.unplace ids).Attributed f :=
  ⟨h.below, h.source, h.inner⟩

/-- A class is begun without a constructor. -/
theorem start (h : d.Attributed f) (warnings : List Warning) :
    Attributed f { d with constructor := none, warnings } :=
  ⟨h.below, h.source, h.inner⟩

/-- Sources that are recorded for other insertions than single annotations. -/
theorem withSources (h : d.Attributed f) {sources : Sources}
    (hbelow : sources.Below d.store.size)
    (hget : ∀ id, d.store.Has IsSingle id → sources.get id = d.sources.get id) :
    Attributed f { d with sources } where
  below := hbelow
  source := fun id text l separateLine hi => by
    rw [hget id ⟨_, hi, trivial⟩]
    exact h.source id text l separateLine hi
  inner := h.inner

/-- **A further use is recorded** for what gathers annotations. -/
theorem record (h : d.Attributed f) (hid : d.store.Has (fun i => ¬ i.IsSingle) id) (n : Note) :
    (d.record id n).Attributed f := by
  have hmore := h.withSources (h.below.put hid.lt_size n.use) (fun j hj => ?_)
  · exact ⟨hmore.below, hmore.source, hmore.inner⟩
  · refine d.sources.get_put_of_ne (fun heq => ?_) n.use
    subst heq
    obtain ⟨i, hi, hnot⟩ := hid
    obtain ⟨k, hk, hsingle⟩ := hj
    obtain rfl := Option.some.inj (hi.symm.trans hk)
    exact hnot hsingle

/-- An insertion that is no single annotation. -/
theorem push (h : d.Attributed f) (hi : ¬ i.IsSingle)
    (hinner : ∀ j ∈ i.inner, d.store.Has IsNested j) :
    Attributed f { d with store := d.store.push i } := by
  have hgrows := Store.grows_push d.store i
  refine ⟨h.below.mono hgrows.size_le, fun id text l separateLine hk => ?_, fun id k hk j hj => ?_⟩
  · rw [Store.get?_push] at hk
    split at hk
    case isTrue =>
      obtain rfl := Option.some.inj hk
      exact absurd trivial hi
    case isFalse => exact h.source id text l separateLine hk
  · have hold : d.store.Has IsNested j := by
      rw [Store.get?_push] at hk
      split at hk
      case isTrue =>
        obtain rfl := Option.some.inj hk
        exact hinner j hj
      case isFalse => exact h.inner id k hk j hj
    exact hold.grows hgrows (fun _ _ h => h.isNested)

/-- **A single annotation**, and the record of what it is made from. -/
theorem pushSingle (h : d.Attributed f) (hn : n.IsDefined f) (l : CriteriaList) :
    (({ d with store := d.store.push (.single n.text l (!n.typeOnly)) } : Draft).record
      d.store.size n).Attributed f := by
  have hgrows := Store.grows_push d.store (.single n.text l (!n.typeOnly))
  have hsize : d.store.size < (d.store.push (.single n.text l (!n.typeOnly))).size :=
    Store.size_push d.store _ ▸ Nat.lt_succ_self _
  refine ⟨(h.below.mono hgrows.size_le).put hsize n.use, fun id text l' separateLine hk => ?_,
    fun id k hk j hj => ?_⟩
  · show ∃ u a, (d.sources.put d.store.size n.use).get id = [u] ∧ _
    have hk : (d.store.push (.single n.text l (!n.typeOnly))).get? id
        = some (.single text l' separateLine) := hk
    rw [Store.get?_push] at hk
    split at hk
    case isTrue hid =>
      cases hk
      obtain ⟨a, ha, htype⟩ := hn
      rw [hid, Sources.get_put_self, h.below.get_eq_nil (Nat.le_refl _)]
      exact ⟨n.use, a, rfl, ha, congrArg _ htype⟩
    case isFalse hid =>
      rw [d.sources.get_put_of_ne hid]
      exact h.source id text l' separateLine hk
  · have hk : (d.store.push (.single n.text l (!n.typeOnly))).get? id = some k := hk
    rw [Store.get?_push] at hk
    split at hk
    case isTrue =>
      cases hk
      exact absurd hj List.not_mem_nil
    case isFalse => exact (h.inner id k hk j hj).grows hgrows (fun _ _ h => h.isNested)

/-- **An insertion that grows**, and refers to insertions within a type as before. -/
theorem modify (h : d.Attributed f) (id : InsertionId) {g : Insertion → Insertion}
    (hg : ∀ i, d.store.get? id = some i → i.Grows (g i)
      ∧ ∀ j ∈ (g i).inner, d.store.Has IsNested j) :
    Attributed f { d with store := d.store.modify id g } ∧ d.store.Grows (d.store.modify id g) := by
  have hgrows := Store.grows_modify (fun i hi => (hg i hi).1)
  -- what is at a number afterwards has grown from what was there
  have hold : ∀ {j : InsertionId} {k : Insertion}, (d.store.modify id g).get? j = some k →
      ∃ i, d.store.get? j = some i ∧ i.Grows k ∧ ∀ m ∈ k.inner, d.store.Has IsNested m := by
    intro j k hk
    obtain ⟨i, hi⟩ := Store.exists_get? (Store.size_modify d.store id g ▸ Store.lt_size hk)
    by_cases hj : id = j
    · subst hj
      rw [Store.get?_modify_self hi] at hk
      obtain rfl := Option.some.inj hk
      exact ⟨i, hi, hg i hi⟩
    · rw [Store.get?_modify_of_ne hj] at hk
      exact ⟨k, hk, .refl k, h.inner j k hk⟩
  refine ⟨⟨h.below.mono hgrows.size_le, fun j text l separateLine hk => ?_, fun j k hk m hm => ?_⟩,
    hgrows⟩
  · obtain ⟨i, hi, hgrown, -⟩ := hold hk
    cases hgrown
    exact h.source j text l separateLine hi
  · obtain ⟨i, -, -, hinner⟩ := hold hk
    exact (hinner m hm).grows hgrows (fun _ _ h => h.isNested)

/-- An annotation on the type of an insertion. -/
theorem addTypeAnnotation (h : d.Attributed f) {text : String} {store : Store}
    (hok : d.store.addTypeAnnotation id text = .ok store) :
    Attributed f { d with store } ∧ d.store.Grows store
      ∧ store.Has (fun i => ¬ i.IsSingle) id := by
  obtain ⟨i, hi, htype, rfl⟩ := Store.addTypeAnnotation_eq_ok.mp hok
  obtain ⟨hmore, hgrows⟩ := h.modify id (g := mapType (JavaType.annotate text))
    (fun k hk => ⟨k.grows_annotate text, fun j hj => h.inner id k hk j (by cases k <;> exact hj)⟩)
  refine ⟨hmore, hgrows, _, Store.get?_modify_self hi, ?_⟩
  cases i with
  | single => cases htype
  | _ => exact fun hsingle => hsingle

/-- Attaching a declaration. -/
theorem attachDeclaration (h : d.Attributed f) {store : Store}
    (hok : d.store.attachDeclaration c id = .ok store) :
    Attributed f { d with store } ∧ d.store.Grows store := by
  obtain ⟨criteria, type, receiver, declarations, hc, rfl⟩ := Store.attachDeclaration_eq_ok.mp hok
  refine h.modify c (fun i hi => ?_)
  obtain rfl := Option.some.inj (hc.symm.trans hi)
  exact ⟨.constructor (.refl type) (fun _ hr => hr) (List.subset_append_left _ _),
    fun j hj => absurd hj List.not_mem_nil⟩

end Attributed

variable {place : CriteriaList} {criteria : Criteria} {made inner : List InsertionId}

/-! ## The constructor of a class -/

theorem ensureConstructor_attributed (h : d.Attributed f)
    (hok : d.ensureConstructor place = .ok (e, c)) : e.Attributed f ∧ d.store.Grows e.store := by
  unfold ensureConstructor at hok
  split at hok
  case h_1 =>
    cases hok
    exact ⟨h, .refl _⟩
  case h_2 =>
    obtain ⟨store, hstore, hok⟩ := bind_eq_ok.mp hok
    cases hok
    obtain ⟨name, -, rfl⟩ := Store.pushConstructor_eq_ok.mp hstore
    have hpushed := h.push (i := .constructor place (.named (Name.simple name)) none [])
      (fun hsingle => hsingle) (fun j hj => absurd hj List.not_mem_nil)
    exact ⟨⟨hpushed.below, hpushed.source, hpushed.inner⟩, Store.grows_push _ _⟩

/-- **When receivers are merged**, the sources of the one are recorded for the other. -/
theorem absorbReceiver_attributed (h : d.Attributed f) (hok : d.absorbReceiver c id = .ok e) :
    e.Attributed f ∧ d.store.Grows e.store := by
  rw [absorbReceiver, bind_eq_ok] at hok
  obtain ⟨⟨store, kept⟩, hattach, hok⟩ := hok
  obtain ⟨criteria, type, receiver, declarations, hc, hcases⟩ := Store.attachReceiver_cases hattach
  obtain ⟨rfl, rfl, rfl⟩ | ⟨rfl, rfl, rfl⟩ |
    ⟨keptCriteria, keptType, keptInner, place, added, inner, rfl, hne, hkept, hid, rfl⟩ := hcases
  · dsimp only at hok
    rw [if_pos rfl] at hok
    cases hok
    refine h.modify c (fun i hi => ?_)
    obtain rfl := Option.some.inj (hc.symm.trans hi)
    exact ⟨.constructor (.refl type) (fun _ hr => by cases hr) (List.Subset.refl _),
      fun j hj => absurd hj List.not_mem_nil⟩
  · dsimp only at hok
    rw [if_pos rfl] at hok
    cases hok
    exact ⟨h, .refl _⟩
  · dsimp only at hok
    rw [if_neg hne] at hok
    cases hok
    obtain ⟨hmerged, hgrows⟩ := h.modify kept (g := fun _ => .receiver keptCriteria
        (keptType.withAnnotations (Store.addMissing keptType.annotations added.annotations))
        (Store.addMissing keptInner inner)) (fun i hi => by
      obtain rfl := Option.some.inj (hkept.symm.trans hi)
      refine ⟨Store.grows_merge _ _ _ _ _, fun j hj => ?_⟩
      exact (Store.mem_addMissing.mp hj).elim (h.inner kept _ hkept j) (h.inner id _ hid j))
    have hlt := Nat.lt_of_lt_of_le (Store.lt_size hkept) hgrows.size_le
    refine ⟨hmerged.withSources (.puts hlt _ hmerged.below) (fun j hj => ?_), hgrows⟩
    refine Sources.get_puts_of_ne (fun heq => ?_) _ _
    subst heq
    obtain ⟨k, hk, hsingle⟩ := hj
    rw [Store.get?_modify_self hkept] at hk
    obtain rfl := Option.some.inj hk
    exact hsingle

theorem absorbInto_attributed (h : d.Attributed f) {absorbed : Bool}
    (hok : d.absorbInto c criteria n made = .ok (e, absorbed)) :
    e.Attributed f ∧ d.store.Grows e.store := by
  cases made with
  | nil =>
    cases hok
    exact ⟨h, .refl _⟩
  | cons id rest =>
    rw [absorbInto] at hok
    split at hok
    case h_1 =>
      obtain ⟨g, hg, hok⟩ := bind_eq_ok.mp hok
      cases hok
      obtain ⟨hattributed, hgrows⟩ := absorbReceiver_attributed h hg
      exact ⟨hattributed.unplace _, hgrows⟩
    case h_2 =>
      split at hok
      case isTrue =>
        obtain ⟨store, hstore, hok⟩ := bind_eq_ok.mp hok
        cases hok
        obtain ⟨hattributed, hgrows, -⟩ := h.addTypeAnnotation hstore
        exact ⟨hattributed.unplace _, hgrows⟩
      case isFalse =>
        split at hok
        case isTrue =>
          cases hok
          exact ⟨h, .refl _⟩
        case isFalse =>
          obtain ⟨store, hstore, hok⟩ := bind_eq_ok.mp hok
          cases hok
          have hall : Attributed f { d with store } ∧ d.store.Grows store := by
            refine keeps_of_foldlM
              (I := fun store => Attributed f { d with store } ∧ d.store.Grows store) ?_
              ⟨h, .refl _⟩ hstore
            intro j _ s s' hs hj
            obtain ⟨hattributed, hgrows⟩ := hs.1.attachDeclaration hj
            exact ⟨hattributed, hs.2.trans hgrows⟩
          exact ⟨hall.1.unplace _, hall.2⟩

theorem absorb_attributed (h : d.Attributed f) {absorbed : Bool}
    (hok : absorb ctx place criteria d n made = .ok (e, absorbed)) :
    e.Attributed f ∧ d.store.Grows e.store := by
  unfold absorb at hok
  split at hok
  · obtain ⟨⟨g, c⟩, hensure, hok⟩ := bind_eq_ok.mp hok
    obtain ⟨hg, hgrows⟩ := ensureConstructor_attributed h hensure
    obtain ⟨he, hgrows'⟩ := absorbInto_attributed hg hok
    exact ⟨he, hgrows.trans hgrows'⟩
  · cases hok
    exact ⟨h, .refl _⟩

/-! ## Positions -/

section Positions

variable {q : Position} {withhold : Bool}

theorem addSingle_attributed (h : d.Attributed f) (hn : n.IsDefined f)
    (hok : addSingle ctx q.criteria q.criteria.compose withhold d n = .ok (e, id)) :
    e.Attributed f ∧ d.store.Grows e.store ∧ e.store.get? id = some (q.insertion n) := by
  obtain ⟨⟨g, absorbed⟩, habsorb, hok⟩ := bind_eq_ok.mp hok
  cases hok
  have hmade := h.pushSingle hn (singleCriteria q.criteria q.criteria.compose)
  have habsorbed := fun h => absorb_attributed (f := f) h habsorb
  obtain ⟨he, hgrows⟩ := habsorbed ⟨hmade.below, hmade.source, hmade.inner⟩
  exact ⟨he, (Store.grows_push _ _).trans hgrows, hgrows.get?_single (Store.get?_push_size _ _)⟩

/-- **Annotations become insertions of their own**, and those within a type are there. -/
theorem addSingles_attributed :
    ∀ {notes : List Note} {d e : Draft} {ids : List InsertionId}, d.Attributed f →
      (∀ n ∈ notes, n.IsDefined f) →
      addSingles ctx q.criteria q.criteria.compose withhold d notes = .ok (e, ids) →
      e.Attributed f ∧ d.store.Grows e.store
        ∧ (q.criteria.compose.hasTypePath = true → ∀ id ∈ ids, e.store.Has IsNested id)
  | [], _, _, _, h, _, hok => by
    cases hok
    exact ⟨h, .refl _, fun _ id hid => absurd hid List.not_mem_nil⟩
  | n :: rest, d, e, ids, h, hnotes, hok => by
    obtain ⟨hn, hrest⟩ := List.forall_mem_cons.mp hnotes
    rw [addSingles, bind_eq_ok] at hok
    obtain ⟨⟨g, id⟩, hg, hok⟩ := hok
    obtain ⟨⟨g', more⟩, hg', hok⟩ := bind_eq_ok.mp hok
    cases hok
    obtain ⟨hfirst, hgrows, hid⟩ := addSingle_attributed h hn hg
    obtain ⟨he, hgrows', hmore⟩ := addSingles_attributed hfirst hrest hg'
    refine ⟨he, hgrows.trans hgrows', fun hpath => List.forall_mem_cons.mpr ⟨?_, hmore hpath⟩⟩
    exact ⟨_, hgrows'.get?_single hid, (q.hasTypePath_insertion n).trans hpath⟩

/-- **What gathers annotations is made.** -/
theorem create_attributed {form : Form} {text : Option String} (h : d.Attributed f)
    (hform : form ≠ .single) (hinner : ∀ j ∈ inner, d.store.Has IsNested j)
    (hok : create form place inner text d = .ok (e, made)) :
    e.Attributed f ∧ d.store.Grows e.store
      ∧ e.store.Has (fun i => ¬ i.IsSingle) d.store.size := by
  unfold create at hok
  cases form with
  | receiver =>
    cases hok
    exact ⟨h.push (fun hsingle => hsingle) hinner, Store.grows_push _ _, _,
      Store.get?_push_size _ _, fun hsingle => hsingle⟩
  | new =>
    cases hok
    exact ⟨h.push (fun hsingle => hsingle) hinner, Store.grows_push _ _, _,
      Store.get?_push_size _ _, fun hsingle => hsingle⟩
  | cast type =>
    obtain ⟨store, hstore, hok⟩ := bind_eq_ok.mp hok
    cases hok
    obtain ⟨-, ⟨decorated', hcast⟩, -, -⟩ := Store.pushCast_spec hstore
    have hgrows := Store.grows_pushCast hstore
    obtain ⟨decorated, -, rfl⟩ := Store.pushCast_eq_ok.mp hstore
    have hpushed := h.push (i := .cast place decorated false) (fun hsingle => hsingle)
      (fun j hj => absurd hj List.not_mem_nil)
    exact ⟨hpushed.push (i := .closeParenthesis place false) (fun hsingle => hsingle)
      (fun j hj => absurd hj List.not_mem_nil), hgrows, _, hcast, fun hsingle => hsingle⟩
  | single => exact absurd rfl hform

/-- **A further annotation** goes to the type and to the sources. -/
theorem addNote_attributed (h : d.Attributed f) (hok : addNote id d n = .ok e) :
    e.Attributed f := by
  rw [addNote, bind_eq_ok] at hok
  obtain ⟨store, hstore, hok⟩ := hok
  cases hok
  obtain ⟨hmore, -, hid⟩ := h.addTypeAnnotation hstore
  exact hmore.record hid n

/-- **Annotations are gathered.** -/
theorem gather_attributed {form : Form} {notes : List Note} (h : d.Attributed f)
    (hform : form ≠ .single) (hinner : ∀ j ∈ inner, d.store.Has IsNested j)
    (hok : gather ctx form place criteria inner d notes = .ok e) : e.Attributed f := by
  cases notes with
  | nil =>
    rw [gather] at hok
    split at hok
    · obtain ⟨⟨g, made⟩, hcreate, hok⟩ := bind_eq_ok.mp hok
      cases hok
      exact (create_attributed h hform hinner hcreate).1.place made
    · cases hok
      exact h
  | cons n rest =>
    rw [gather, bind_eq_ok] at hok
    obtain ⟨⟨g, made⟩, hcreate, hok⟩ := hok
    obtain ⟨⟨g', absorbed⟩, habsorb, hok⟩ := bind_eq_ok.mp hok
    obtain ⟨g'', hmore, hok⟩ := bind_eq_ok.mp hok
    obtain ⟨hg, -, hid⟩ := create_attributed h hform hinner hcreate
    have hall : g''.Attributed f := keeps_of_foldlM (I := fun a => a.Attributed f)
      (fun m _ a b ha hb => addNote_attributed ha hb)
      (absorb_attributed (hg.record hid n) habsorb).1 hmore
    cases hok
    split
    · exact hall
    · exact hall.place made

/-! ## Sites -/

theorem visitNested_attributed {ids : List InsertionId} (h : d.Attributed ctx.formatter)
    (hpath : q.criteria.compose.hasTypePath = true)
    (hok : visitNested ctx withhold d q = .ok (e, ids)) :
    e.Attributed ctx.formatter ∧ d.store.Grows e.store ∧ ∀ id ∈ ids, e.store.Has IsNested id := by
  rw [visitNested, bind_eq_ok] at hok
  obtain ⟨notes, hnotes, hok⟩ := hok
  have hsingle : Form.classify q.criteria.compose none = .single := by
    simp [Form.classify, hpath]
  rw [hsingle] at hok
  obtain ⟨he, hgrows, hids⟩ := addSingles_attributed h (Formatter.isDefined_of_notes hnotes) hok
  exact ⟨he, hgrows, hids hpath⟩

theorem visitAllNested_attributed :
    ∀ {positions : List Position} {d e : Draft} {ids : List InsertionId},
      d.Attributed ctx.formatter →
      (∀ q ∈ positions, q.criteria.compose.hasTypePath = true) →
      visitAllNested ctx withhold d positions = .ok (e, ids) →
      e.Attributed ctx.formatter ∧ d.store.Grows e.store ∧ ∀ id ∈ ids, e.store.Has IsNested id
  | [], _, _, _, h, _, hok => by
    cases hok
    exact ⟨h, .refl _, fun id hid => absurd hid List.not_mem_nil⟩
  | q :: rest, d, e, ids, h, hpaths, hok => by
    obtain ⟨hpath, hrest⟩ := List.forall_mem_cons.mp hpaths
    rw [visitAllNested, bind_eq_ok] at hok
    obtain ⟨⟨g, first⟩, hg, hok⟩ := hok
    obtain ⟨⟨g', more⟩, hg', hok⟩ := bind_eq_ok.mp hok
    cases hok
    obtain ⟨hfirst, hgrows, hids⟩ := visitNested_attributed h hpath hg
    obtain ⟨he, hgrows', hmore⟩ := visitAllNested_attributed hfirst hrest hg'
    refine ⟨he, hgrows.trans hgrows', List.forall_mem_append.mpr ⟨fun id hid => ?_, hmore⟩⟩
    exact (hids id hid).grows hgrows' (fun _ _ h => h.isNested)

end Positions

/-- **A visit leaves every single annotation with its source**, if all positions within the
type of the site have a path into it. -/
theorem visit_attributed {s : Site} (h : d.Attributed ctx.formatter)
    (hpaths : ∀ q ∈ s.nested, q.criteria.compose.hasTypePath = true)
    (hok : visit ctx d s = .ok e) : e.Attributed ctx.formatter := by
  rw [visit_eq, bind_eq_ok] at hok
  obtain ⟨⟨g, inner⟩, hnested, hok⟩ := hok
  obtain ⟨hg, -, hinner⟩ := visitAllNested_attributed h hpaths hnested
  have hrelease : (release s g inner).Attributed ctx.formatter := by
    unfold release
    split
    · exact hg.place inner
    · exact hg
  rw [visitOwn, bind_eq_ok] at hok
  obtain ⟨notes, hnotes, hok⟩ := hok
  cases hform : s.spot.form with
  | single =>
    rw [hform] at hok
    obtain ⟨⟨g', ids⟩, hg', hok⟩ := bind_eq_ok.mp hok
    cases hok
    exact (addSingles_attributed (q := s.toPosition) hrelease
      (Formatter.isDefined_of_notes hnotes) hg').1
  | _ =>
    rw [hform] at hok
    refine gather_attributed hrelease (by simp) (fun j hj => ?_) hok
    rw [store_release]
    exact hinner j hj

end Draft

end AnnotationPlan
