import AnnotationPlan.Proofs.Draft.Census
import AnnotationPlan.Proofs.Draft.Placing
import AnnotationPlan.Proofs.Draft.Visit

/-!
# Drafts are counted

A draft has a census (`Draft.Counted`), and working off a site changes the one as it changes
the other. This is shown operation by operation, each of which makes a draft with the census
that belongs to it (`Draft.visitAllNested_makes`, `Draft.visitOwn_makes`). Nothing is assumed of
the draft, so an operation may also find an invariant broken. Only two things can be wrong with
the scene, and both are excluded beforehand: an annotation that cannot be written, and
annotations that do not fit the type of a cast.

Where something goes that was made for an annotation is decided when it is made, or in the
end. An insertion of its own is put into the output first and then taken out again if the
constructor takes it up. What gathers annotations is in nobody's hands meanwhile; it is put
into the output at last if the constructor did not take it up, and until then it is missing
in the census (`Draft.absorb_makes`).
-/

namespace AnnotationPlan

namespace Made

variable {p : Spot} {s : Store} {id : InsertionId} {made : List InsertionId}

/-- What was made to gather annotations has its tags. -/
theorem map_tag?_eq (h : Made p s id made) : made.map s.tag? = p.tags.map some := by
  cases h with
  | receiver form get =>
    simp [Spot.tags, form, Store.tag?, get, Insertion.tag, Insertion.kindName, Insertion.criteria]
  | new form get =>
    simp [Spot.tags, form, Store.tag?, get, Insertion.tag, Insertion.kindName, Insertion.criteria]
  | cast form get close =>
    simp [Spot.tags, form, Store.tag?, get, close, Insertion.tag, Insertion.kindName,
      Insertion.criteria]

/-- The first of it is what gathers the annotations. -/
theorem exists_cons (h : Made p s id made) : ∃ rest, made = id :: rest := by
  cases h with
  | receiver => exact ⟨[], rfl⟩
  | new => exact ⟨[], rfl⟩
  | cast => exact ⟨[id + 1], rfl⟩

end Made

namespace Draft

open Insertion

variable {ctx : Context} {p : Spot} {d e : Draft} {t t' : Census} {n : Note} {id c : InsertionId}
  {ids made inner : List InsertionId} {tags : List Tag}

/-- The insertions in the output, and those above each constructor. -/
def idsAt (d : Draft) : Option InsertionId → List InsertionId
  | none => d.placed
  | some c => d.store.declarationsOf c

/-- **A draft that a census is of.** -/
structure Counted (d : Draft) (t : Census) : Prop where
  /-- The tags of the insertions. -/
  tags_eq : d.store.tags = t.tags
  /-- The constructor of the class. -/
  constructor_eq : d.constructor = t.constructor
  /-- What is anywhere is in the store. -/
  lt_size : ∀ o, ∀ id ∈ d.idsAt o, id < d.store.size
  /-- What is where. -/
  held_eq : ∀ o, ↑((d.idsAt o).map d.store.tag?) = t.held o

namespace Counted

theorem empty : Draft.empty.Counted .empty where
  tags_eq := rfl
  constructor_eq := rfl
  lt_size := fun o id hid => by cases o <;> exact absurd hid List.not_mem_nil
  held_eq := fun o => by cases o <;> rfl

/-- A class is begun without a constructor. -/
theorem start (h : d.Counted t) (warnings : List Warning) :
    Counted { d with constructor := none, warnings } { t with constructor := none } :=
  ⟨h.tags_eq, rfl, h.lt_size, h.held_eq⟩

theorem record (h : d.Counted t) (id : InsertionId) (n : Note) : (d.record id n).Counted t :=
  ⟨h.tags_eq, h.constructor_eq, h.lt_size, h.held_eq⟩

/-- **A store that has grown without new insertions** and holds the same. -/
theorem of_store (h : d.Counted t) (hgrows : d.store.Grows e.store)
    (hsize : e.store.size = d.store.size)
    (hdeclarations : ∀ c, e.store.declarationsOf c = d.store.declarationsOf c)
    (hplaced : e.placed = d.placed) (hconstructor : e.constructor = d.constructor) :
    e.Counted t := by
  have htags := hgrows.tags_eq hsize
  have hids : e.idsAt = d.idsAt := by
    funext o
    cases o with
    | none => exact hplaced
    | some c => exact hdeclarations c
  refine ⟨htags.trans h.tags_eq, hconstructor.trans h.constructor_eq, ?_, ?_⟩
  · rw [hids, hsize]
    exact h.lt_size
  · rw [hids, Store.tag?_eq_of_tags_eq htags]
    exact h.held_eq

/-- A new insertion with nothing above it. -/
theorem push (h : d.Counted t) (i : Insertion) (hi : i.declarations = []) :
    Counted { d with store := d.store.push i } (t.grow [i.tag]) := by
  have hgrows := Store.grows_push d.store i
  have hids : idsAt { d with store := d.store.push i } = d.idsAt := by
    funext o
    cases o with
    | none => rfl
    | some c => exact Store.declarationsOf_push _ hi c
  refine ⟨?_, h.constructor_eq, fun o id hid => ?_, fun o => ?_⟩
  · rw [Store.tags_push, h.tags_eq]
    rfl
  · exact Nat.lt_of_lt_of_le (h.lt_size o id (hids ▸ hid)) hgrows.size_le
  · rw [hids]
    refine Eq.trans (congrArg _ (List.map_congr_left (fun id hid => ?_))) (h.held_eq o)
    obtain ⟨i, hi⟩ := Store.exists_get? (h.lt_size o id hid)
    have htag : d.store.tag? id = some i.tag := congrArg (Option.map Insertion.tag) hi
    rw [htag]
    exact hgrows.tag?_eq htag

/-- Insertions are put into the output. -/
theorem place (h : d.Counted t) (hids : ids.map d.store.tag? = tags.map some) :
    (d.place ids).Counted (t.put none tags) := by
  refine ⟨h.tags_eq, h.constructor_eq, fun o id hid => ?_, fun o => ?_⟩
  · cases o with
    | some c => exact h.lt_size (some c) id hid
    | none =>
      rcases List.mem_append.mp hid with hid | hid
      · exact Store.lt_size_of_map_tag? hids id (List.mem_reverse.mp hid)
      · exact h.lt_size none id hid
  · cases o with
    | some c => exact (h.held_eq (some c)).trans (by simp [Census.put])
    | none =>
      show ↑((ids.reverse ++ d.placed).map d.store.tag?) = t.held none + _
      rw [if_pos rfl, ← h.held_eq none, List.map_append, List.map_reverse, hids,
        ← Multiset.coe_add, Multiset.coe_reverse, add_comm]
      rfl

/-- **What was put into the output** is taken out again. -/
theorem unplace {tag : Tag} (h : d.Counted (t.put none [tag])) (hid : id ∈ d.placed)
    (htag : d.store.tag? id = some tag) : (d.unplace [id]).Counted t := by
  refine ⟨h.tags_eq, h.constructor_eq, fun o j hj => ?_, fun o => ?_⟩
  · cases o with
    | some c => exact h.lt_size (some c) j hj
    | none => exact h.lt_size none j (List.mem_of_mem_erase hj)
  · cases o with
    | some c => exact (h.held_eq (some c)).trans (by simp [Census.put])
    | none =>
      have hheld : ((d.placed.map d.store.tag? : List _) : Multiset (Option Tag))
          = t.held none + {some tag} := (h.held_eq none).trans (by simp [Census.put])
      have herase := Multiset.map_erase_of_mem d.store.tag? d.placed (x := id) hid
      show ((d.placed.erase id).map d.store.tag? : Multiset (Option Tag)) = t.held none
      rw [← Multiset.map_coe, ← Multiset.coe_erase, herase, Multiset.map_coe, hheld, htag,
        add_comm, Multiset.singleton_add, Multiset.erase_cons_head]

/-- **Declarations are attached** to the constructor of the class. -/
theorem declare (h : d.Counted t) (hc : d.constructor = some c)
    {criteria : CriteriaList} {type : JavaType} {receiver : Option InsertionId}
    {declarations : List InsertionId}
    (hget : d.store.get? c = some (.constructor criteria type receiver declarations))
    (hids : ids.map d.store.tag? = tags.map some) :
    Counted { d with
      store := d.store.modify c
        (fun _ => .constructor criteria type receiver (declarations ++ ids)) }
      (t.put t.constructor tags) := by
  have htags := (Store.grows_declarations hget ids).tags_eq (Store.size_modify _ _ _)
  have hmore := Store.declarationsOf_declare hget ids
  refine ⟨htags.trans h.tags_eq, h.constructor_eq, fun o id hid => ?_, fun o => ?_⟩
  · rw [Store.size_modify]
    cases o with
    | none => exact h.lt_size none id hid
    | some k =>
      have hid : id ∈ d.store.declarationsOf k ++ if k = c then ids else [] := hmore k ▸ hid
      rcases List.mem_append.mp hid with hid | hid
      · exact h.lt_size (some k) id hid
      · split at hid
        · exact Store.lt_size_of_map_tag? hids id hid
        · exact absurd hid List.not_mem_nil
  · rw [Store.tag?_eq_of_tags_eq htags, ← h.constructor_eq, hc]
    cases o with
    | none => exact (h.held_eq none).trans (by simp [Census.put])
    | some k =>
      have hheld := h.held_eq (some k)
      show ((Store.declarationsOf _ k).map d.store.tag? : Multiset (Option Tag))
        = t.held (some k) + _
      rw [hmore k, ← hheld, List.map_append, ← Multiset.coe_add]
      by_cases hk : k = c
      · simp [hk, hids, idsAt]
      · simp [hk, idsAt]

end Counted

/-! ## The constructor of a class -/

theorem ensureConstructor_makes (h : d.Counted t) (place : CriteriaList) :
    Makes (fun r => d.store.Grows r.1.store ∧ d.Later r.1 ∧ r.1.Counted (t.ensure place)
        ∧ r.1.constructor = some r.2) (d.ensureConstructor place) := by
  have hmakes : Makes (fun r => d.ensureConstructor place = .ok r)
      (d.ensureConstructor place) := by
    refine Makes.self ?_
    unfold ensureConstructor
    cases d.constructor with
    | some c => exact trivial
    | none => exact (d.store.pushConstructor_makes place).bind (fun _ _ => trivial)
  refine hmakes.mono (fun r hr => ?_)
  have hlater := later_ensureConstructor hr
  unfold ensureConstructor at hr
  unfold Census.ensure
  rw [← h.constructor_eq]
  cases hc : d.constructor with
  | some c =>
    rw [hc] at hr
    cases hr
    exact ⟨.refl _, hlater, h, hc⟩
  | none =>
    rw [hc] at hr
    obtain ⟨store, hstore, hr⟩ := bind_eq_ok.mp hr
    cases hr
    have hgrows := Store.grows_pushConstructor hstore
    obtain ⟨name, -, rfl⟩ := Store.pushConstructor_eq_ok.mp hstore
    have hpushed := h.push (.constructor place (.named (Name.simple name)) none []) rfl
    have htag : [d.store.size].map
        (d.store.push (.constructor place (.named (Name.simple name)) none [])).tag?
          = [("constructor", place)].map some := by
      simp [Store.tag?, Insertion.tag, kindName, criteria]
    have hplaced := hpushed.place htag
    refine ⟨hgrows, hlater, ⟨hplaced.tags_eq, ?_, hplaced.lt_size, hplaced.held_eq⟩, rfl⟩
    show some d.store.size = some t.tags.length
    rw [← h.tags_eq, Store.length_tags]

theorem absorbReceiver_makes (d : Draft) (c id : InsertionId) :
    Makes (fun e => d.absorbReceiver c id = .ok e) (d.absorbReceiver c id) := by
  refine Makes.self ((d.store.attachReceiver_makes c id).bind (fun ⟨store, kept⟩ _ => ?_))
  dsimp only
  split <;> exact trivial

/-- **What the constructor takes up** is gone from the output, or above the constructor. -/
theorem absorbInto_makes {rest : List InsertionId} (h : (d.unplace (id :: rest)).Counted t)
    (hc : d.constructor = some c) (htags : (id :: rest).map d.store.tag? = tags.map some)
    (hkind : ∀ tag ∈ tags, tag.1 = "receiver" ↔ p.isReceiver = true) :
    Makes (fun r => d.store.Grows r.1.store ∧ r.2 = (p.isTakenUp || !n.typeOnly)
        ∧ (r.2 = true → r.1.Counted (t.put (if n.typeOnly then none else t.constructor)
            (if p.isTakenUp then [] else tags)))
        ∧ (r.2 = false → r.1 = d))
      (d.absorbInto c p.criteria.compose n (id :: rest)) := by
  obtain ⟨i, hget⟩ := Store.exists_get? (Store.lt_size_of_map_tag? htags id List.mem_cons_self)
  have hreceiver : i.IsReceiver ↔ p.isReceiver = true := by
    obtain ⟨tag, htag, hid⟩ := List.mem_map.mp (htags ▸ List.mem_map_of_mem List.mem_cons_self)
    obtain rfl : tag = i.tag :=
      Option.some.inj (hid.trans (congrArg (Option.map Insertion.tag) hget))
    exact isReceiver_iff.trans (hkind i.tag htag)
  by_cases hi : i.IsReceiver
  case pos =>
    have htaken : p.isTakenUp = true := by simp [Spot.isTakenUp, hreceiver.mp hi]
    cases i with
    | receiver place type inner =>
      rw [absorbInto, hget]
      refine (d.absorbReceiver_makes c id).bind (fun e he => Makes.pure ?_)
      obtain ⟨⟨kept, hattach⟩, hplaced, hconstructor⟩ := absorbReceiver_spec he
      have hgrows := Store.grows_attachReceiver hattach
      refine ⟨hgrows, by simp [htaken], fun _ => ?_, fun hr => by cases hr⟩
      rw [if_pos htaken, Census.put_nil]
      refine h.of_store hgrows (Store.size_attachReceiver hattach)
        (Store.declarationsOf_attachReceiver hattach) ?_ hconstructor
      unfold unplace
      rw [hplaced]
    | _ => exact hi.elim
  case neg =>
    have hreceiver : p.isReceiver = false := Bool.eq_false_iff.mpr (mt hreceiver.mpr hi)
    rw [absorbInto_of_not_receiver hget hi]
    by_cases hresult : p.criteria.compose.isOnReturnType = true
    case pos =>
      have htaken : p.isTakenUp = true := by simp [Spot.isTakenUp, hresult]
      rw [if_pos hresult]
      refine (d.store.addTypeAnnotation_makes c n.text).bind (fun store hstore => Makes.pure ?_)
      have hgrows := Store.grows_addTypeAnnotation hstore
      refine ⟨hgrows, by simp [htaken], fun _ => ?_, fun hr => by cases hr⟩
      rw [if_pos htaken, Census.put_nil]
      exact h.of_store hgrows (Store.size_addTypeAnnotation hstore)
        (Store.declarationsOf_addTypeAnnotation hstore) rfl rfl
    case neg =>
      have htaken : p.isTakenUp = false := by simp [Spot.isTakenUp, hreceiver, hresult]
      rw [if_neg hresult]
      cases htype : n.typeOnly with
      | true => exact Makes.pure ⟨.refl _, by simp [htaken], (fun hr => by cases hr), fun _ => rfl⟩
      | false =>
        refine (d.store.attachDeclarations_makes c id rest).bind (fun store hstore => Makes.pure ?_)
        obtain ⟨criteria, type, receiver, declarations, hget, rfl⟩ := hstore
        refine ⟨Store.grows_declarations hget _, by simp [htaken], fun _ => ?_,
          fun hr => by cases hr⟩
        rw [htaken]
        exact h.declare hc hget htags

/-- **What gathers annotations finds its place**, or is left over for the output. -/
theorem absorb_makes {rest : List InsertionId} (h : d.Counted t)
    (htags : (id :: rest).map d.store.tag? = tags.map some)
    (hkind : ∀ tag ∈ tags, tag.1 = "receiver" ↔ p.isReceiver = true)
    (hout : ∀ j ∈ id :: rest, j ∉ d.placed) :
    Makes (fun r => d.store.Grows r.1.store
        ∧ (r.2 = true → r.1.Counted (t.settle ctx p n.typeOnly tags))
        ∧ (r.2 = false → ∃ t', r.1.Counted t' ∧ t'.put none tags = t.settle ctx p n.typeOnly tags))
      (absorb ctx p.criteria p.criteria.compose d n (id :: rest)) := by
  by_cases on : ctx.OnConstructor p.toPosition
  case neg =>
    have hoff : ctx.onConstructor p.toPosition = false := Bool.eq_false_iff.mpr on
    rw [absorb_of_not_on on]
    exact Makes.pure ⟨.refl _, (fun hr => by cases hr), fun _ =>
      ⟨t, h, (Census.settle_of_not_on hoff _ _ _).symm⟩⟩
  have hon : ctx.onConstructor p.toPosition = true := on
  rw [absorb_of_on on]
  refine (ensureConstructor_makes h p.criteria).bind
    (fun ⟨e, c⟩ ⟨hgrows, hlater, hcounted, hc⟩ => ?_)
  -- it was never put into the output, so taking it out again changes nothing
  have hunplace : e.unplace (id :: rest) = e := by
    refine unplace_of_notMem (fun j hj hmem => ?_)
    obtain ⟨new, hnew, hmade⟩ := hlater.placed
    rcases List.mem_append.mp (hnew ▸ hmem) with hmem | hmem
    · exact Nat.not_lt_of_le (hmade j hmem).1 (Store.lt_size_of_map_tag? htags j hj)
    · exact hout j hj hmem
  refine (absorbInto_makes (hunplace.symm ▸ hcounted) hc (hgrows.map_tag?_eq htags) hkind).mono
    (fun r ⟨hgrows', habsorbed, htaken, hleft⟩ =>
      ⟨hgrows.trans hgrows', fun hr => ?_, fun hr => ?_⟩)
  · rw [Census.settle_of_on hon]
    exact htaken hr
  · rw [Census.settle_of_on hon]
    rw [habsorbed, Bool.or_eq_false_iff, Bool.not_eq_false'] at hr
    obtain ⟨htakenUp, htype⟩ := hr
    refine ⟨_, hleft (by simp [habsorbed, htakenUp, htype]) ▸ hcounted, ?_⟩
    rw [htakenUp, htype]
    rfl

/-! ## Positions -/

/-- For what is withheld there is a constructor at most. -/
theorem absorb_withheld_makes (h : d.Counted t) (p : Spot) (n : Note) :
    Makes (fun r => d.store.Grows r.1.store ∧ r.1.Counted (t.settle ctx p n.typeOnly []))
      (absorb ctx p.criteria p.criteria.compose d n []) := by
  by_cases on : ctx.OnConstructor p.toPosition
  case neg =>
    rw [absorb_of_not_on on, Census.settle_of_not_on (Bool.eq_false_iff.mpr on), Census.put_nil]
    exact Makes.pure ⟨.refl _, h⟩
  case pos =>
    rw [absorb_of_on on, Census.settle_of_on on, ite_self, Census.put_nil]
    exact (ensureConstructor_makes h p.criteria).bind (fun r hr => Makes.pure ⟨hr.1, hr.2.2.1⟩)

/-- **An insertion of its own finds its place.** -/
theorem absorb_single_makes (h : d.Counted t) (hform : p.form = .single)
    (htag : d.store.tag? id = some p.tag) (n : Note) :
    Makes (fun r => d.store.Grows r.1.store ∧ r.1.Counted (t.settle ctx p n.typeOnly [p.tag]))
      (absorb ctx p.criteria p.criteria.compose (d.place [id]) n [id]) := by
  have hplaced : (d.place [id]).Counted (t.put none [p.tag]) :=
    h.place (congrArg (fun tag => [tag]) htag : [id].map d.store.tag? = [p.tag].map some)
  by_cases on : ctx.OnConstructor p.toPosition
  case neg =>
    rw [absorb_of_not_on on, Census.settle_of_not_on (Bool.eq_false_iff.mpr on)]
    exact Makes.pure ⟨.refl _, hplaced⟩
  rw [absorb_of_on on, Census.settle_of_on on]
  refine (ensureConstructor_makes hplaced p.criteria).bind
    (fun ⟨e, c⟩ ⟨hgrows, hlater, hcounted, hc⟩ => ?_)
  rw [Census.ensure_put] at hcounted
  have htag' : e.store.tag? id = some p.tag := hgrows.tag?_eq htag
  have hmem : id ∈ e.placed := by
    obtain ⟨new, hnew, -⟩ := hlater.placed
    exact hnew ▸ List.mem_append_right _ List.mem_cons_self
  have htags : [id].map e.store.tag? = [p.tag].map some := congrArg (fun tag => [tag]) htag'
  refine (absorbInto_makes (hcounted.unplace hmem htag') hc htags
    (Spot.isReceiver_of_single hform)).mono
    (fun r ⟨hgrows', habsorbed, htaken, hleft⟩ => ⟨hgrows.trans hgrows', ?_⟩)
  cases hr : r.2 with
  | true => exact htaken hr
  | false =>
    rw [habsorbed, Bool.or_eq_false_iff, Bool.not_eq_false'] at hr
    obtain ⟨htakenUp, htype⟩ := hr
    rw [htakenUp, htype, hleft (by simp [habsorbed, htakenUp, htype])]
    exact hcounted

/-- **An annotation becomes an insertion of its own.** -/
theorem addSingle_makes (h : d.Counted t) (hform : p.form = .single) (withhold : Bool)
    (n : Note) :
    Makes (fun r => d.store.Grows r.1.store ∧ r.1.Counted (t.single ctx p withhold n.typeOnly)
        ∧ r.1.store.tag? r.2 = some p.tag)
      (addSingle ctx p.criteria p.criteria.compose withhold d n) := by
  let e : Draft :=
    ({ d with store := d.store.push (p.insertion n) } : Draft).record d.store.size n
  have he : e.Counted (t.grow [p.tag]) := (h.push (p.insertion n) rfl).record _ n
  have hgrown : d.store.Grows e.store := Store.grows_push _ _
  have htag : e.store.tag? d.store.size = some p.tag :=
    Store.tag?_eq_some.mpr ⟨_, Store.get?_push_size _ _, rfl⟩
  cases withhold with
  | true =>
    show Makes _ (absorb ctx p.criteria p.criteria.compose e n [] >>= _)
    exact (absorb_withheld_makes he p n).bind (fun r hr =>
      Makes.pure ⟨hgrown.trans hr.1, hr.2, hr.1.tag?_eq htag⟩)
  | false =>
    show Makes _ (absorb ctx p.criteria p.criteria.compose (e.place [d.store.size]) n
      [d.store.size] >>= _)
    exact (absorb_single_makes he hform htag n).bind (fun r hr =>
      Makes.pure ⟨hgrown.trans hr.1, hr.2, hr.1.tag?_eq htag⟩)

/-- **Annotations become insertions of their own.** -/
theorem addSingles_makes (hform : p.form = .single) (withhold : Bool) :
    ∀ (notes : List Note) {d : Draft} {t : Census}, d.Counted t →
      Makes (fun r => d.store.Grows r.1.store
          ∧ r.1.Counted ((notes.map Note.typeOnly).foldl (Census.single ctx p withhold) t)
          ∧ r.2.map r.1.store.tag? = (notes.map (fun _ => p.tag)).map some)
        (addSingles ctx p.criteria p.criteria.compose withhold d notes)
  | [], _, _, h => Makes.pure ⟨.refl _, h, rfl⟩
  | n :: rest, d, t, h => by
    refine (addSingle_makes h hform withhold n).bind (fun ⟨e, id⟩ ⟨hgrows, he, htag⟩ => ?_)
    refine (addSingles_makes hform withhold rest he).bind
      (fun ⟨f, ids⟩ ⟨hgrows', hf, htags⟩ => Makes.pure ⟨hgrows.trans hgrows', hf, ?_⟩)
    rw [List.map_cons, List.map_cons, List.map_cons, htags, hgrows'.tag?_eq htag]

/-! ## What gathers annotations -/

/-- **What gathers annotations is made**, unless it is a cast that the annotations within do
not fit. -/
theorem create_makes (h : d.Counted t) (hform : p.form ≠ .single) {text : Option String}
    (hcast : ∀ type, p.form = .cast type →
      ∃ store, d.store.pushCast type text inner p.criteria = .ok store) :
    Makes (fun r => d.store.Grows r.1.store ∧ r.1.Counted (t.grow p.tags)
        ∧ r.1.placed = d.placed ∧ Made p r.1.store d.store.size r.2)
      (create p.form p.criteria inner text d) := by
  have hpush := Store.grows_push d.store
  cases form : p.form with
  | single => exact absurd form hform
  | receiver =>
    have htags : p.tags = [("receiver", p.criteria)] := by simp [Spot.tags, form]
    rw [htags]
    exact Makes.pure ⟨hpush _, h.push _ rfl, rfl, .receiver form (Store.get?_push_size _ _)⟩
  | new =>
    have htags : p.tags = [("new", p.criteria)] := by simp [Spot.tags, form]
    rw [htags]
    exact Makes.pure ⟨hpush _, h.push _ rfl, rfl, .new form (Store.get?_push_size _ _)⟩
  | cast type =>
    have htags : p.tags = [("cast", p.criteria), ("close_parenthesis", p.criteria)] := by
      simp [Spot.tags, form]
    obtain ⟨store, hstore⟩ := hcast type form
    rw [create, hstore, htags]
    have hgrows := Store.grows_pushCast hstore
    obtain ⟨-, ⟨decorated', hcast⟩, hclose, -⟩ := Store.pushCast_spec hstore
    obtain ⟨decorated, -, rfl⟩ := Store.pushCast_eq_ok.mp hstore
    refine Makes.pure ⟨hgrows, ?_, rfl, .cast form hcast hclose⟩
    have hboth :=
      (h.push (.cast p.criteria decorated false) rfl).push (.closeParenthesis p.criteria false) rfl
    rwa [Census.grow_grow] at hboth

/-- Further annotations make no insertions. -/
theorem addNotes_makes (id : InsertionId) (notes : List Note) (h : d.Counted t) :
    Makes (fun e => d.store.Grows e.store ∧ e.Counted t) (notes.foldlM (addNote id) d) := by
  refine Makes.foldlM notes (fun e ⟨hgrows, he⟩ n _ => ?_) ⟨.refl _, h⟩
  refine (e.store.addTypeAnnotation_makes id n.text).bind (fun store hstore => Makes.pure ?_)
  have hmore := Store.grows_addTypeAnnotation hstore
  have hadded : Counted { e with store } t :=
    he.of_store hmore (Store.size_addTypeAnnotation hstore)
      (Store.declarationsOf_addTypeAnnotation hstore) rfl rfl
  exact ⟨hgrows.trans hmore, hadded.record id n⟩

/-- **Annotations are gathered**, unless in a cast that the annotations within do not fit. -/
theorem gather_makes (h : d.Counted t) (hform : p.form ≠ .single)
    (hcast : ∀ text type, p.form = .cast type →
      ∃ store, d.store.pushCast type text inner p.criteria = .ok store) (notes : List Note) :
    Makes (fun e => d.store.Grows e.store
        ∧ e.Counted (t.gather ctx p (p.form.isCast || !inner.isEmpty)
            (notes.map Note.typeOnly).head?))
      (gather ctx p.form p.criteria p.criteria.compose inner d notes) := by
  cases notes with
  | nil =>
    rw [gather, List.map_nil, List.head?_nil, Census.gather]
    cases p.form.isCast || !inner.isEmpty with
    | false => exact Makes.pure ⟨.refl _, h⟩
    | true =>
      refine (create_makes h hform (hcast none)).bind (fun r hr => ?_)
      obtain ⟨hgrows, he, -, hmade⟩ := hr
      exact Makes.pure ⟨hgrows, he.place hmade.map_tag?_eq⟩
  | cons n rest =>
    refine (create_makes h hform (hcast (some n.text))).bind (fun r hr => ?_)
    obtain ⟨e, made⟩ := r
    obtain ⟨hgrows, he, hplaced, hmade⟩ := hr
    obtain ⟨more, rfl⟩ := hmade.exists_cons
    have htags := hmade.map_tag?_eq
    have hout : ∀ j ∈ d.store.size :: more, j ∉ e.placed := by
      intro j hj hmem
      have hold : j ∈ d.placed := hplaced ▸ hmem
      exact Nat.not_lt_of_le (hmade.mem j hj).1 (h.lt_size none j hold)
    refine (absorb_makes (he.record d.store.size n) htags p.isReceiver_of_mem_tags hout).bind
      (fun r hr => ?_)
    obtain ⟨f, absorbed⟩ := r
    obtain ⟨hgrows', htaken, hleft⟩ := hr
    cases absorbed with
    | true =>
      refine (addNotes_makes d.store.size rest (htaken rfl)).bind (fun g hr => ?_)
      obtain ⟨hgrows'', hg⟩ := hr
      exact Makes.pure ⟨(hgrows.trans hgrows').trans hgrows'', hg⟩
    | false =>
      obtain ⟨t', ht', hput⟩ := hleft rfl
      refine (addNotes_makes d.store.size rest ht').bind (fun g hr => ?_)
      obtain ⟨hgrows'', hg⟩ := hr
      refine Makes.pure ⟨(hgrows.trans hgrows').trans hgrows'', ?_⟩
      show (g.place _).Counted ((t.grow p.tags).settle ctx p n.typeOnly p.tags)
      rw [← hput]
      exact hg.place (hgrows''.map_tag?_eq (hgrows'.map_tag?_eq htags))

/-! ## Sites -/

/-- **A position within a type is worked off.** -/
theorem visitNested_makes (h : d.Counted t) {q : Position} (withhold : Bool) {notes : List Note}
    (hnotes : ctx.formatter.notes q.criteria q.annotations = .ok notes) :
    Makes (fun r => d.store.Grows r.1.store
        ∧ r.1.Counted (t.visitSpot ctx (.within q) withhold []).1
        ∧ r.2.map r.1.store.tag? = (t.visitSpot ctx (.within q) withhold []).2.map some)
      (visitNested ctx withhold d q) := by
  have hread : Makes (notes = ·) (ctx.formatter.notes q.criteria q.annotations) := by
    rw [hnotes]
    exact Makes.pure rfl
  unfold Census.visitSpot
  rw [Context.flags_eq (p := (Spot.within q).toPosition) hnotes]
  refine hread.bind (fun _ hn => ?_)
  subst hn
  cases hclass : Form.classify q.criteria.compose none with
  | single =>
    have hform : (Spot.within q).form = .single := hclass
    rw [hform]
    refine (addSingles_makes hform withhold notes h).mono (fun r hr => ?_)
    obtain ⟨hgrows, hr, htags⟩ := hr
    refine ⟨hgrows, hr, ?_⟩
    rw [htags, List.map_map, List.map_map, List.map_map]
    rfl
  | cast type =>
    -- there is no type to cast to within a type
    have hcast : (Form.classify q.criteria.compose none).isCast = true :=
      congrArg Form.isCast hclass
    cases Form.isSome_of_isCast hcast
  | _ =>
    have hform : (Spot.within q).form = _ := hclass
    have hgather : Makes _ (gather ctx (Spot.within q).form q.criteria q.criteria.compose [] d
        notes) :=
      gather_makes h (p := .within q) (by rw [hform]; simp)
        (fun text type htype => by cases hform.symm.trans htype) notes
    rw [hform] at hgather ⊢
    exact hgather.bind (fun e he => Makes.pure ⟨he.1, he.2, rfl⟩)

/-- **The positions within a type are worked off.** -/
theorem visitAllNested_makes (withhold : Bool) :
    ∀ {positions : List Position} {d : Draft} {t : Census}, d.Counted t →
      (∀ q ∈ positions, ∃ notes, ctx.formatter.notes q.criteria q.annotations = .ok notes) →
      Makes (fun r => d.store.Grows r.1.store
          ∧ r.1.Counted (t.visitWithin ctx withhold positions).1
          ∧ r.2.map r.1.store.tag? = (t.visitWithin ctx withhold positions).2.map some)
        (visitAllNested ctx withhold d positions)
  | [], _, _, h, _ => Makes.pure ⟨.refl _, h, rfl⟩
  | q :: rest, d, t, h, hnotes => by
    obtain ⟨⟨notes, hfirst⟩, hrest⟩ := List.forall_mem_cons.mp hnotes
    refine (visitNested_makes h withhold hfirst).bind (fun ⟨e, ids⟩ ⟨hgrows, he, htags⟩ => ?_)
    refine (visitAllNested_makes withhold he hrest).bind
      (fun ⟨f, more⟩ ⟨hgrows', hf, htags'⟩ => Makes.pure ⟨hgrows.trans hgrows', hf, ?_⟩)
    rw [Census.visitWithin]
    dsimp only
    rw [List.map_append, List.map_append, htags', hgrows'.map_tag?_eq htags]

/-- **The site itself is worked off**, unless it is one with a cast that the annotations within
do not fit. -/
theorem visitOwn_makes (h : d.Counted t) {s : Site} (hids : ids.map d.store.tag? = tags.map some)
    (hcast : ∀ text type, s.spot.form = .cast type →
      ∃ store, d.store.pushCast type text ids s.criteria = .ok store) {notes : List Note}
    (hnotes : ctx.formatter.notes s.criteria s.annotations = .ok notes) :
    Makes (fun e => e.Counted (t.visitOwn ctx s tags)) (visitOwn ctx s d ids) := by
  have hrelease : (release s d ids).Counted
      (if s.withholds && !s.spot.form.isCast then t.put none tags else t) := by
    unfold release
    cases s.withholds && !s.spot.form.isCast with
    | true => exact h.place hids
    | false => exact h
  have hempty : ids.isEmpty = tags.isEmpty := by
    cases ids <;> cases tags <;> simp at hids ⊢
  have hread : Makes (notes = ·) (ctx.formatter.notes s.criteria s.annotations) := by
    rw [hnotes]
    exact Makes.pure rfl
  unfold Census.visitOwn Census.visitSpot
  rw [Context.flags_eq (p := s.spot.toPosition) hnotes]
  refine hread.bind (fun _ hn => ?_)
  subst hn
  cases hform : s.spot.form with
  | single =>
    rw [hform] at hrelease
    exact (addSingles_makes hform false notes hrelease).bind (fun r hr => Makes.pure hr.2.1)
  | _ =>
    have hgather : Makes _ (gather ctx s.spot.form s.criteria s.criteria.compose ids
        (release s d ids) notes) :=
      gather_makes hrelease (p := s.spot) (by rw [hform]; simp)
        (by rw [store_release]; exact hcast) notes
    rw [hform, hempty] at hgather
    exact hgather.mono (fun e he => he.2)

end Draft

end AnnotationPlan
