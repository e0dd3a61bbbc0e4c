import AnnotationPlan.Proofs.Draft.Placing
import AnnotationPlan.Proofs.Plan.Visits
import AnnotationPlan.Proofs.Scene.Outline

/-!
# The output follows the outline

A run works off the spots of a scene one after another, and at each of them it makes some
insertions: those with the numbers from one on, up to another (`Stop`). The spots are those
of the outline of the scene, in its order, and every insertion is made at one of them. But
the output is not in the order of the numbers, since what was withheld within a type is put
into it later, and what was put into it may be taken out again.

It follows the outline all the same (`Plan.ofSceneWith_ordered`). The reason is that at
every stop the output **falls in two parts** (`Draft.IsSplit`): first comes what was made
before the stop, and then what was made there or later. This is so when the stop begins,
for nothing was made later then; and it remains so, since only new insertions are put into
the output, and those that are withheld are put there together.
-/

namespace AnnotationPlan

/-! ## Stops -/

/-- **A stop**: a spot is worked off, and the insertions made there have the numbers from one
on, up to another. -/
structure Stop where
  /-- The spot. -/
  spot : Spot
  /-- The first number of an insertion made there. -/
  first : InsertionId
  /-- The first number of an insertion made later. -/
  next : InsertionId

namespace Stop

/-- An insertion is made at a stop. -/
def Makes (s : Stop) (id : InsertionId) : Prop := s.first ≤ id ∧ id < s.next

/-- **Stops one after another**: each begins where the one before it ends. -/
inductive Chain : InsertionId → List Stop → InsertionId → Prop
  /-- Without a stop nothing is made. -/
  | nil (a : InsertionId) : Chain a [] a
  /-- A stop comes first, and others follow. -/
  | cons {s : Stop} {rest : List Stop} {b : InsertionId} (le : s.first ≤ s.next)
      (chain : Chain s.next rest b) : Chain s.first (s :: rest) b

namespace Chain

variable {a b c : InsertionId} {xs ys : List Stop}

/-- Chains can be put behind one another. -/
theorem append (h : Chain a xs b) (h' : Chain b ys c) : Chain a (xs ++ ys) c := by
  induction h with
  | nil => exact h'
  | cons le _ ih => exact .cons le (ih h')

/-- The numbers of a stop are within those of the chain. -/
theorem bounds (h : Chain a xs b) : a ≤ b ∧ ∀ s ∈ xs, a ≤ s.first ∧ s.first ≤ b := by
  induction h with
  | nil a => exact ⟨Nat.le_refl a, fun _ hs => absurd hs List.not_mem_nil⟩
  | cons le _ ih =>
    have hle := Nat.le_trans le ih.1
    refine ⟨hle, List.forall_mem_cons.mpr ⟨⟨Nat.le_refl _, hle⟩, ?_⟩⟩
    exact fun s hs => ⟨Nat.le_trans le (ih.2 s hs).1, (ih.2 s hs).2⟩

/-- **Every number is that of a stop.** -/
theorem exists_makes (h : Chain a xs b) {id : InsertionId} (hid : a ≤ id) (hlt : id < b) :
    ∃ s ∈ xs, s.Makes id := by
  induction h with
  | nil => exact absurd hlt (Nat.not_lt.mpr hid)
  | @cons s rest b le chain ih =>
    by_cases hnext : id < s.next
    · exact ⟨s, List.mem_cons_self, hid, hnext⟩
    · obtain ⟨t, ht, hmakes⟩ := ih (Nat.le_of_not_lt hnext) hlt
      exact ⟨t, List.mem_cons_of_mem s ht, hmakes⟩

/-- **A later stop** has higher numbers. -/
theorem next_le (h : Chain a xs b) : xs.Pairwise (fun s t => s.next ≤ t.first) := by
  induction h with
  | nil => exact .nil
  | cons _ chain ih => exact .cons (fun t ht => (chain.bounds.2 t ht).1) ih

end Chain

end Stop

namespace Draft

/-- The stops at the positions within a type. -/
def stopsWithin (ctx : Context) (withhold : Bool) : Draft → List Position → List Stop
  | _, [] => []
  | d, p :: rest =>
    match visitNested ctx withhold d p with
    | .ok (e, _) =>
      ⟨.within p, d.store.size, e.store.size⟩ :: stopsWithin ctx withhold e rest
    | .error _ => []

end Draft

/-- **The stops of a visit**: at the positions within the type of the site, and at the site
itself. -/
def Visit.stops (v : Visit) : List Stop :=
  Draft.stopsWithin v.ctx v.site.withholds v.before v.site.nested
    ++ match Draft.visitAllNested v.ctx v.site.withholds v.before v.site.nested with
      | .ok (d, inner) =>
        match Draft.visitOwn v.ctx v.site d inner with
        | .ok e => [⟨v.site.spot, d.store.size, e.store.size⟩]
        | .error _ => []
      | .error _ => []

/-- **The stops of a run** in order. -/
def Plan.stops (policy : NamePolicy) (scene : Scene) (lookup : ConstructorLookup)
    (settings : Settings) : List Stop :=
  (Plan.visits policy scene lookup settings).flatMap Visit.stops

/-! ## Two parts of the output -/

namespace Draft

variable {ctx : Context} {d e f : Draft} {b : InsertionId} {inner ids : List InsertionId}
  {s : Site} {withhold : Bool}

/-- **The output falls in two parts**: what was made before some number was reached comes
first, and behind it what was made from this number on. -/
def IsSplit (d : Draft) (b : InsertionId) : Prop := d.placed.Pairwise (fun k j => b ≤ j → b ≤ k)

/-- Nothing has been made yet from the number on that comes next. -/
theorem IsBounded.isSplit (h : d.IsBounded) : d.IsSplit d.store.size :=
  List.pairwise_of_forall_mem_list
    (fun _ _ j hj hle => absurd (h j hj) (Nat.not_lt.mpr hle))

/-- **The two parts remain apart** if only new insertions are put into the output. -/
theorem IsSplit.later (h : d.IsSplit b) (hb : b ≤ d.store.size) (hlater : d.Later e) :
    e.IsSplit b := by
  obtain ⟨-, new, hnew, hmade⟩ := hlater
  unfold IsSplit
  rw [hnew, List.pairwise_append]
  refine ⟨List.pairwise_of_forall_mem_list (fun k hk _ _ _ => ?_), h, fun k hk _ _ _ => ?_⟩
  · exact Nat.le_trans hb (hmade k hk).1
  · exact Nat.le_trans hb (hmade k hk).1

/-- **Work from one draft to another**, stop after stop. -/
structure Worked (d : Draft) (stops : List Stop) (e : Draft) : Prop where
  /-- Only new insertions were put into the output. -/
  later : d.Later e
  /-- The stops are one after another. -/
  chain : Stop.Chain d.store.size stops e.store.size
  /-- At each of them the output falls in two parts. -/
  split : ∀ s ∈ stops, e.IsSplit s.first

namespace Worked

theorem nil (d : Draft) : d.Worked [] d :=
  ⟨.refl d, .nil _, fun _ hs => absurd hs List.not_mem_nil⟩

/-- Work can be continued. -/
theorem append {xs ys : List Stop} (h : d.Worked xs e) (h' : e.Worked ys f) :
    d.Worked (xs ++ ys) f where
  later := h.later.trans h'.later
  chain := h.chain.append h'.chain
  split := fun s hs => by
    rcases List.mem_append.mp hs with hs | hs
    · exact (h.split s hs).later (h.chain.bounds.2 s hs).2 h'.later
    · exact h'.split s hs

/-- The output is in the store at the end if it was at the beginning. -/
theorem isBounded {stops : List Stop} (h : d.Worked stops e) (hd : d.IsBounded) : e.IsBounded :=
  h.later.isBounded hd

end Worked

/-- **The stops at the positions within a type.** -/
theorem worked_visitAllNested : ∀ {positions : List Position} {d : Draft}
    {ids : List InsertionId}, d.IsBounded →
    visitAllNested ctx withhold d positions = .ok (e, ids) →
    d.Worked (stopsWithin ctx withhold d positions) e
    ∧ (stopsWithin ctx withhold d positions).map Stop.spot = positions.map Spot.within
  | [], _, _, _, h => by
    cases h
    exact ⟨.nil _, rfl⟩
  | p :: rest, d, _, hd, h => by
    obtain ⟨⟨f, ids⟩, hf, h⟩ := bind_eq_ok.mp h
    obtain ⟨⟨g, more⟩, hg, h⟩ := bind_eq_ok.mp h
    cases h
    obtain ⟨hlater, -⟩ := later_visitNested hd hf
    have hfirst : d.Worked [⟨.within p, d.store.size, f.store.size⟩] f :=
      ⟨hlater, .cons (s := ⟨.within p, d.store.size, f.store.size⟩) hlater.size_le (.nil _),
        List.forall_mem_singleton.mpr (hd.isSplit.later (Nat.le_refl _) hlater)⟩
    obtain ⟨hrest, hspots⟩ := worked_visitAllNested (hlater.isBounded hd) hg
    have hstops : stopsWithin ctx withhold d (p :: rest)
        = [⟨.within p, d.store.size, f.store.size⟩] ++ stopsWithin ctx withhold f rest := by
      rw [stopsWithin, hf]
      rfl
    rw [hstops, List.map_append, hspots]
    exact ⟨hfirst.append hrest, rfl⟩

/-- **What was withheld is put into the output together**, behind all that was there when the
site was begun, and in order. -/
theorem release_spec (hd : d.IsBounded) (hlater : d.Later e) (hids : IsFresh d e inner)
    (hplaced : s.withholds = true → e.placed = d.placed) :
    d.Later (release s e inner)
    ∧ ∀ b, d.store.size ≤ b → e.IsSplit b → (release s e inner).IsSplit b := by
  unfold release
  split
  case isFalse => exact ⟨hlater, fun _ _ h => h⟩
  case isTrue hrelease =>
    rw [Bool.and_eq_true] at hrelease
    refine ⟨hlater.place hids.between, fun b hb _ => ?_⟩
    show (inner.reverse ++ e.placed).Pairwise _
    rw [hplaced hrelease.1, List.pairwise_append, List.pairwise_reverse]
    have hold : ∀ j ∈ d.placed, ¬ b ≤ j := fun j hj =>
      Nat.not_le_of_lt (Nat.lt_of_lt_of_le (hd j hj) hb)
    refine ⟨hids.ordered.imp (fun hlt hle => Nat.le_trans hle (Nat.le_of_lt hlt)), ?_, ?_⟩
    · exact List.pairwise_of_forall_mem_list (fun _ _ j hj hle => absurd hle (hold j hj))
    · exact fun _ _ j hj hle => absurd hle (hold j hj)

/-- **The stops of a visit** are at the spots of the site. -/
theorem worked_visit (hd : d.IsBounded)
    (hpaths : ∀ p ∈ s.nested, p.criteria.compose.hasTypePath = true)
    (h : visit ctx d s = .ok e) :
    d.Worked (Visit.stops ⟨ctx, d, s⟩) e ∧ (Visit.stops ⟨ctx, d, s⟩).map Stop.spot = s.spots := by
  rw [visit_eq] at h
  obtain ⟨⟨f, inner⟩, hnested, hown⟩ := bind_eq_ok.mp h
  obtain ⟨hwithin, hspots⟩ := worked_visitAllNested hd hnested
  obtain ⟨hlater, hfresh⟩ := later_visitAllNested hd hnested
  obtain ⟨hrelease, hsplit⟩ := release_spec (s := s) hd hlater hfresh
    (fun hw => placed_visitAllNested hpaths (hw ▸ hnested))
  have hafter := later_visitOwn (hrelease.isBounded hd) hown
  have hsize : (release s f inner).store.size = f.store.size :=
    congrArg Store.size (store_release s f inner)
  have hstops : Visit.stops ⟨ctx, d, s⟩ = stopsWithin ctx s.withholds d s.nested
      ++ [⟨s.spot, f.store.size, e.store.size⟩] := by
    rw [Visit.stops, hnested]
    dsimp only
    rw [hown]
  have hgrown : f.store.size ≤ e.store.size := hsize ▸ hafter.size_le
  -- a part of the output that is put there from some stop on remains in its place
  have hremains : ∀ b, d.store.size ≤ b → b ≤ f.store.size → f.IsSplit b → e.IsSplit b :=
    fun b hb hle h => (hsplit b hb h).later (hsize.symm ▸ hle) hafter
  rw [hstops, List.map_append, hspots]
  refine ⟨⟨hrelease.trans hafter, ?_, fun st hst => ?_⟩, rfl⟩
  · exact hwithin.chain.append
      (.cons (s := ⟨s.spot, f.store.size, e.store.size⟩) hgrown (.nil _))
  · rcases List.mem_append.mp hst with hst | hst
    · obtain ⟨hfirst, hlast⟩ := hwithin.chain.bounds.2 st hst
      exact hremains st.first hfirst hlast (hwithin.split st hst)
    · obtain rfl := List.mem_singleton.mp hst
      exact hremains f.store.size hlater.size_le (Nat.le_refl _)
        (hlater.isBounded hd).isSplit

/-- **The stops at several sites** are at their spots. -/
theorem worked_visits : ∀ {sites : List Site} {d : Draft}, d.IsBounded →
    (∀ s ∈ sites, ∀ p ∈ s.nested, p.criteria.compose.hasTypePath = true) →
    sites.foldlM (visit ctx) d = .ok e →
    d.Worked ((visits ctx d sites).flatMap Visit.stops) e
    ∧ ((visits ctx d sites).flatMap Visit.stops).map Stop.spot = sites.flatMap Site.spots
  | [], _, _, _, h => by
    cases h
    exact ⟨.nil _, rfl⟩
  | s :: rest, d, hd, hpaths, h => by
    obtain ⟨hs, hrest⟩ := List.forall_mem_cons.mp hpaths
    rw [List.foldlM_cons] at h
    obtain ⟨f, hf, h⟩ := bind_eq_ok.mp h
    obtain ⟨hfirst, hspots⟩ := worked_visit hd hs hf
    obtain ⟨hothers, hspots'⟩ := worked_visits (hfirst.isBounded hd) hrest h
    rw [visits, hf, List.flatMap_cons, List.map_append, hspots, hspots', List.flatMap_cons]
    exact ⟨hfirst.append hothers, rfl⟩

end Draft

namespace Plan

/-- **The stops at the parts of a scene** are at their spots. -/
theorem worked_visitsFrom {formatter : Formatter} {settings : Settings}
    {lookup : ConstructorLookup} {e : Draft} :
    ∀ {parts : List Part} {d : Draft}, d.IsBounded →
      (∀ p ∈ parts, ∀ i ∈ p.items, TypeElement.keysLeadIn i.inner = true) →
      parts.foldlM (visitPart formatter settings lookup) d = .ok e →
      d.Worked ((visitsFrom formatter settings lookup d parts).flatMap Visit.stops) e
      ∧ ((visitsFrom formatter settings lookup d parts).flatMap Visit.stops).map Stop.spot
        = (parts.flatMap Part.items).flatMap Item.spots
  | [], _, _, _, h => by
    cases h
    exact ⟨.nil _, rfl⟩
  | p :: rest, d, hd, hkeys, h => by
    obtain ⟨hp, hrest⟩ := List.forall_mem_cons.mp hkeys
    rw [List.foldlM_cons] at h
    obtain ⟨f, hf, h⟩ := bind_eq_ok.mp h
    have hstart : (p.start settings lookup d).IsBounded ∧ d.Later (p.start settings lookup d) := by
      cases p with
      | type name c => exact ⟨hd, .of_eq (Nat.le_refl _) rfl⟩
      | _ => exact ⟨hd, .refl d⟩
    have hpaths : ∀ s ∈ p.sites, ∀ q ∈ s.nested, q.criteria.compose.hasTypePath = true := by
      rw [← p.map_items]
      exact List.forall_mem_map.mpr (fun i hi => Item.hasTypePath_of_mem_nested (hp i hi))
    obtain ⟨hfirst, hspots⟩ := Draft.worked_visits hstart.1 hpaths
      (Part.foldlM_of_visitPart formatter settings lookup hf)
    have hworked : d.Worked _ f :=
      ⟨hstart.2.trans hfirst.later, p.store_start settings lookup d ▸ hfirst.chain, hfirst.split⟩
    obtain ⟨hothers, hspots'⟩ := worked_visitsFrom (hworked.isBounded hd) hrest h
    have hitems : p.sites.flatMap Site.spots = p.items.flatMap Item.spots := by
      rw [← p.map_items, List.flatMap_map]
      exact List.flatMap_congr (fun i _ => i.spots_site)
    rw [visitsFrom, hf]
    rw [List.flatMap_append, List.map_append, hspots, hspots', hitems, List.flatMap_cons,
      List.flatMap_append]
    exact ⟨hworked.append hothers, rfl⟩

section Run

variable (policy : NamePolicy) (scene : Scene) (lookup : ConstructorLookup) (settings : Settings)

/-- **An insertion is made for a spot** of the outline, that with some number: it is made at
the stop there. -/
def IsMadeFor (n : Nat) (id : InsertionId) : Prop :=
  ∃ s, (stops policy scene lookup settings)[n]? = some s ∧ s.Makes id

variable {policy scene lookup settings} {plan : Plan}
  (h : ofSceneWith policy scene lookup settings = .ok plan)
include h

/-- **The output follows the outline.** If all keys lead further into types, the stops of a
run are at the spots of the outline, in its order; every insertion in the output is made for
one of the spots, a constructor for the one that called for it; and of two insertions in the
output the first is not made for a later spot than the second. -/
theorem ofSceneWith_ordered (hkeys : scene.KeysLeadIn) :
    (stops policy scene lookup settings).map Stop.spot = scene.spots
    ∧ (∀ id ∈ plan.order, ∃ n, IsMadeFor policy scene lookup settings n id)
    ∧ plan.order.Pairwise (fun j k => ∀ m n, IsMadeFor policy scene lookup settings m j →
        IsMadeFor policy scene lookup settings n k → m ≤ n) := by
  obtain ⟨d, hd, h⟩ := bind_eq_ok.mp h
  cases h
  have hempty : Draft.empty.IsBounded := fun _ hid => absurd hid List.not_mem_nil
  have hitems : ∀ p ∈ scene.parts, ∀ i ∈ p.items, TypeElement.keysLeadIn i.inner = true :=
    fun p hp i hi => hkeys i (scene.items_eq ▸ List.mem_flatMap_of_mem hp hi)
  obtain ⟨hworked, hspots⟩ := worked_visitsFrom hempty hitems hd
  refine ⟨?_, fun id hid => ?_, ?_⟩
  · exact hspots.trans (congrArg (List.flatMap Item.spots) scene.items_eq.symm)
  · have hlt := hworked.isBounded hempty id (List.mem_reverse.mp hid)
    obtain ⟨s, hs, hmakes⟩ := hworked.chain.exists_makes (Nat.zero_le id) hlt
    obtain ⟨n, hn⟩ := List.mem_iff_getElem?.mp hs
    exact ⟨n, s, hn, hmakes⟩
  · rw [List.pairwise_reverse, List.pairwise_iff_forall_sublist]
    rintro k j hsub m n ⟨s, hs, hj⟩ ⟨t, ht, hk⟩
    -- if the second were made for an earlier spot it would be in the first part of the output
    refine Nat.le_of_not_lt (fun hlt => ?_)
    have hsplit := List.pairwise_iff_forall_sublist.mp
      (hworked.split s (List.mem_of_getElem? hs)) hsub
    have hle : t.next ≤ s.first := by
      obtain ⟨hm, rfl⟩ := List.getElem?_eq_some_iff.mp hs
      obtain ⟨hn, rfl⟩ := List.getElem?_eq_some_iff.mp ht
      exact List.pairwise_iff_getElem.mp hworked.chain.next_le n m hn hm hlt
    exact Nat.lt_irrefl k (Nat.lt_of_lt_of_le hk.2 (Nat.le_trans hle (hsplit hj.1)))

end Run

/-- In the sample the constructor is in the output before the cast and its parenthesis, and
was made for an earlier spot. -/
theorem sample_ordered :
    Scene.sample.KeysLeadIn
    ∧ ∃ plan, ofSceneWith ⟨[]⟩ Scene.sample .implicit {} = .ok plan ∧ plan.order = [1, 4, 5]
      ∧ (∀ id ∈ plan.order, ∃ n, IsMadeFor ⟨[]⟩ Scene.sample .implicit {} n id)
      ∧ plan.order.Pairwise (fun j k => ∀ m n, IsMadeFor ⟨[]⟩ Scene.sample .implicit {} m j →
          IsMadeFor ⟨[]⟩ Scene.sample .implicit {} n k → m ≤ n) := by
  have hkeys : Scene.sample.KeysLeadIn := List.all_eq_true.mp rfl
  obtain ⟨plan, hplan, horder⟩ : ∃ plan, ofSceneWith ⟨[]⟩ Scene.sample .implicit {} = .ok plan
      ∧ plan.order = [1, 4, 5] := ⟨_, rfl, rfl⟩
  exact ⟨hkeys, plan, hplan, horder, (ofSceneWith_ordered hplan hkeys).2⟩

end Plan

end AnnotationPlan
