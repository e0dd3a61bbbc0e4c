import AnnotationPlan.Proofs.Draft.Visit
import AnnotationPlan.Synthesis.Plan

/-!
# The visits of a run

A run works off site after site, and each time it comes to a site with a draft. These
**visits** are what can be said about a run that its plan alone does not tell: which
annotations were made within the type of a site, and which cast was made for it. They are
listed by following the run (`Plan.visits`).

Everything that holds of the empty draft, is kept by every step, and does not depend on
the constructor of the class being worked off holds at the end of every run
(`Plan.visits_yields`). With it come the two facts that need no further invariant: only
the scene stops a run, and the draft that is left is sound.
-/

namespace AnnotationPlan

/-- **A visit**: a site is about to be worked off. -/
structure Visit where
  /-- What does not change while the class is worked off. -/
  ctx : Context
  /-- What has come of the sites before. -/
  before : Draft
  /-- The site. -/
  site : Site

namespace Visit

/-- The annotations within the type of the site that are made in the visit. -/
def within (v : Visit) : List InsertionId := Draft.within v.ctx v.before v.site

/-- The cast that is made in the visit. -/
def castId? (v : Visit) : Option InsertionId := Draft.castAt v.ctx v.before v.site

/-- What is written into a cast in the visit. -/
def written (v : Visit) : List (InsertionId × InsertionId) :=
  Draft.writtenAt v.ctx v.before v.site

/-- The cast that is made in the visit is in the store. -/
def CastIn (v : Visit) (s : Store) : Prop :=
  ∀ c, v.castId? = some c → ∃ made, Made v.site.spot s c made

theorem CastIn.grows {v : Visit} {s s' : Store} (h : v.CastIn s) (hgrows : s.Grows s') :
    v.CastIn s' := by
  intro c hc
  obtain ⟨made, hmade⟩ := h c hc
  exact ⟨made, hmade.grows hgrows⟩

/-- **What is written in a visit** are the annotations within the type of the site, into
the cast that is made. -/
theorem mem_written {v : Visit} {id c : InsertionId} :
    (id, c) ∈ v.written ↔ v.castId? = some c ∧ id ∈ v.within := by
  unfold written castId? within Draft.writtenAt
  cases Draft.castAt v.ctx v.before v.site with
  | none => simp
  | some k => simp [and_comm, eq_comm]

end Visit

/-- The visits to sites that are worked off from a draft on. -/
def Draft.visits (ctx : Context) : Draft → List Site → List Visit
  | _, [] => []
  | d, s :: rest =>
    ⟨ctx, d, s⟩ ::
      (match d.visit ctx s with
        | .ok e => Draft.visits ctx e rest
        | .error _ => [])

namespace Part

variable (formatter : Formatter) (settings : Settings) (lookup : ConstructorLookup)

/-- What does not change while a part is worked off. -/
def context : Part → Context
  | .type className _ =>
    ⟨formatter, settings.writesConstructor (Plan.knowledge settings lookup className).1⟩
  | _ => ⟨formatter, false⟩

/-- The draft that a part is started with: a class has no constructor yet. -/
def start (d : Draft) : Part → Draft
  | .type className _ =>
    { d with
      constructor := none
      warnings := d.warnings ++ (Plan.knowledge settings lookup className).2 }
  | _ => d

/-- **Working off a part** is working off its sites, unless its class names no package. -/
theorem visitPart_yields {P : Draft → Prop} {d : Draft} (p : Part)
    (h : Yields P (p.sites.foldlM (Draft.visit (p.context formatter settings lookup))
      (p.start settings lookup d))) :
    Yields P (Plan.visitPart formatter settings lookup d p) := by
  cases p with
  | nameless className => exact (rfl : PlanError.code _ = _)
  | package name annotations => exact h
  | type name element => exact h

/-- **A part that was worked off** names a package, and its sites were worked off. -/
theorem foldlM_of_visitPart {d e : Draft} {p : Part}
    (h : Plan.visitPart formatter settings lookup d p = .ok e) :
    p.sites.foldlM (Draft.visit (p.context formatter settings lookup))
      (p.start settings lookup d) = .ok e := by
  cases p with
  | nameless className => cases h
  | package name annotations => exact h
  | type name element => exact h

@[simp] theorem store_start (settings : Settings) (lookup : ConstructorLookup) (d : Draft)
    (p : Part) : (p.start settings lookup d).store = d.store := by
  cases p <;> rfl

/-- **A part may be started with every sound draft**, whatever class that was for. -/
theorem sound_start {className : Option String} {d : Draft} (settings : Settings)
    (lookup : ConstructorLookup) (p : Part) (hd : d.Sound className) :
    (p.start settings lookup d).Sound p.className? := by
  have houtside : d.Sound none :=
    ⟨hd.placed_lt, hd.wired, fun c hc =>
      (hd.constructor_has c hc).imp (fun _ h => ⟨h.1, h.2.1, fun hnone => absurd rfl hnone⟩)⟩
  cases p with
  | nameless className => exact houtside
  | package name annotations => exact houtside
  | type name element => exact ⟨hd.placed_lt, hd.wired, fun c hc => by cases hc⟩

end Part

namespace Plan

/-- The visits of the parts that are worked off from a draft on. -/
def visitsFrom (formatter : Formatter) (settings : Settings) (lookup : ConstructorLookup) :
    Draft → List Part → List Visit
  | _, [] => []
  | d, p :: rest =>
    Draft.visits (p.context formatter settings lookup) (p.start settings lookup d) p.sites
      ++ (match visitPart formatter settings lookup d p with
        | .ok e => visitsFrom formatter settings lookup e rest
        | .error _ => [])

/-- **The visits of a run** in order. -/
def visits (policy : NamePolicy) (scene : Scene) (lookup : ConstructorLookup)
    (settings : Settings) : List Visit :=
  visitsFrom ⟨scene.definitions, policy⟩ settings lookup Draft.empty scene.parts

end Plan

/-- **An invariant of runs.** -/
structure Invariant (I : Work → Prop) : Prop where
  /-- It holds at the beginning. -/
  empty : I ⟨.empty, [], []⟩
  /-- It holds still when a class is begun. -/
  start : ∀ {d : Draft} {written : List (InsertionId × InsertionId)} (warnings : List Warning),
    I ⟨d, [], written⟩ → I ⟨{ d with constructor := none, warnings }, [], written⟩
  /-- Every step keeps it. -/
  step : ∀ {ctx : Context} {p : Spot} {base : Nat} {className : Option String} {w w' : Work},
    p.Fits className → w.draft.Sound className → Step ctx p base w w' → I w → I w'

/-- Two invariants are one. -/
theorem Invariant.and {I J : Work → Prop} (hI : Invariant I) (hJ : Invariant J) :
    Invariant (fun w => I w ∧ J w) where
  empty := ⟨hI.empty, hJ.empty⟩
  start := fun warnings h => ⟨hI.start warnings h.1, hJ.start warnings h.2⟩
  step := fun hp hd hstep h => ⟨hI.step hp hd hstep h.1, hJ.step hp hd hstep h.2⟩

/-- **Working off sites keeps what every step keeps** that changes insertions from some
number on only, if there were so many already. -/
theorem Draft.visits_yields {I : Work → Prop} {ctx : Context} {className : Option String}
    {base : Nat}
    (hI : ∀ {p : Spot} {w w' : Work}, p.Fits className → w.draft.Sound className →
      Step ctx p base w w' → I w → I w') :
    ∀ {sites : List Site} {d : Draft} {written : List (InsertionId × InsertionId)},
      (∀ s ∈ sites, s.Fits className) → d.Sound className → base ≤ d.store.size →
      I ⟨d, [], written⟩ →
      Yields (fun e => e.Sound className ∧ d.store.Grows e.store
          ∧ (∀ v ∈ Draft.visits ctx d sites, v.CastIn e.store)
          ∧ I ⟨e, [], written ++ (Draft.visits ctx d sites).flatMap Visit.written⟩)
        (sites.foldlM (Draft.visit ctx) d)
  | [], d, written, _, hd, _, hw => by
    refine Yields.pure ⟨hd, .refl _, fun v hv => absurd hv List.not_mem_nil, ?_⟩
    rw [Draft.visits, List.flatMap_nil, List.append_nil]
    exact hw
  | s :: rest, d, written, hsites, hd, hbase, hw => by
    obtain ⟨hs, hrest⟩ := List.forall_mem_cons.mp hsites
    rw [List.foldlM_cons]
    -- the first visit keeps the invariant step by step, and the rest is by induction
    refine (Draft.visit_yields hd hs).self.bind (fun e ⟨he, hcast, hsteps⟩ => ?_)
    obtain ⟨hsound, hgrows⟩ := (hsteps written).sound hs hd
    have hkept : I ⟨e, [], written ++ Draft.writtenAt ctx d s⟩ ∧ e.Sound className :=
      (hsteps written).keep (I := fun w => I w ∧ w.draft.Sound className)
        (fun p hp w w' hstep h => ⟨hI (hs.spots p hp) h.2 (hstep.of_le hbase) h.1,
          hstep.sound (hs.spots p hp) h.2⟩) ⟨hw, hd⟩
    refine (Draft.visits_yields hI hrest hsound (Nat.le_trans hbase hgrows.size_le)
      hkept.1).mono (fun f ⟨hf, hgrows', hcasts, hif⟩ => ?_)
    have hvisits : Draft.visits ctx d (s :: rest) = ⟨ctx, d, s⟩ :: Draft.visits ctx e rest := by
      rw [Draft.visits, he]
    rw [hvisits, List.flatMap_cons, ← List.append_assoc]
    refine ⟨hf, hgrows.trans hgrows', List.forall_mem_cons.mpr ⟨?_, hcasts⟩, hif⟩
    exact Visit.CastIn.grows (v := ⟨ctx, d, s⟩) hcast hgrows'

section Run

variable {I : Work → Prop} (hI : Invariant I) {className : Option String} {d : Draft}
  {written : List (InsertionId × InsertionId)}
include hI

/-- Beginning a part keeps an invariant. -/
theorem Part.start_keeps (settings : Settings) (lookup : ConstructorLookup) (p : Part)
    (hw : I ⟨d, [], written⟩) : I ⟨p.start settings lookup d, [], written⟩ := by
  cases p with
  | type name element => exact hI.start _ hw
  | _ => exact hw

/-- Working off parts keeps an invariant. -/
theorem Plan.visitsFrom_yields (formatter : Formatter) (settings : Settings)
    (lookup : ConstructorLookup) :
    ∀ {parts : List Part} {className : Option String} {d : Draft}
      {written : List (InsertionId × InsertionId)}, d.Sound className → I ⟨d, [], written⟩ →
      Yields (fun e => (∃ className, e.Sound className)
          ∧ d.store.Grows e.store
          ∧ (∀ v ∈ Plan.visitsFrom formatter settings lookup d parts, v.CastIn e.store)
          ∧ I ⟨e, [], written
              ++ (Plan.visitsFrom formatter settings lookup d parts).flatMap Visit.written⟩)
        (parts.foldlM (Plan.visitPart formatter settings lookup) d)
  | [], className, d, written, hd, hw => by
    refine Yields.pure ⟨⟨className, hd⟩, .refl _, fun v hv => absurd hv List.not_mem_nil, ?_⟩
    rw [Plan.visitsFrom, List.flatMap_nil, List.append_nil]
    exact hw
  | p :: rest, className, d, written, hd, hw => by
    rw [List.foldlM_cons]
    have hpart := p.visitPart_yields formatter settings lookup (d := d)
      (Draft.visits_yields hI.step p.fits_sites (p.sound_start settings lookup hd)
        (Nat.zero_le _) (p.start_keeps hI settings lookup hw))
    refine hpart.self.bind (fun e ⟨he, hsound, hgrows, hcasts, hie⟩ => ?_)
    refine (Plan.visitsFrom_yields formatter settings lookup hsound hie).mono
      (fun f ⟨hf, hgrows', hcasts', hif⟩ => ?_)
    rw [p.store_start] at hgrows
    have hvisits : Plan.visitsFrom formatter settings lookup d (p :: rest)
        = Draft.visits (p.context formatter settings lookup) (p.start settings lookup d) p.sites
          ++ Plan.visitsFrom formatter settings lookup e rest := by
      rw [Plan.visitsFrom, he]
    rw [hvisits, List.flatMap_append, ← List.append_assoc]
    refine ⟨hf, hgrows.trans hgrows', fun v hv => ?_, hif⟩
    rcases List.mem_append.mp hv with hv | hv
    · exact (hcasts v hv).grows hgrows'
    · exact hcasts' v hv

/-- **Every run keeps an invariant**, and only the scene stops it. What is left at the end
is a sound draft with nothing in hand, and the casts that were made in the visits. -/
theorem Plan.visits_yields (policy : NamePolicy) (scene : Scene) (lookup : ConstructorLookup)
    (settings : Settings) :
    Yields (fun plan => ∃ d className, plan.store = d.store ∧ plan.order = d.placed.reverse
        ∧ Draft.Sound className d
        ∧ (∀ v ∈ Plan.visits policy scene lookup settings, v.CastIn plan.store)
        ∧ I ⟨d, [], (Plan.visits policy scene lookup settings).flatMap Visit.written⟩)
      (Plan.ofSceneWith policy scene lookup settings) := by
  refine (Plan.visitsFrom_yields hI ⟨scene.definitions, policy⟩ settings lookup
    (Draft.sound_empty none) hI.empty).bind (fun d ⟨⟨className, hd⟩, _, hcasts, hi⟩ => ?_)
  exact Yields.pure ⟨d, className, rfl, rfl, hd, hcasts, hi⟩

end Run

/-! ## Every site is visited -/

/-- The visits of a successful run through sites are to these sites. -/
theorem Draft.map_visits {ctx : Context} :
    ∀ {sites : List Site} {d e : Draft}, sites.foldlM (Draft.visit ctx) d = .ok e →
      (Draft.visits ctx d sites).map (fun v => (v.ctx, v.site)) = sites.map (fun s => (ctx, s))
  | [], _, _, _ => rfl
  | s :: rest, d, e, h => by
    rw [List.foldlM_cons, bind_eq_ok] at h
    obtain ⟨f, hf, h⟩ := h
    rw [Draft.visits, hf, List.map_cons, Draft.map_visits h, List.map_cons]

/-- The visits of a successful run through parts are to their sites. -/
theorem Plan.map_visitsFrom {formatter : Formatter} {settings : Settings}
    {lookup : ConstructorLookup} :
    ∀ {parts : List Part} {d e : Draft},
      parts.foldlM (Plan.visitPart formatter settings lookup) d = .ok e →
      (Plan.visitsFrom formatter settings lookup d parts).map (fun v => (v.ctx, v.site))
        = parts.flatMap (fun p =>
            p.sites.map (fun s => (p.context formatter settings lookup, s)))
  | [], _, _, _ => rfl
  | p :: rest, d, e, h => by
    rw [List.foldlM_cons, bind_eq_ok] at h
    obtain ⟨f, hf, h⟩ := h
    rw [Plan.visitsFrom, hf, List.map_append,
      Draft.map_visits (Part.foldlM_of_visitPart formatter settings lookup hf),
      Plan.map_visitsFrom h, List.flatMap_cons]

section Sites

variable {policy : NamePolicy} {scene : Scene} {lookup : ConstructorLookup}
  {settings : Settings} {plan : Plan}
  (h : Plan.ofSceneWith policy scene lookup settings = .ok plan)
include h

/-- **A successful run visits every site of the scene once**, in order, and with what is
known of its part. -/
theorem Plan.map_visits :
    (Plan.visits policy scene lookup settings).map (fun v => (v.ctx, v.site))
      = scene.parts.flatMap (fun p => p.sites.map
          (fun s => (p.context ⟨scene.definitions, policy⟩ settings lookup, s))) := by
  rw [Plan.ofSceneWith, bind_eq_ok] at h
  obtain ⟨d, hd, -⟩ := h
  exact Plan.map_visitsFrom hd

/-- **Every visit is to a site of a part.** -/
theorem Plan.exists_part {v : Visit} (hv : v ∈ Plan.visits policy scene lookup settings) :
    ∃ p ∈ scene.parts, v.ctx = p.context ⟨scene.definitions, policy⟩ settings lookup
      ∧ v.site ∈ p.sites := by
  have hmem : (v.ctx, v.site) ∈ _ := Plan.map_visits h ▸ List.mem_map_of_mem hv
  obtain ⟨p, hp, hmem⟩ := List.mem_flatMap.mp hmem
  obtain ⟨s, hs, heq⟩ := List.mem_map.mp hmem
  obtain ⟨hctx, rfl⟩ := Prod.mk.inj heq
  exact ⟨p, hp, hctx.symm, hs⟩

/-- **Every site of a part is visited.** -/
theorem Plan.exists_visit {p : Part} (hp : p ∈ scene.parts) {s : Site} (hs : s ∈ p.sites) :
    ∃ v ∈ Plan.visits policy scene lookup settings,
      v.ctx = p.context ⟨scene.definitions, policy⟩ settings lookup ∧ v.site = s := by
  have hmem : (p.context ⟨scene.definitions, policy⟩ settings lookup, s)
      ∈ (Plan.visits policy scene lookup settings).map (fun v => (v.ctx, v.site)) := by
    rw [Plan.map_visits h]
    exact List.mem_flatMap.mpr ⟨p, hp, List.mem_map_of_mem hs⟩
  obtain ⟨v, hv, heq⟩ := List.mem_map.mp hmem
  exact ⟨v, hv, Prod.mk.inj heq⟩

/-- **A cast is made only where one is to be inserted.** -/
theorem Plan.isInsertedCast_of_mem_visits {v : Visit}
    (hv : v ∈ Plan.visits policy scene lookup settings) {c : InsertionId}
    (hc : v.castId? = some c) : v.site.IsInsertedCast := by
  obtain ⟨p, -, -, hp⟩ := Plan.exists_part h hv
  refine p.isInsertedCast v.site hp ?_
  rw [Visit.castId?, Draft.castAt] at hc
  split at hc
  · obtain ⟨hcast, -⟩ := Option.ite_none_right_eq_some.mp hc
    exact Form.isSome_of_isCast hcast
  · cases hc

end Sites

/-! ## A scene in which everything happens -/

/-- The lookup that knows of all classes that they declare no constructor. -/
def ConstructorLookup.implicit : ConstructorLookup := fun _ => .ok .implicitOnly

/-- The node of a method. -/
def TreeKind.method : TreeKind := { name := "Method" }

/-- **A class without a constructor** that has annotations on the constructor and on its
result, and within a cast in its code. -/
def Scene.sample : Scene where
  definitions := .ofList [{ name := "A", targets := some [.typeUse] }, { name := "M" }]
  packages := .empty
  classes := .ofList [("C", { (default : ClassElement) with
    methods := .ofList [(implicitConstructor, { (default : MethodElement) with
      annotations := [.ofName "M"]
      returnType := ⟨[.ofName "A"], []⟩
      insertions := ⟨.empty, .ofList [(⟨[⟨.method, "body", none⟩]⟩,
        ⟨[], [(⟨[.argument 0]⟩, ⟨[.ofName "A"], []⟩)],
          .declared [] "List" [.named "String"] none⟩)]⟩ })] })]

end AnnotationPlan
