import AnnotationPlan.Proofs.Draft.Append
import AnnotationPlan.Proofs.Plan.Visits

/-!
# Classes are independent of one another

A run carries a draft from class to class: the store, the output, the sources and the
imports grow all the time, and the constructor is that of the class being worked off. Yet
no class has an influence on what becomes of another. A run on a scene is as good as runs
on its packages and on each of its classes alone, one after another, with the plans put
behind one another (`Scene.classByClass`), and it fails if one of them does, with the
error of the first (`Plan.ofScene_classByClass`).

Putting a plan behind another (`Plan.append`) moves its numbers up by the number of
insertions that there are, puts its lists behind those of the other, and drops the imports
that are there already. That a part of a scene can be worked off from the empty draft
instead of the one left by the parts before it is shown for drafts
(`Draft.visits_append`). It remains to see that these are closed: nothing is recorded but
for insertions that are there (`Draft.Recorded`).
-/

namespace AnnotationPlan

/-! ## What is recorded -/

/-- **The records of a draft are in order**: it is recorded of insertions in the store
where they come from, and no import is listed twice. -/
structure Draft.Recorded (d : Draft) : Prop where
  /-- The sources are those of insertions in the store. -/
  below : d.sources.Below d.store.size
  /-- The imports differ. -/
  nodup : d.imports.Nodup

namespace Draft.Recorded

variable {d d' : Draft}

theorem empty : Draft.empty.Recorded :=
  ⟨fun _ hid => absurd hid List.not_mem_nil, List.Pairwise.nil⟩

/-- Where nothing is recorded the records stay in order. -/
theorem of_le (h : d.Recorded) (hsize : d.store.size ≤ d'.store.size)
    (hsources : d'.sources = d.sources) (himports : d'.imports = d.imports) : d'.Recorded :=
  ⟨hsources ▸ h.below.mono hsize, himports ▸ h.nodup⟩

/-- A note is recorded for an insertion in the store. -/
theorem record (h : d.Recorded) {id : InsertionId} (hid : id < d.store.size) (n : Note) :
    (d.record id n).Recorded :=
  ⟨h.below.put hid n.use, Store.nodup_addMissing h.nodup⟩

/-- The receiver of a constructor gets the sources of one that is merged into it. -/
theorem absorbReceiver (h : d.Recorded) {c id : InsertionId} (hid : id < d.store.size)
    (made : d.absorbReceiver c id = .ok d') : d'.Recorded := by
  rw [Draft.absorbReceiver, bind_eq_ok] at made
  obtain ⟨⟨store, kept⟩, hattach, made⟩ := made
  have hsize : store.size = d.store.size := Store.size_attachReceiver hattach
  have hkept : kept < store.size := by
    rw [hsize]
    obtain ⟨_, _, _, _, -, ⟨-, rfl, -⟩ | ⟨-, rfl, -⟩ | ⟨_, _, _, _, _, _, -, -, hget, -⟩⟩ :=
      Store.attachReceiver_cases hattach
    · exact hid
    · exact hid
    · exact Store.lt_size hget
  have hbelow : d.sources.Below store.size := h.below.mono (Nat.le_of_eq hsize.symm)
  dsimp only at made
  split at made
  case isTrue =>
    cases made
    exact ⟨hbelow, h.nodup⟩
  case isFalse =>
    cases made
    exact ⟨.puts hkept _ hbelow, h.nodup⟩

end Draft.Recorded

/-- **Every step keeps the records in order.** -/
theorem Step.recorded {ctx : Context} {p : Spot} {base : Nat} {className : Option String}
    {w w' : Work} (h : Step ctx p base w w') (hd : w.draft.Sound className)
    (hw : w.draft.Recorded) : w'.draft.Recorded := by
  have hsize := (h.grows hd).size_le
  cases h with
  | @single d _ _ n form note =>
    have hpushed : Draft.Recorded { d with store := d.store.push (p.insertion n) } :=
      hw.of_le hsize rfl rfl
    refine hpushed.record ?_ n
    show d.store.size < (d.store.push (p.insertion n)).size
    rw [Store.size_push]
    exact Nat.lt_succ_self _
  | record id n known => exact hw.record known n
  | receive on form kind constructor made => exact hw.absorbReceiver kind.lt_size made
  | @annotate d _ _ _ _ n note new kind made =>
    rw [Draft.addNote, bind_eq_ok] at made
    obtain ⟨store, hstore, made⟩ := made
    cases made
    have hannotated : Draft.Recorded { d with store } := hw.of_le hsize rfl rfl
    exact hannotated.record (Nat.lt_of_lt_of_le kind.lt_size hsize) n
  | _ => exact hw.of_le hsize rfl rfl

/-- **The records are in order in every run.** -/
theorem Work.recorded_invariant : Invariant (fun w => w.draft.Recorded) where
  empty := Draft.Recorded.empty
  start := fun _ h => h.of_le (Nat.le_refl _) rfl rfl
  step := fun _ hd hstep h => hstep.recorded hd h

/-- **A part leaves a sound draft** with its records in order. -/
theorem Part.visitPart_recorded {className : Option String} {d : Draft} (formatter : Formatter)
    (settings : Settings) (lookup : ConstructorLookup) (p : Part) (hd : d.Sound className)
    (h : d.Recorded) :
    Yields (fun e => e.Sound p.className? ∧ e.Recorded)
      (Plan.visitPart formatter settings lookup d p) := by
  refine p.visitPart_yields formatter settings lookup ?_
  refine (@Draft.visits_yields (fun w => w.draft.Recorded) _ _ 0 Work.recorded_invariant.step
    p.sites _ [] p.fits_sites (p.sound_start settings lookup hd) (Nat.zero_le _)
    (p.start_keeps Work.recorded_invariant settings lookup h)).mono ?_
  exact fun e ⟨hsound, _, _, hrecorded⟩ => ⟨hsound, hrecorded⟩

/-- **Parts leave a sound draft** with its records in order. -/
theorem Plan.foldlM_recorded (formatter : Formatter) (settings : Settings)
    (lookup : ConstructorLookup) (parts : List Part) :
    Yields (fun e => (∃ className, e.Sound className) ∧ e.Recorded)
      (parts.foldlM (Plan.visitPart formatter settings lookup) Draft.empty) := by
  refine Yields.foldlM parts (fun d ⟨⟨className, hd⟩, h⟩ p _ => ?_)
    ⟨⟨none, Draft.sound_empty none⟩, .empty⟩
  exact (p.visitPart_recorded formatter settings lookup hd h).mono
    (fun e ⟨hsound, hrecorded⟩ => ⟨⟨_, hsound⟩, hrecorded⟩)

/-! ## Scenes and plans -/

namespace Scene

/-- The packages of a scene alone. -/
def onlyPackages (s : Scene) : Scene :=
  { s with classes := .empty }

/-- One class of a scene alone. -/
def onlyClass (s : Scene) (name : String) (c : ClassElement) : Scene :=
  { s with packages := .empty, classes := .ofList [(name, c)] }

end Scene

namespace Plan

/-- **A plan behind another one.** -/
def append (p q : Plan) : Plan where
  store := p.store.append q.store
  order := p.order ++ q.order.map (· + p.store.size)
  sources := p.sources.append p.store.size q.sources
  policy := p.policy
  imports := (p.imports ++ q.imports).eraseDups
  warnings := p.warnings ++ q.warnings

end Plan

/-- **A scene worked off class by class**: the packages alone, then each class alone, and
the plans put behind one another. -/
def Scene.classByClass (s : Scene) (run : Scene → Except PlanError Plan) :
    Except PlanError Plan := do
  let packages ← run s.onlyPackages
  let classes ← s.classes.entries.mapM (fun c => run (s.onlyClass c.1 c.2))
  pure (classes.foldl Plan.append packages)

namespace Plan

/-- The plan that a draft makes. -/
def ofDraft (policy : NamePolicy) (d : Draft) : Plan where
  store := d.store
  order := d.placed.reverse
  sources := d.sources
  policy := policy
  imports := d.imports
  warnings := d.warnings

/-- **The plan of a draft behind another** is the one plan behind the other. -/
theorem ofDraft_append (policy : NamePolicy) {d₀ : Draft} (h₀ : d₀.imports.Nodup) (d : Draft) :
    ofDraft policy (d₀.append d) = (ofDraft policy d₀).append (ofDraft policy d) := by
  have horder : (d.placed.map (· + d₀.store.size) ++ d₀.placed).reverse
      = d₀.placed.reverse ++ d.placed.reverse.map (· + d₀.store.size) := by
    rw [List.reverse_append, List.map_reverse]
  have himports : Formatter.mergeImports d₀.imports d.imports
      = (d₀.imports ++ d.imports).eraseDups :=
    Store.addMissing_eq_eraseDups d.imports h₀
  unfold ofDraft append Draft.append
  rw [horder, himports]

section Parts

variable (formatter : Formatter) (settings : Settings) (lookup : ConstructorLookup)

/-- The plan of a part alone. -/
def ofPart (p : Part) : Except PlanError Plan :=
  (visitPart formatter settings lookup Draft.empty p).map (ofDraft formatter.policy)

/-- **A part worked off behind a draft** is worked off as from the start. The constructor
of a class is forgotten before the next one is begun. -/
theorem exists_visitPart_append (policy : NamePolicy) {className : Option String} {d : Draft}
    (hd : d.Sound className) (h : d.Recorded) (p : Part) :
    ∃ d₀ : Draft, ofDraft policy d₀ = ofDraft policy d
      ∧ Carries d₀.append (visitPart formatter settings lookup Draft.empty p)
          (visitPart formatter settings lookup d p) := by
  cases p with
  | nameless name => exact ⟨d, rfl, fun _ => rfl⟩
  | package name annotations =>
    have hclosed : d.Closed ⟨formatter, false⟩ :=
      ⟨hd.placed_lt, h.below, fun hwrites => by cases hwrites⟩
    have hsites := Draft.visits_append hclosed (Part.package name annotations).sites .empty
    rw [Draft.append_empty] at hsites
    exact ⟨d, rfl, hsites⟩
  | type name element =>
    let d₀ : Draft := { d with constructor := none }
    have hclosed : d₀.Closed ((Part.type name element).context formatter settings lookup) :=
      ⟨hd.placed_lt, h.below, fun _ => rfl⟩
    have hstart : (Part.type name element).start settings lookup d
        = d₀.append ((Part.type name element).start settings lookup .empty) :=
      (Draft.append_warnings d₀ (knowledge settings lookup name).2).symm
    have hsites := Draft.visits_append hclosed (Part.type name element).sites
      ((Part.type name element).start settings lookup .empty)
    rw [← hstart] at hsites
    exact ⟨d₀, rfl, hsites⟩

/-- **Parts worked off one after another** make the plans of each alone, put behind one
another. -/
theorem map_foldlM_visitPart : ∀ (parts : List Part) {className : Option String} {d : Draft},
    d.Sound className → d.Recorded →
    (parts.foldlM (visitPart formatter settings lookup) d).map (ofDraft formatter.policy)
      = (parts.mapM (ofPart formatter settings lookup)).map
          (List.foldl append (ofDraft formatter.policy d))
  | [], _, _, _, _ => rfl
  | p :: rest, _, d, hd, h => by
    obtain ⟨d₀, hplan, hcarries⟩ :=
      exists_visitPart_append formatter settings lookup formatter.policy hd h p
    have halone := p.visitPart_recorded formatter settings lookup (Draft.sound_empty none)
      Draft.Recorded.empty
    have hbehind := p.visitPart_recorded formatter settings lookup hd h
    have hsame := hcarries.eq_map halone
    rw [List.foldlM_cons, List.mapM_cons, hsame, ofPart]
    cases hone : visitPart formatter settings lookup Draft.empty p with
    | error e => rfl
    | ok e =>
      obtain ⟨hsound, hrecorded⟩ := hbehind.of_ok (hsame.trans (congrArg (Except.map _) hone))
      have himports : d₀.imports = d.imports := congrArg imports hplan
      have hplans : ofDraft formatter.policy (d₀.append e)
          = (ofDraft formatter.policy d).append (ofDraft formatter.policy e) := by
        rw [ofDraft_append _ (himports ▸ h.nodup), hplan]
      show (rest.foldlM (visitPart formatter settings lookup) (d₀.append e)).map _
        = (rest.mapM (ofPart formatter settings lookup)
            >>= fun plans => pure (ofDraft formatter.policy e :: plans)).map _
      rw [map_foldlM_visitPart rest hsound hrecorded, hplans]
      cases rest.mapM (ofPart formatter settings lookup) <;> rfl

end Parts

section Run

variable (policy : NamePolicy) (scene : Scene) (lookup : ConstructorLookup)
  (settings : Settings)

/-- A run works off the parts from the empty draft. -/
theorem ofSceneWith_eq :
    ofSceneWith policy scene lookup settings
      = (scene.parts.foldlM (visitPart ⟨scene.definitions, policy⟩ settings lookup)
          Draft.empty).map (ofDraft policy) := by
  unfold ofSceneWith
  cases scene.parts.foldlM (visitPart ⟨scene.definitions, policy⟩ settings lookup) Draft.empty <;>
    rfl

/-- A class alone is a part alone. -/
theorem ofSceneWith_onlyClass (c : String × ClassElement) :
    ofSceneWith policy (scene.onlyClass c.1 c.2) lookup settings
      = ofPart ⟨scene.definitions, policy⟩ settings lookup (Part.ofClass c.1 c.2) := by
  rw [ofSceneWith_eq, ofPart]
  show Except.map _ (visitPart _ _ _ _ _ >>= pure) = _
  rw [bind_pure]
  rfl

/-- **A run is as good as runs class by class.** -/
theorem ofSceneWith_eq_classByClass :
    ofSceneWith policy scene lookup settings
      = scene.classByClass (ofSceneWith policy · lookup settings) := by
  let visit := visitPart ⟨scene.definitions, policy⟩ settings lookup
  let packages := scene.packages.entries.map (fun p => Part.package p.1 p.2.annotations)
  have hpackages : ofSceneWith policy scene.onlyPackages lookup settings
      = (packages.foldlM visit Draft.empty).map (ofDraft policy) := by
    rw [ofSceneWith_eq]
    show Except.map _ ((packages ++ []).foldlM _ _) = _
    rw [List.append_nil]
    rfl
  have hyields := foldlM_recorded ⟨scene.definitions, policy⟩ settings lookup packages
  unfold Scene.classByClass
  simp only [ofSceneWith_onlyClass]
  rw [hpackages, ofSceneWith_eq, Scene.parts, List.foldlM_append]
  show (packages.foldlM visit Draft.empty >>= _).map _ = _
  cases hrun : packages.foldlM visit Draft.empty with
  | error e => rfl
  | ok d =>
    obtain ⟨⟨className, hd⟩, h⟩ := hyields.of_ok hrun
    let alone := fun c : String × ClassElement =>
      ofPart ⟨scene.definitions, policy⟩ settings lookup (Part.ofClass c.1 c.2)
    show ((scene.classes.entries.map _).foldlM visit d).map (ofDraft policy)
      = scene.classes.entries.mapM alone
        >>= fun classes => pure (classes.foldl append (ofDraft policy d))
    rw [map_foldlM_visitPart ⟨scene.definitions, policy⟩ settings lookup _ hd h, List.mapM_map]
    show (scene.classes.entries.mapM alone).map _ = _
    cases scene.classes.entries.mapM alone <;> rfl

/-- **Classes are independent of one another.** A run is as good as runs on the packages and
on each class alone, in order: it fails with the error of the first that fails, and
otherwise makes their plans, put behind one another. Whatever is put behind the plan of a
run, the tables of sources share no number: the pairs of the one come behind all of those
of the other. -/
theorem ofScene_classByClass :
    ofSceneWith policy scene lookup settings
        = scene.classByClass (ofSceneWith policy · lookup settings)
    ∧ ofScene scene lookup settings = scene.classByClass (ofScene · lookup settings)
    ∧ Yields (fun plan => ∀ q : Plan, (plan.append q).sources.byInsertion.entries
          = plan.sources.byInsertion.entries
            ++ q.sources.byInsertion.entries.map (Prod.map (· + plan.store.size) id))
        (ofSceneWith policy scene lookup settings) := by
  refine ⟨ofSceneWith_eq_classByClass policy scene lookup settings,
    ofSceneWith_eq_classByClass (NamePolicy.ofTable scene.definitions) scene lookup settings, ?_⟩
  refine (foldlM_recorded _ settings lookup scene.parts).bind (fun d ⟨_, hrecorded⟩ => ?_)
  exact Yields.pure (fun q => Sources.entries_append hrecorded.below q.sources)

end Run

end Plan

end AnnotationPlan
