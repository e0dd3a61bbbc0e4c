import AnnotationPlan.Proofs.Draft.Warnings
import AnnotationPlan.Proofs.Plan.Independence
import AnnotationPlan.Proofs.Plan.NeededConstructors

/-!
# A failed lookup is a class that nothing is known of, and a warning

A lookup that fails does not stop a run. What the run makes of the failure is a warning,
and for the rest it goes on as if the answer had been that nothing is known. So two
lookups that tell the same of the classes that the run comes to – a failure being taken for
not knowing (`ConstructorLookup.told`) – lead to the same insertions or to the same error,
and the warnings can be read off the lookup alone: there is one for each class that it
fails on, in the order of the classes (`Plan.ofSceneWith_failedLookups`).

Only the classes that the run comes to matter (`Plan.reached`): the lookup is asked when a
class is begun, and a run that is stopped before never asks.
-/

namespace AnnotationPlan

namespace ConstructorLookup

/-- **What a lookup tells of a class**, a failure being taken for not knowing. -/
def told (lookup : ConstructorLookup) (name : String) : ConstructorKnowledge :=
  match lookup name with
  | .ok known => known
  | .error _ => .unknown

/-- The warning about a class that a lookup fails on. -/
def warning? (lookup : ConstructorLookup) (name : String) : Option Warning :=
  match lookup name with
  | .ok _ => none
  | .error e => some ⟨name, e.message⟩

end ConstructorLookup

/-- **The names of the classes** of a scene that do not stand for packages, in order. -/
def Scene.classNames (s : Scene) : List String :=
  s.classes.keys.filter (fun name => !Part.packageSuffix.toList.isSuffixOf name.toList)

/-- A class of a scene is a class unless it stands for a package. -/
theorem Part.className?_ofClass_eq (name : String) (c : ClassElement) :
    (ofClass name c).className?
      = if packageSuffix.toList.isSuffixOf name.toList then none else some name := by
  split
  case isTrue h =>
    obtain ⟨start, hstart⟩ := List.isSuffixOf_iff_suffix.mp h
    rw [ofClass, List.isSuffixOf?_eq_some_iff_append_eq.mpr hstart]
    cases start <;> rfl
  case isFalse h =>
    have hsuffix : ¬ packageSuffix.toList <:+ name.toList :=
      fun hsuffix => h (List.isSuffixOf_iff_suffix.mpr hsuffix)
    rw [ofClass_eq_type_iff.mpr ⟨⟨rfl, rfl⟩, hsuffix⟩]
    rfl

/-- **The classes among the parts of a scene** are those of the scene, in order. -/
theorem Scene.filterMap_className? (s : Scene) :
    s.parts.filterMap Part.className? = s.classNames := by
  unfold parts classNames OrderedMap.keys
  rw [List.filterMap_append, List.filterMap_map, List.filterMap_map, List.filter_map]
  have hpackages : s.packages.entries.filterMap
      (Part.className? ∘ fun p => Part.package p.1 p.2.annotations) = [] :=
    List.filterMap_eq_nil_iff.mpr (fun _ _ => rfl)
  rw [hpackages, List.nil_append, ← List.filterMap_eq_map, List.filterMap_filter]
  refine List.filterMap_congr (fun c _ => ?_)
  show (Part.ofClass c.1 c.2).className?
    = if !Part.packageSuffix.toList.isSuffixOf c.1.toList then some c.1 else none
  rw [Part.className?_ofClass_eq]
  cases Part.packageSuffix.toList.isSuffixOf c.1.toList <;> rfl

namespace Part

variable {settings : Settings} {lookup lookup' : ConstructorLookup}

/-- The warnings that a part is begun with. -/
def warnings (settings : Settings) (lookup : ConstructorLookup) (p : Part) : List Warning :=
  if settings.readBytecode then (p.className?.bind lookup.warning?).toList else []

/-- **What is known of a class** is what the lookup tells, if it is asked. -/
theorem knowledge_eq (settings : Settings) (lookup : ConstructorLookup) (name : String) :
    Plan.knowledge settings lookup name
      = if settings.readBytecode then (lookup.told name, (lookup.warning? name).toList)
        else (.unknown, []) := by
  unfold Plan.knowledge ConstructorLookup.told ConstructorLookup.warning?
  cases settings.readBytecode with
  | false => rfl
  | true => cases lookup name <;> rfl

/-- **A part worked off with another lookup** that tells the same of its class leaves the
same but for the warnings. -/
theorem visitPart_lookup (formatter : Formatter) (p : Part) (d : Draft)
    (warnings : List Warning)
    (h : ∀ name, p.className? = some name → settings.readBytecode = true →
      lookup.told name = lookup'.told name) :
    Carries (·.withWarnings (warnings ++ p.warnings settings lookup'))
      (Plan.visitPart formatter settings lookup d p)
      (Plan.visitPart formatter settings lookup' (d.withWarnings warnings) p) := by
  cases p with
  | nameless name => exact fun _ => rfl
  | package name annotations =>
    have hnone : (Part.package name annotations).warnings settings lookup' = [] := by
      unfold Part.warnings
      split <;> rfl
    rw [hnone, List.append_nil]
    exact Draft.visits_withWarnings _ d
  | type name c =>
    have hknown : (Plan.knowledge settings lookup name).1
        = (Plan.knowledge settings lookup' name).1 := by
      rw [knowledge_eq, knowledge_eq]
      split
      case isTrue hread => exact h name rfl hread
      case isFalse => rfl
    have hwarnings : (Plan.knowledge settings lookup' name).2
        = (Part.type name c).warnings settings lookup' := by
      rw [knowledge_eq, Part.warnings]
      split <;> rfl
    unfold Plan.visitPart
    dsimp only
    rw [hknown, hwarnings]
    exact Draft.visits_withWarnings _ _

end Part

namespace Plan

/-- The parts that are worked off from a draft on, up to the first that fails. -/
def reachedFrom (formatter : Formatter) (settings : Settings) (lookup : ConstructorLookup) :
    Draft → List Part → List Part
  | _, [] => []
  | d, p :: rest =>
    p :: (match visitPart formatter settings lookup d p with
      | .ok e => reachedFrom formatter settings lookup e rest
      | .error _ => [])

/-- **The parts that a run comes to**: all, or those up to the first that fails. -/
def reached (policy : NamePolicy) (scene : Scene) (lookup : ConstructorLookup)
    (settings : Settings) : List Part :=
  reachedFrom ⟨scene.definitions, policy⟩ settings lookup Draft.empty scene.parts

/-- A plan with other warnings. -/
def withWarnings (p : Plan) (warnings : List Warning) : Plan := { p with warnings }

variable {settings : Settings} {lookup lookup' : ConstructorLookup}

/-- Parts worked off with another lookup that tells the same of their classes leave the
same but for the warnings. -/
theorem visitParts_lookup (formatter : Formatter) :
    ∀ (parts : List Part) (d : Draft) (warnings : List Warning),
      (∀ p ∈ reachedFrom formatter settings lookup d parts, ∀ name, p.className? = some name →
        settings.readBytecode = true → lookup.told name = lookup'.told name) →
      Carries (·.withWarnings (warnings ++ parts.flatMap (Part.warnings settings lookup')))
        (parts.foldlM (visitPart formatter settings lookup) d)
        (parts.foldlM (visitPart formatter settings lookup') (d.withWarnings warnings))
  | [], d, warnings, _ => by
    rw [List.flatMap_nil, List.append_nil]
    exact .pure rfl
  | p :: rest, d, warnings, h => by
    rw [reachedFrom] at h
    obtain ⟨hp, hrest⟩ := List.forall_mem_cons.mp h
    rw [List.foldlM_cons, List.foldlM_cons]
    refine (p.visitPart_lookup formatter d warnings hp).bind_of_ok (fun e he => ?_)
    rw [he] at hrest
    rw [List.flatMap_cons, ← List.append_assoc]
    exact visitParts_lookup formatter rest e _ hrest

section Run

variable (policy : NamePolicy) (scene : Scene)

/-- The warnings of all parts are those about the classes that the lookup fails on. -/
theorem flatMap_warnings :
    scene.parts.flatMap (Part.warnings settings lookup)
      = if settings.readBytecode then scene.classNames.filterMap lookup.warning? else [] := by
  unfold Part.warnings
  cases settings.readBytecode with
  | false => exact List.flatMap_eq_nil_iff.mpr (fun _ _ => rfl)
  | true =>
    show scene.parts.flatMap (fun p => (p.className?.bind lookup.warning?).toList) = _
    rw [← List.filterMap_eq_flatMap_toList, ← Scene.filterMap_className?, List.filterMap_filterMap]
    rfl

/-- **A run with another lookup** that tells the same of the classes that are reached makes
the same plan, but for the warnings, or fails alike. -/
theorem ofSceneWith_lookup (settings : Settings) (lookup lookup' : ConstructorLookup)
    (h : ∀ p ∈ reached policy scene lookup settings, ∀ name, p.className? = some name →
      settings.readBytecode = true → lookup.told name = lookup'.told name) :
    ofSceneWith policy scene lookup' settings
      = (ofSceneWith policy scene lookup settings).map (·.withWarnings
          (if settings.readBytecode then scene.classNames.filterMap lookup'.warning? else [])) := by
  have hparts := visitParts_lookup ⟨scene.definitions, policy⟩ scene.parts Draft.empty [] h
  have hyields := foldlM_recorded ⟨scene.definitions, policy⟩ settings lookup scene.parts
  rw [ofSceneWith_eq, ofSceneWith_eq, ← flatMap_warnings]
  have hsame : scene.parts.foldlM (visitPart ⟨scene.definitions, policy⟩ settings lookup')
      Draft.empty = _ := hparts.eq_map hyields
  rw [hsame, List.nil_append]
  cases scene.parts.foldlM (visitPart ⟨scene.definitions, policy⟩ settings lookup)
    Draft.empty <;> rfl

/-- **A failed lookup is a class that nothing is known of, and a warning.** Two lookups that
tell the same of every class that the run comes to, a failure being taken for not knowing,
lead to the same error or to plans that are the same but for their warnings. The warnings
are one for each class that the lookup fails on, in the order of the classes. And if
compiled classes are not consulted, any lookup is as good as the one that knows nothing, and
there are no warnings. -/
theorem ofSceneWith_failedLookups
    (h : ∀ p ∈ reached policy scene lookup settings, ∀ name, p.className? = some name →
      lookup.told name = lookup'.told name) :
    (ofSceneWith policy scene lookup settings).map (·.withWarnings [])
        = (ofSceneWith policy scene lookup' settings).map (·.withWarnings [])
    ∧ (∀ plan, ofSceneWith policy scene lookup settings = .ok plan →
        plan.warnings
          = if settings.readBytecode then scene.classNames.filterMap lookup.warning? else [])
    ∧ (settings.readBytecode = false →
        ofSceneWith policy scene lookup settings = ofSceneWith policy scene .nothing settings) := by
  refine ⟨?_, fun plan hplan => ?_, fun hread => ?_⟩
  · rw [ofSceneWith_lookup policy scene settings lookup lookup'
      (fun p hp name hname _ => h p hp name hname)]
    cases ofSceneWith policy scene lookup settings <;> rfl
  · have hself := ofSceneWith_lookup policy scene settings lookup lookup (fun _ _ _ _ _ => rfl)
    rw [hplan] at hself
    exact congrArg Plan.warnings (Except.ok.inj hself)
  · have hother : ∀ other, ofSceneWith policy scene other settings
        = (ofSceneWith policy scene lookup settings).map (·.withWarnings []) := by
      intro other
      have hsame := ofSceneWith_lookup policy scene settings lookup other
        (fun p _ name _ hasked => absurd (hread.symm.trans hasked) Bool.false_ne_true)
      rwa [if_neg (hread ▸ Bool.false_ne_true)] at hsame
    rw [hother lookup, hother .nothing]

end Run

/-- The lookup that finds no compiled class fails on the class of the sample, and tells as
much as the one that knows nothing. -/
theorem sample_failedLookups :
    let missing : ConstructorLookup := fun name => .error (.notFound name)
    let settings : Settings := { unknownConstructors := .synthesize }
    (∀ p ∈ reached ⟨[]⟩ Scene.sample missing settings, ∀ name, p.className? = some name →
        missing.told name = ConstructorLookup.nothing.told name)
    ∧ (ofSceneWith ⟨[]⟩ Scene.sample missing settings).map (·.withWarnings [])
        = (ofSceneWith ⟨[]⟩ Scene.sample .nothing settings).map (·.withWarnings [])
    ∧ ∃ plan, ofSceneWith ⟨[]⟩ Scene.sample missing settings = .ok plan
        ∧ plan.warnings = [⟨"C", "class file not found for C"⟩] := by
  intro missing settings
  have htold : ∀ p ∈ reached ⟨[]⟩ Scene.sample missing settings, ∀ name,
      p.className? = some name → missing.told name = ConstructorLookup.nothing.told name :=
    fun _ _ _ _ => rfl
  obtain ⟨hsame, hwarnings, -⟩ := ofSceneWith_failedLookups ⟨[]⟩ Scene.sample htold
  obtain ⟨plan, hplan⟩ : ∃ plan, ofSceneWith ⟨[]⟩ Scene.sample missing settings = .ok plan :=
    ⟨_, rfl⟩
  exact ⟨htold, hsame, plan, hplan, hwarnings plan hplan⟩

end Plan

end AnnotationPlan
