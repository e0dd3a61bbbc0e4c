import AnnotationPlan.Proofs.Draft.Bare
import AnnotationPlan.Synthesis.Plan

/-!
# A name policy decides on names only

A run with one name policy and a run with another one do the same: they stop with the same
error, or make plans that differ in nothing but how annotations are written
(`Plan.ofSceneWith_bare`). In particular no annotation that one of them writes is left out
by the other because two texts coincide, and no insertion goes somewhere else.

The names to import do depend on the policy. They are those of known definitions that the
policy lets be written short (`Plan.imports_of_ofSceneWith`).
-/

namespace AnnotationPlan

namespace Plan

/-- **What a plan is but for how annotations are written**: without their texts, without the
names to import and the policy. -/
def bare (p : Plan) : Plan := { p with store := p.store.bare, policy := ⟨[]⟩, imports := [] }

variable {p q : NamePolicy} {settings : Settings} {lookup : ConstructorLookup}
  {definitions : DefinitionTable}

/-- A part worked off with two name policies. -/
theorem visitPart_agree (part : Part) {d d' : Draft}
    (h : d.Alike (Formatter.Imports ⟨definitions, p⟩) d') :
    Agree (Draft.Alike (Formatter.Imports ⟨definitions, p⟩))
      (visitPart ⟨definitions, p⟩ settings lookup d part)
      (visitPart ⟨definitions, q⟩ settings lookup d' part) := by
  cases part with
  | nameless name => exact rfl
  | package name annotations =>
    exact Agree.foldlM_self (fun _ _ s h => Draft.visit_agree h s) _ h
  | type name c =>
    unfold visitPart
    dsimp only
    refine Agree.foldlM_self (fun _ _ s h => Draft.visit_agree h s) _ ?_
    exact { h with constructor_eq := rfl, warnings_eq := congrArg (· ++ _) h.warnings_eq }

section Run

variable (p q : NamePolicy) (scene : Scene) (lookup : ConstructorLookup) (settings : Settings)

/-- All parts of a scene worked off with two name policies. -/
theorem visitParts_agree :
    Agree (Draft.Alike (Formatter.Imports ⟨scene.definitions, p⟩))
      (scene.parts.foldlM (visitPart ⟨scene.definitions, p⟩ settings lookup) Draft.empty)
      (scene.parts.foldlM (visitPart ⟨scene.definitions, q⟩ settings lookup) Draft.empty) :=
  Agree.foldlM_self (fun _ _ part h => visitPart_agree part h) _ (.empty _)

/-- **A name policy decides on names only.** Under any two name policies a run stops with
the same error, or makes plans that agree on everything but the texts of annotations, the
imports and the policy: they have as many insertions, each of the same kind in both, at the
same place, on a line of its own in both or in none, and referring to the same others; the
same insertions are in the output, in the same order; they come from the same annotations;
and there are the same warnings. -/
theorem ofSceneWith_bare :
    (ofSceneWith p scene lookup settings).map bare
      = (ofSceneWith q scene lookup settings).map bare := by
  have hplans := (visitParts_agree p q scene lookup settings).bind
    (S := fun a b => Plan.bare a = Plan.bare b)
    (f := fun d => pure
      ⟨d.store, d.placed.reverse, d.sources, p, d.imports, d.warnings⟩)
    (g := fun d => pure
      ⟨d.store, d.placed.reverse, d.sources, q, d.imports, d.warnings⟩)
    (fun d d' h => Agree.pure (by
      simp only [bare, h.store.bare_eq, h.placed_eq, h.sources_eq, h.warnings_eq]))
  exact hplans.map_eq (fun _ _ h => h)

/-- **Imports are those of known definitions** that are written short. -/
theorem imports_of_ofSceneWith {plan : Plan}
    (h : ofSceneWith p scene lookup settings = .ok plan) :
    ∀ i ∈ plan.imports, Formatter.Imports ⟨scene.definitions, p⟩ i := by
  obtain ⟨d, hd, hplan⟩ := bind_eq_ok.mp h
  obtain rfl := Except.ok.inj hplan
  obtain ⟨d', -, hlike⟩ := (visitParts_agree p p scene lookup settings).exists_of_ok hd
  exact hlike.imports

end Run

end Plan

end AnnotationPlan
