import AnnotationPlan.Proofs.AnnotationUse.WrittenNames
import AnnotationPlan.Proofs.Plan.Policies

/-!
# Written names and imports of a run

A definition may be registered under the simple name of others. That name is not held
ambiguous then: it is known which definition it stands for. All bearers of it are written by
it nevertheless, and each of them asks for its own import. This is the only way in which two
imports of a run can have the same simple name (`Plan.ofScene_writtenNames`).
-/

namespace AnnotationPlan

open Name (simple source)

namespace Plan

variable {scene : Scene} {ds : List Definition}

/-- **Imports with the same simple name** are there only if a definition is registered under
that name. -/
theorem simple_mem_of_imports (hscene : scene.definitions = .ofList ds)
    {lookup : ConstructorLookup} {settings : Settings} {plan : Plan}
    (hplan : ofScene scene lookup settings = .ok plan) {i j : String} (hi : i ∈ plan.imports)
    (hj : j ∈ plan.imports) (hne : i ≠ j) (hsimple : simple i = simple j) :
    simple i ∈ ds.map Definition.name := by
  have himported : ∀ k ∈ plan.imports, ∃ m ∈ ds.map Definition.name,
      k ∈ (Formatter.ofTable (.ofList ds)).importOf m := by
    intro k hk
    obtain ⟨name, d, hd, himport⟩ := imports_of_ofSceneWith _ scene lookup settings hplan k hk
    rw [hscene] at hd himport
    exact ⟨d.name, List.mem_map_of_mem (DefinitionTable.mem_of_get? hd), himport⟩
  obtain ⟨m, hm, him⟩ := himported i hi
  obtain ⟨n, hn, hjn⟩ := himported j hj
  exact Formatter.simple_mem_of_importOf hm hn him hjn hne hsimple

/-- **Which names are written alike.** With the name policy that the definitions of a scene
call for, two registered definitions with different names are written by the same name
exactly if they have the same simple name and either a definition is registered under that
name, or the names differ in dots and dollar signs only. And two names that a run imports
have the same simple name only if a definition is registered under it. -/
theorem ofScene_writtenNames (hscene : scene.definitions = .ofList ds) :
    (∀ m ∈ ds.map Definition.name, ∀ n ∈ ds.map Definition.name, m ≠ n →
      ((Formatter.ofTable scene.definitions).displayName m
          = (Formatter.ofTable scene.definitions).displayName n
        ↔ simple m = simple n ∧ (simple m ∈ ds.map Definition.name ∨ source m = source n)))
    ∧ ∀ lookup settings plan, ofScene scene lookup settings = .ok plan →
        ∀ i ∈ plan.imports, ∀ j ∈ plan.imports, i ≠ j → simple i = simple j →
          simple i ∈ ds.map Definition.name := by
  refine ⟨fun m hm n hn hne => ?_, fun lookup settings plan hplan i hi j hj hne hsimple => ?_⟩
  · rw [hscene]
    exact Formatter.displayName_eq_iff hm hn hne
  · exact simple_mem_of_imports hscene hplan hi hj hne hsimple

/-- The definitions `A`, `a.A` and `b.A`, and a class with annotations of the latter two. -/
def shadowedScene : Scene where
  definitions := .ofList [{ name := "A" }, { name := "a.A" }, { name := "b.A" }]
  packages := .empty
  classes := .ofList [("C", { (default : ClassElement) with
    annotations := [.ofName "a.A", .ofName "b.A"] })]

/-- In the shadowed scene all three definitions are written `A`. -/
theorem shadowedScene_writtenNames :
    shadowedScene.definitions = .ofList [{ name := "A" }, { name := "a.A" }, { name := "b.A" }]
    ∧ ((Formatter.ofTable shadowedScene.definitions).displayName "a.A"
        = (Formatter.ofTable shadowedScene.definitions).displayName "A")
    ∧ ∀ plan, ofScene shadowedScene .nothing {} = .ok plan →
        ∀ i ∈ plan.imports, ∀ j ∈ plan.imports, i ≠ j → simple i = simple j →
          simple i ∈ ["A", "a.A", "b.A"] := by
  have hscene : shadowedScene.definitions
      = .ofList [{ name := "A" }, { name := "a.A" }, { name := "b.A" }] := rfl
  obtain ⟨hnames, himports⟩ := ofScene_writtenNames hscene
  refine ⟨hscene, (hnames "a.A" ?_ "A" ?_ ?_).mpr ⟨?_, .inl ?_⟩, himports .nothing {}⟩
  all_goals decide

/-- **Written names do not identify definitions**: in the shadowed scene `a.A` is written as
`A` is, and the run imports both `a.A` and `b.A`. -/
theorem shadowedScene_alike :
    (∃ m ∈ ["A", "a.A", "b.A"], ∃ n ∈ ["A", "a.A", "b.A"], m ≠ n
      ∧ (Formatter.ofTable shadowedScene.definitions).displayName m
        = (Formatter.ofTable shadowedScene.definitions).displayName n)
    ∧ ∃ plan, ofScene shadowedScene .nothing {} = .ok plan
        ∧ plan.imports = ["a.A", "b.A"] ∧ simple "a.A" = simple "b.A" := by
  refine ⟨⟨"a.A", by decide, "A", by decide, by decide, by decide⟩, ?_⟩
  exact ⟨_, rfl, by decide, by decide⟩

end Plan

end AnnotationPlan
