import AnnotationPlan.Proofs.Plan.Visits

/-!
# No run finds itself broken

Many operations on insertions report a broken invariant when they are handed something
of the wrong kind: an annotation that is none, a receiver outside of a class, a reference
that leads nowhere. Each of these reports is ruled out by what another part of the
program did before, and all of them together by the soundness of drafts. So a run fails
on the scene or not at all, and what it leaves behind can always be written out
(`Plan.ofSceneWith_safe`). This needs nothing of the lookup, the settings or the name
policy.
-/

namespace AnnotationPlan

/-- What every draft keeps without being asked to. -/
theorem Invariant.trivial : Invariant (fun _ => True) where
  empty := True.intro
  start := fun _ _ => True.intro
  step := fun _ _ _ _ => True.intro

/-- **A sound draft can be written out.** -/
theorem Draft.Sound.exists_response {className : Option String} {d : Draft}
    (hd : d.Sound className) {plan : Plan} (hstore : plan.store = d.store)
    (horder : plan.order = d.placed.reverse) : ∃ v, plan.response = .ok v := by
  refine Plan.exists_response ?_ ?_ ?_ (fun id hid => ?_)
  · exact hstore ▸ hd.wired.closed
  · exact hstore ▸ hd.wired.acyclic
  · exact hstore ▸ hd.wired.receiversInClass
  · rw [horder, List.mem_reverse] at hid
    exact hstore ▸ hd.placed_lt id hid

/-- **No run finds itself broken.** If it fails, its error is the scene's fault and has
the code of such errors. If it succeeds, nothing that the output or an insertion refers to
is missing, the references never lead in a circle, and the plan has an answer. -/
theorem Plan.ofSceneWith_safe (policy : NamePolicy) (scene : Scene) (lookup : ConstructorLookup)
    (settings : Settings) :
    match Plan.ofSceneWith policy scene lookup settings with
    | .error e => (∀ criteria reason, e.root ≠ .invariant criteria reason) ∧ e.code.number = 3
    | .ok plan => (∀ id ∈ plan.order, id < plan.store.size) ∧ plan.store.Closed
      ∧ plan.store.Acyclic ∧ ∃ v, plan.response = .ok v := by
  have hrun := Plan.visits_yields .trivial policy scene lookup settings
  cases hplan : Plan.ofSceneWith policy scene lookup settings with
  | error e =>
    have hcode : e.code = .invalidScene := hrun.of_error hplan
    exact ⟨e.code_eq_invalidScene_iff.mp hcode, by rw [hcode]; rfl⟩
  | ok plan =>
    obtain ⟨d, className, hstore, horder, hd, -, -⟩ := hrun.of_ok hplan
    refine ⟨fun id hid => ?_, ?_, ?_, hd.exists_response hstore horder⟩
    · rw [horder, List.mem_reverse] at hid
      exact hstore ▸ hd.placed_lt id hid
    · exact hstore ▸ hd.wired.closed
    · exact hstore ▸ hd.wired.acyclic

end AnnotationPlan
