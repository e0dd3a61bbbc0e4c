import AnnotationPlan.Proofs.AnnotationUse.Loaded
import AnnotationPlan.Proofs.Draft.Traces
import AnnotationPlan.Proofs.Plan.Receivers

/-!
# Sources trace every annotation

A plan tells of every insertion where it comes from, as a list of annotation uses. In a run
on a scene without floating-point numbers this is all that the insertion says and nothing
else (`Plan.ofSceneWith_traced`): a single annotation is the text of its sources, the type of
a receiver or of a created object has the texts of its sources as its annotations, and
closing parentheses and constructors have no sources. That goes for all insertions, for
those too that were taken up by a constructor or merged into another receiver. The uses have
to set each field once, as all do that are loaded (`AnnotationUse.isDistinct_of_load`).

Floating-point numbers would break this. Two zeros are the same value but are written
differently, so of two uses with such values only one is kept as a source, and both are
written.
-/

namespace AnnotationPlan

open Insertion

/-- **A use is on a scene**: one of its sites shows it. -/
def Scene.Shows (scene : Scene) (u : AnnotationUse) : Prop :=
  ∃ p ∈ scene.parts, Site.OneShows u p.sites

namespace Plan

variable {policy : NamePolicy} {scene : Scene} {lookup : ConstructorLookup}
  {settings : Settings} {plan : Plan}

/-- Working off a part with exact uses leaves every insertion traced by its sources. -/
theorem visitPart_traced {formatter : Formatter} {p : Part} {d e : Draft}
    (h : d.Traced formatter) (hp : ∀ u, Site.OneShows u p.sites → u.IsExact)
    (hok : visitPart formatter settings lookup d p = .ok e) : e.Traced formatter := by
  have hstart : (p.start settings lookup d).Traced formatter := by
    cases p with
    | type name element => exact h.start _
    | _ => exact h
  have hformatter : (p.context formatter settings lookup).formatter = formatter := by
    cases p <;> rfl
  refine keeps_of_foldlM (I := fun d => d.Traced formatter) (fun s hs a b ha hb => ?_) hstart
    (Part.foldlM_of_visitPart formatter settings lookup hok)
  have htraced := Draft.visit_traced (hformatter.symm ▸ ha) (fun u hu => hp u ⟨s, hs, hu⟩) hb
  rwa [hformatter] at htraced

/-- **Sources trace every annotation.** In a successful run on a scene whose annotations have
no floating-point values, with any name policy, all sources can be written, and what they are
written as is what the insertion says: a single annotation is the one text that its sources
are written as, and the annotations on the type of a receiver or of a created object are the
texts of its sources. A closing parenthesis has no sources, and neither has a
constructor. -/
theorem ofSceneWith_traced (hscene : ∀ u, scene.Shows u → u.IsExact)
    (h : ofSceneWith policy scene lookup settings = .ok plan) {id : InsertionId} {i : Insertion}
    (hi : plan.store.get? id = some i) :
    (∀ u ∈ plan.sources.get id, ∃ t, Formatter.WritesAs ⟨scene.definitions, policy⟩ u t)
    ∧ i.IsTracedBy (plan.sources.texts ⟨scene.definitions, policy⟩ id)
    ∧ (i.IsConstructor ∨ (∃ criteria separateLine, i = .closeParenthesis criteria separateLine) →
        plan.sources.get id = []) := by
  obtain ⟨d, hd, h⟩ := bind_eq_ok.mp h
  cases h
  have htraced : d.Traced ⟨scene.definitions, policy⟩ :=
    keeps_of_foldlM (I := fun d => d.Traced ⟨scene.definitions, policy⟩)
      (fun p hp a b ha hb => visitPart_traced ha (fun u hu => hscene u ⟨p, hp, hu⟩) hb)
      (.empty _) hd
  have hby := htraced.tracedBy id i hi
  refine ⟨fun u hu => (htraced.allSources id u hu).2, hby, fun hkind => ?_⟩
  refine Formatter.eq_nil_of_textsOf (htraced.allSources id) ?_
  rcases hkind with hkind | ⟨criteria, separateLine, rfl⟩
  · cases i with
    | constructor => exact hby
    | _ => exact hkind.elim
  · exact hby

end Plan

/-- A use without values is exact. -/
theorem AnnotationUse.isExact_of_isEmpty {u : AnnotationUse} (h : u.values.isEmpty = true) :
    u.IsExact := by
  obtain ⟨name, values⟩ := u
  obtain rfl : values = [] := List.isEmpty_iff.mp h
  refine ⟨fun x hx => ?_, fun name' values' hvalues => ?_⟩
  · cases hx with
    | field hmem => exact absurd hmem List.not_mem_nil
  · cases hvalues with
    | here => exact List.nodup_nil
    | field hmem => exact absurd hmem List.not_mem_nil

namespace Plan

/-- **The receivers of a class come together** in one that has an annotation of each, and the
sources of that one are these two. -/
theorem sharedReceiver_traced :
    ∃ plan place type inner,
      (∀ u, Scene.sharedReceiver.Shows u → u.IsExact)
      ∧ ofSceneWith ⟨[]⟩ Scene.sharedReceiver .implicit {} = .ok plan
      ∧ plan.store.get? 0 = some (.receiver place type inner)
      ∧ type.annotations = ["@A", "@B"]
      ∧ plan.sources.texts ⟨Scene.sharedReceiver.definitions, ⟨[]⟩⟩ 0
          = {t | t ∈ type.annotations} := by
  have hall : Scene.sharedReceiver.parts.all (fun p => p.sites.all (fun s => s.spots.all
      (fun q => q.annotations.all (fun u => u.values.isEmpty)))) = true := by decide +kernel
  have hscene : ∀ u, Scene.sharedReceiver.Shows u → u.IsExact := by
    rintro u ⟨p, hp, s, hs, q, hq, hu⟩
    have hp := List.all_eq_true.mp hall p hp
    have hs := List.all_eq_true.mp hp s hs
    exact AnnotationUse.isExact_of_isEmpty
      (List.all_eq_true.mp (List.all_eq_true.mp hs q hq) u hu)
  obtain ⟨plan, hplan, place, type, inner, hget, htype⟩ :
      ∃ plan, ofSceneWith ⟨[]⟩ Scene.sharedReceiver .implicit {} = .ok plan
        ∧ ∃ place type inner, plan.store.get? 0 = some (.receiver place type inner)
          ∧ type.annotations = ["@A", "@B"] := ⟨_, rfl, _, _, _, rfl, rfl⟩
  exact ⟨plan, place, type, inner, hscene, hplan, hget, htype,
    (ofSceneWith_traced hscene hplan hget).2.1⟩

end Plan

end AnnotationPlan
