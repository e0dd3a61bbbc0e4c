import AnnotationPlan.Proofs.Plan.Exclusive
import AnnotationPlan.Proofs.Store.Tags

/-!
# Casts are moved as a whole

A cast and the parenthesis that closes it are made together, but they are two insertions,
and each of them could be put into the output or above a constructor by itself. That this
never happens is again a matter of single steps: what a step puts somewhere is paired
(`Step.place`, `Step.declare`), it is put behind what is there, and nothing is taken away
again (`Step.paired`). The program does take single annotations out of the output when the
constructor absorbs them; in steps this does not show, and a cast is never in the output
at that moment.

At the end the output and the annotations above each constructor are paired, and since
nothing is in two places, no cast has its two pieces in different ones
(`Plan.ofSceneWith_paired`).
-/

namespace AnnotationPlan

open Insertion

namespace Store

variable {s : Store} {id c : InsertionId} {i : Insertion} {f : Insertion → Insertion}

/-- **What is attached is above a constructor**, unless it is a receiver. -/
theorem Wired.exists_declarations (h : s.Wired) {j : InsertionId} (hj : j ∈ s.attached)
    (hkind : ¬ s.Has IsReceiver j) : ∃ c i, s.get? c = some i ∧ j ∈ i.declarations := by
  obtain ⟨i, hi, hj⟩ := List.mem_flatMap.mp hj
  obtain ⟨c, hc⟩ := List.mem_iff_getElem?.mp hi
  rw [Array.getElem?_toList] at hc
  refine ⟨c, i, hc, ?_⟩
  rcases List.mem_append.mp hj with hj | hj
  · have hwired := h c i hc
    cases i with
    | constructor criteria type receiver declarations =>
      exact absurd ((hwired.2.1 j (Option.mem_toList.mp hj)).imp (fun _ h => ⟨h.1, h.2.1⟩)) hkind
    | _ => exact absurd hj List.not_mem_nil
  · exact hj

/-- What is above a constructor is attached. -/
theorem mem_attached {j : InsertionId} (hi : s.get? c = some i) (hj : j ∈ i.declarations) :
    j ∈ s.attached := by
  refine List.mem_flatMap.mpr ⟨i, ?_, List.mem_append_right _ hj⟩
  exact List.mem_of_getElem? (by rwa [Array.getElem?_toList])

end Store

/-- **Casts are together with their parentheses** in the output and above every
constructor. -/
structure Work.Paired (w : Work) : Prop where
  /-- In the output. -/
  output : w.draft.store.Paired w.draft.placed.reverse
  /-- Above every constructor. -/
  declarations : ∀ c, w.draft.store.Paired (w.draft.store.declarationsOf c)

/-- They remain so while the store grows, if nothing is put anywhere. -/
theorem Work.Paired.settle {w w' : Work} (h : w.Paired)
    (hgrows : w.draft.store.Grows w'.draft.store) (hplaced : w'.draft.placed = w.draft.placed)
    (hdeclarations : ∀ c, w'.draft.store.declarationsOf c = w.draft.store.declarationsOf c) :
    w'.Paired where
  output := hplaced ▸ h.output.grows hgrows
  declarations := fun c => hdeclarations c ▸ (h.declarations c).grows hgrows

/-- **No step takes a cast apart.** -/
theorem Step.paired {ctx : Context} {p : Spot} {base : Nat} {className : Option String}
    {w w' : Work} (h : Step ctx p base w w') (hd : w.draft.Sound className) (hw : w.Paired) :
    w'.Paired := by
  have hgrows := h.grows hd
  cases h with
  | single n form note => exact hw.settle hgrows rfl (Store.declarationsOf_push _ rfl)
  | receiver text inner form within =>
    exact hw.settle hgrows rfl (Store.declarationsOf_push _ rfl)
  | new text inner form within => exact hw.settle hgrows rfl (Store.declarationsOf_push _ rfl)
  | cast type text form within made =>
    obtain ⟨decorated, -, rfl⟩ := Store.pushCast_eq_ok.mp made
    refine hw.settle hgrows rfl (fun c => ?_)
    exact (Store.declarationsOf_push _ rfl c).trans (Store.declarationsOf_push _ rfl c)
  | record id n known => exact hw.settle hgrows rfl (fun _ => rfl)
  | @construct d hand written store n note on none made =>
    obtain ⟨name, -, rfl⟩ := Store.pushConstructor_eq_ok.mp made
    have hdeclarations := Store.declarationsOf_push d.store
      (i := .constructor p.criteria (.named (Name.simple name)) .none []) rfl
    refine ⟨?_, fun c => ?_⟩
    · show Store.Paired _ (d.store.size :: d.placed).reverse
      rw [List.reverse_cons]
      refine (hw.output.grows hgrows).append (.of_whole (List.forall_mem_singleton.mpr ?_))
      exact ⟨_, Store.get?_push_size _ _, fun h => h, fun h => h⟩
    · exact (hdeclarations c).symm ▸ (hw.declarations c).grows hgrows
  | @place d hand written ids paired =>
    refine ⟨?_, hw.declarations⟩
    show d.store.Paired (ids.reverse ++ d.placed).reverse
    rw [List.reverse_append, List.reverse_reverse]
    exact hw.output.append paired
  | fold n note on result single constructor made =>
    exact hw.settle hgrows rfl (Store.declarationsOf_addTypeAnnotation made)
  | @declare d hand written store c n ids note on declaration kind paired constructor made =>
    refine ⟨hw.output.grows hgrows, fun k => ?_⟩
    have hold := (hw.declarations k).grows hgrows
    obtain ⟨criteria, type, receiver, declarations, hget, -, rfl⟩ :=
      hd.declare_spec constructor made
    -- the constructor of the class has more above it, and the others have what they had
    by_cases hk : c = k
    · subst hk
      rw [Store.declarationsOf_of_get? hget] at hold
      rw [Store.declarationsOf_of_get? (Store.get?_modify_self hget)]
      exact hold.append (paired.grows hgrows)
    · show Store.Paired _ (Store.declarationsOf (d.store.modify c _) k)
      rw [Store.declarationsOf, Store.get?_modify_of_ne hk]
      exact hold
  | receive on form kind constructor made =>
    obtain ⟨⟨kept, hattach⟩, hplaced, -⟩ := Draft.absorbReceiver_spec made
    exact hw.settle hgrows hplaced (Store.declarationsOf_attachReceiver hattach)
  | annotate n note new kind made =>
    obtain ⟨hstore, hplaced, -⟩ := Draft.addNote_spec made
    exact hw.settle hgrows hplaced (Store.declarationsOf_addTypeAnnotation hstore)

/-- **No cast is ever taken apart** in a run. -/
theorem Work.paired_invariant : Invariant Work.Paired where
  empty := ⟨.nil, fun _ => .nil⟩
  start := fun _ h => ⟨h.output, h.declarations⟩
  step := fun _ hd h hw => h.paired hd hw

/-- **What is in the output is not attached.** -/
theorem Work.Exclusive.notMem_attached {d : Draft} {written : List (InsertionId × InsertionId)}
    (h : Work.Exclusive ⟨d, [], written⟩) {id : InsertionId} (hid : id ∈ d.placed) :
    id ∉ d.store.attached := by
  intro hattached
  have hone := (h id).1
  have hplaced := List.count_pos_iff.mpr hid
  have hattached := List.count_pos_iff.mpr hattached
  simp only [Work.uses] at hone
  omega

/-- **Casts stay together with their parentheses.** At the end of a run, in the output and
above every constructor, the next insertion after a cast is the parenthesis that closes it,
with the number after that of the cast, and the one before a parenthesis is its cast. And
no cast has one of its pieces in the output and the other one above a constructor. -/
theorem Plan.ofSceneWith_paired {policy : NamePolicy} {scene : Scene}
    {lookup : ConstructorLookup} {settings : Settings} {plan : Plan}
    (h : Plan.ofSceneWith policy scene lookup settings = .ok plan) :
    plan.store.SideBySide plan.order
    ∧ (∀ c i, plan.store.get? c = some i → plan.store.SideBySide i.declarations)
    ∧ ∀ c, plan.store.Has IsCast c →
        (c ∈ plan.order → c + 1 ∉ plan.store.attached)
        ∧ (c ∈ plan.store.attached → c + 1 ∉ plan.order) := by
  obtain ⟨d, className, hstore, horder, hd, -, hexclusive, hpaired⟩ :=
    (Plan.visits_yields (Work.exclusive_invariant.and Work.paired_invariant)
      policy scene lookup settings).of_ok h
  rw [hstore, horder]
  have hdeclarations : ∀ c i, d.store.get? c = some i → d.store.SideBySide i.declarations := by
    intro c i hi
    rw [← Store.declarationsOf_of_get? hi]
    exact (hpaired.declarations c).sideBySide
  refine ⟨hpaired.output.sideBySide, hdeclarations, fun c hc => ⟨fun hcast => ?_, fun hcast => ?_⟩⟩
  · obtain ⟨n, hn⟩ := List.mem_iff_getElem?.mp hcast
    have hnext := (hpaired.output.sideBySide.next n c hn hc).1
    exact hexclusive.notMem_attached (List.mem_reverse.mp (List.mem_of_getElem? hnext))
  · -- a cast is no receiver, so it is above a constructor, and so is its parenthesis
    have hkind : ¬ d.store.Has IsReceiver c := fun hreceiver =>
      hc.elim hreceiver (fun i h h' => by cases i <;> first | exact h | exact h')
    obtain ⟨k, i, hi, hmem⟩ := hd.wired.exists_declarations hcast hkind
    obtain ⟨n, hn⟩ := List.mem_iff_getElem?.mp hmem
    have hnext := ((hdeclarations k i hi).next n c hn hc).1
    exact fun hclosing => hexclusive.notMem_attached (List.mem_reverse.mp hclosing)
      (Store.mem_attached hi (List.mem_of_getElem? hnext))

/-- The cast of the sample is together with its parenthesis. -/
theorem Plan.sample_paired :
    ∃ plan, Plan.ofSceneWith ⟨[]⟩ Scene.sample .implicit {} = .ok plan
      ∧ plan.store.SideBySide plan.order
      ∧ (∀ c i, plan.store.get? c = some i → plan.store.SideBySide i.declarations)
      ∧ ∀ c, plan.store.Has IsCast c →
          (c ∈ plan.order → c + 1 ∉ plan.store.attached)
          ∧ (c ∈ plan.store.attached → c + 1 ∉ plan.order) := by
  obtain ⟨plan, hplan⟩ : ∃ plan, Plan.ofSceneWith ⟨[]⟩ Scene.sample .implicit {} = .ok plan :=
    ⟨_, rfl⟩
  exact ⟨plan, hplan, Plan.ofSceneWith_paired hplan⟩

end AnnotationPlan
