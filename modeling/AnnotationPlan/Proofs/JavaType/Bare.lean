import AnnotationPlan.Proofs.JavaType.Growth

/-!
# Types without their annotations

A path leads through a type whatever is written at its positions, so whether an annotation
can be written there, and everything about the type but its annotations, has nothing to do
with what annotations there are. What is left of a type without them is its **bare** type
(`JavaType.bare`).
-/

namespace AnnotationPlan.JavaType

mutual

/-- **A type without its annotations**, at any position. -/
def bare : JavaType → JavaType
  | .declared _ name arguments inner => .declared [] name (bareAll arguments) (bareSome inner)
  | .array _ component => .array [] component.bare
  | .wildcard _ kind bound => .wildcard [] kind (bareSome bound)

/-- Several types without their annotations. -/
def bareAll : List JavaType → List JavaType
  | [] => []
  | t :: rest => t.bare :: bareAll rest

/-- A type that may be missing without its annotations. -/
def bareSome : Option JavaType → Option JavaType
  | none => none
  | some t => some t.bare

end

@[simp] theorem bareAll_eq : ∀ ts : List JavaType, bareAll ts = ts.map bare
  | [] => rfl
  | t :: rest => by rw [bareAll, bareAll_eq rest, List.map_cons]

@[simp] theorem bareSome_eq (t : Option JavaType) : bareSome t = t.map bare := by
  cases t <;> rfl

@[simp] theorem bare_withAnnotations (t : JavaType) (as : List String) :
    (t.withAnnotations as).bare = t.bare := by
  cases t <;> rfl

@[simp] theorem bare_annotate (text : String) (t : JavaType) :
    (t.annotate text).bare = t.bare :=
  bare_withAnnotations t _

/-- A step leads to the same place of the bare type. -/
theorem step?_bare (s : TypePath.Step) (t : JavaType) : t.bare.step? s = (t.step? s).map bare := by
  cases t <;> cases s <;> simp [bare, step?]

/-- A place is filled in the bare type as it is in the type. -/
theorem bare_setStep (s : TypePath.Step) (inside t : JavaType) :
    (setStep s inside t).bare = setStep s inside.bare t.bare := by
  cases t with
  | declared as name arguments inner =>
    cases inner <;> cases s <;> simp [bare, setStep, List.map_set]
  | array as component => cases s <;> simp [bare, setStep]
  | wildcard as kind bound => cases bound <;> cases s <;> simp [bare, setStep]

/-- **A change that is not seen in the bare type** at its position is not seen in the whole,
and whether there is such a position can be seen in the bare type. -/
theorem bare_modifySteps? {f : JavaType → JavaType} (hf : ∀ u, (f u).bare = u.bare) :
    ∀ (steps : List TypePath.Step) (t : JavaType),
      (modifySteps? f steps t).map bare = modifySteps? id steps t.bare
  | [], t => congrArg some (hf t)
  | s :: rest, t => by
    rw [modifySteps?, modifySteps?, step?_bare]
    cases t.step? s with
    | none => rfl
    | some inside =>
      show ((modifySteps? f rest inside).bind (fun changed => some (setStep s changed t))).map bare
        = (modifySteps? id rest inside.bare).bind (fun changed => some (setStep s changed t.bare))
      rw [← bare_modifySteps? hf rest inside]
      cases modifySteps? f rest inside with
      | none => rfl
      | some changed => exact congrArg some (bare_setStep s changed t)

/-- **Writing an annotation somewhere** is possible in types with the same bare type alike,
and leaves them with the same bare type. -/
theorem bare_annotateAt? {t t' : JavaType} (h : t.bare = t'.bare) (path : TypePath)
    (text text' : String) :
    (t.annotateAt? path text).map bare = (t'.annotateAt? path text').map bare := by
  unfold annotateAt?
  rw [bare_modifySteps? (bare_annotate text), bare_modifySteps? (bare_annotate text'), h]

end AnnotationPlan.JavaType
