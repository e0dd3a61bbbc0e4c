import AnnotationPlan.Proofs.JavaType.Bare

/-!
# Several annotations written into one type

Annotations are written into a type one after another, and each position is looked up in
the type as the earlier ones have left it. That makes no difference: a path fits a type
whatever is written in it, and writing an annotation is seen at its own position only
(`JavaType.annotationsAt?_annotateAt?`). So a list of annotations can be written exactly if
each of their paths fits the type as it was (`JavaType.annotateAll?_isSome_iff`), and
afterwards every position has its old annotations and behind them those of the list that
were meant for it, in the order of the list (`JavaType.annotationsAt?_annotateAll?`).
-/

namespace AnnotationPlan.JavaType

variable {t t' : JavaType} {path : TypePath} {text : String}
variable {marks : List (TypePath × String)}

/-! ## Whether a path fits -/

/-- **The position that a path leads to** is found in the bare type as well. -/
theorem atSteps?_bare : ∀ (steps : List TypePath.Step) (t : JavaType),
    atSteps? steps t.bare = (atSteps? steps t).map bare
  | [], _ => rfl
  | s :: rest, t => by
    rw [atSteps?_cons, atSteps?_cons, step?_bare]
    cases t.step? s with
    | none => rfl
    | some inside => exact atSteps?_bare rest inside

/-- **A path fits a type** if it leads to one of its positions. -/
def Fits (t : JavaType) (path : TypePath) : Prop := (t.at? path).isSome

instance (t : JavaType) (path : TypePath) : Decidable (t.Fits path) :=
  inferInstanceAs (Decidable ((t.at? path).isSome = true))

/-- Whether a path fits does not depend on the annotations. -/
theorem fits_congr (h : t.bare = t'.bare) (path : TypePath) : t.Fits path ↔ t'.Fits path := by
  have hbare : ∀ u : JavaType, (u.at? path).isSome = (u.bare.at? path).isSome := fun u => by
    rw [at?, at?, atSteps?_bare, Option.isSome_map]
  unfold Fits
  rw [hbare t, hbare t', h]

/-- A position can be changed if it is there. -/
theorem modifySteps?_isSome (f : JavaType → JavaType) :
    ∀ (steps : List TypePath.Step) (t : JavaType),
      (modifySteps? f steps t).isSome = (atSteps? steps t).isSome
  | [], _ => rfl
  | s :: rest, t => by
    rw [modifySteps?, atSteps?_cons]
    cases t.step? s with
    | none => rfl
    | some inside =>
      refine Eq.trans ?_ (modifySteps?_isSome f rest inside)
      show ((modifySteps? f rest inside).bind (fun changed => some (setStep s changed t))).isSome
        = (modifySteps? f rest inside).isSome
      cases modifySteps? f rest inside <;> rfl

/-- **An annotation can be written where its path fits.** -/
theorem annotateAt?_isSome_iff (t : JavaType) (path : TypePath) (text : String) :
    (t.annotateAt? path text).isSome ↔ t.Fits path := by
  rw [annotateAt?, modifySteps?_isSome]
  rfl

/-! ## What writing leaves alone -/

/-- Putting back what is in a place changes nothing. -/
theorem setStep_self {s : TypePath.Step} {u : JavaType} (h : t.step? s = some u) :
    setStep s u t = t := by
  cases t with
  | declared as name arguments inner =>
    cases s with
    | argument i =>
      simp only [step?] at h
      obtain ⟨hi, rfl⟩ := List.getElem?_eq_some_iff.mp h
      simp [setStep]
    | _ => simp_all [step?, setStep]
  | array as component => cases s <;> simp_all [step?, setStep]
  | wildcard as kind bound => cases s <;> simp_all [step?, setStep]

/-- A change that is not seen in the bare type at its position is not seen in the whole. -/
theorem bare_eq_of_modifySteps? {f : JavaType → JavaType} (hf : ∀ u, (f u).bare = u.bare) :
    ∀ {steps : List TypePath.Step} {t t' : JavaType}, modifySteps? f steps t = some t' →
      t'.bare = t.bare
  | [], t, t', h => by
    obtain rfl : f t = t' := Option.some.inj h
    exact hf t
  | s :: rest, t, t', h => by
    rw [modifySteps?] at h
    obtain ⟨inside, hinside, h⟩ := Option.bind_eq_some_iff.mp h
    obtain ⟨changed, hchanged, h⟩ := Option.bind_eq_some_iff.mp h
    obtain rfl : setStep s changed t = t' := Option.some.inj h
    calc (setStep s changed t).bare
        = setStep s inside.bare t.bare := by
          rw [bare_setStep, bare_eq_of_modifySteps? hf hchanged]
      _ = t.bare := by rw [← bare_setStep, setStep_self hinside]

/-- **Writing an annotation** leaves the shape of a type and all names in it. -/
theorem bare_eq_of_annotateAt? (h : t.annotateAt? path text = some t') : t'.bare = t.bare :=
  bare_eq_of_modifySteps? (bare_annotate text) h

/-! ## What is written at a position -/

/-- **The annotations at a position**, if there is such a position. -/
def annotationsAt? (t : JavaType) (path : TypePath) : Option (List String) :=
  (t.at? path).map annotations

/-- A change is seen at its own position only, as far as the annotations there go. -/
theorem annotations_modifySteps? : ∀ {steps : List TypePath.Step} {t t' : JavaType},
    modifySteps? (annotate text) steps t = some t' → ∀ others : List TypePath.Step,
      (atSteps? others t').map annotations
        = (atSteps? others t).map (fun u => u.annotations ++ if steps = others then [text] else [])
  | [], t, t', h, others => by
    obtain rfl : t.annotate text = t' := Option.some.inj h
    cases others with
    | nil => simp [atSteps?]
    | cons r more =>
      rw [atSteps?_cons, atSteps?_cons, annotate, step?_withAnnotations]
      simp
  | s :: rest, t, t', h, others => by
    rw [modifySteps?] at h
    obtain ⟨inside, hinside, h⟩ := Option.bind_eq_some_iff.mp h
    obtain ⟨changed, hchanged, h⟩ := Option.bind_eq_some_iff.mp h
    obtain rfl : setStep s changed t = t' := Option.some.inj h
    cases others with
    | nil => simp [atSteps?]
    | cons r more =>
      rw [atSteps?_cons, atSteps?_cons]
      -- on the way down the two paths are the same or they part
      by_cases hr : r = s
      · subst hr
        rw [hinside, step?_setStep_self hinside, Option.bind_some, Option.bind_some,
          annotations_modifySteps? hchanged more]
        simp
      · rw [step?_setStep_of_ne hr]
        simp [Ne.symm hr]

/-- **Writing an annotation** puts it behind those at its position, and leaves those at all
other positions alone. -/
theorem annotationsAt?_annotateAt? (h : t.annotateAt? path text = some t') (other : TypePath) :
    t'.annotationsAt? other
      = (t.annotationsAt? other).map (· ++ if path = other then [text] else []) := by
  have hsteps : path = other ↔ path.steps = other.steps :=
    ⟨congrArg TypePath.steps, fun h => congrArg TypePath.mk h⟩
  rw [annotationsAt?, at?, annotations_modifySteps? h, annotationsAt?, Option.map_map]
  simp only [hsteps]
  rfl

/-! ## Several annotations -/

/-- **Write several annotations into a type**, one after another, each at its position. -/
def annotateAll? : List (TypePath × String) → JavaType → Option JavaType
  | [], t => some t
  | (path, text) :: rest, t => (t.annotateAt? path text).bind (annotateAll? rest)

/-- The annotations of a list that are meant for a position, in the order of the list. -/
def textsAt (marks : List (TypePath × String)) (path : TypePath) : List String :=
  (marks.filter (fun m => m.1 = path)).map Prod.snd

/-- Writing an annotation and then others. -/
theorem annotateAll?_cons (path : TypePath) (text : String) (marks : List (TypePath × String))
    (t : JavaType) :
    annotateAll? ((path, text) :: marks) t
      = (t.annotateAt? path text).bind (annotateAll? marks) := rfl

/-- **Annotations can be written if the type as it is has all their positions.** -/
theorem annotateAll?_isSome_iff :
    ∀ {marks : List (TypePath × String)} {t : JavaType},
      (annotateAll? marks t).isSome ↔ ∀ m ∈ marks, t.Fits m.1
  | [], t => by simp [annotateAll?]
  | (path, text) :: rest, t => by
    rw [annotateAll?_cons, List.forall_mem_cons, ← annotateAt?_isSome_iff t path text]
    cases h : t.annotateAt? path text with
    | none => simp
    | some u =>
      have hfits := fits_congr (bare_eq_of_annotateAt? h)
      rw [Option.bind_some, annotateAll?_isSome_iff]
      simp only [hfits, Option.isSome_some, true_and]

/-- **Writing annotations** leaves the shape of a type and all names in it. -/
theorem bare_eq_of_annotateAll? :
    ∀ {marks : List (TypePath × String)} {t t' : JavaType},
      annotateAll? marks t = some t' → t'.bare = t.bare
  | [], t, t', h => by
    obtain rfl : t = t' := Option.some.inj h
    rfl
  | (path, text) :: rest, t, t', h => by
    obtain ⟨u, hu, h⟩ := Option.bind_eq_some_iff.mp h
    exact (bare_eq_of_annotateAll? h).trans (bare_eq_of_annotateAt? hu)

/-- **Every position has the annotations that it had, and behind them those that were
written there**, in their order. -/
theorem annotationsAt?_annotateAll? (other : TypePath) :
    ∀ {marks : List (TypePath × String)} {t t' : JavaType}, annotateAll? marks t = some t' →
      t'.annotationsAt? other = (t.annotationsAt? other).map (· ++ textsAt marks other)
  | [], t, t', h => by
    obtain rfl : t = t' := Option.some.inj h
    simp [textsAt]
  | (path, text) :: rest, t, t', h => by
    obtain ⟨u, hu, h⟩ := Option.bind_eq_some_iff.mp h
    rw [annotationsAt?_annotateAll? other h, annotationsAt?_annotateAt? hu, Option.map_map]
    congr 1
    funext as
    by_cases hpath : path = other
    · simp [textsAt, hpath]
    · simp [textsAt, hpath]

end AnnotationPlan.JavaType
