import AnnotationPlan.JavaType.Basic

/-!
# Types only gain annotations

Annotations are written into a type one after another, at any of its positions, and
none is ever taken out again. So a type **grows**: every position that it had is still
there, goes by the same name, and has all its annotations (`JavaType.Grows`). Whatever was
once written at a position can therefore be read there from then on.
-/

namespace AnnotationPlan.JavaType

/-- Taking a first step is looking at the outermost position. -/
theorem atSteps?_cons (s : TypePath.Step) (rest : List TypePath.Step) (t : JavaType) :
    atSteps? (s :: rest) t = (t.step? s).bind (atSteps? rest) := rfl

@[simp] theorem annotations_withAnnotations (t : JavaType) (as : List String) :
    (t.withAnnotations as).annotations = as := by
  cases t <;> rfl

@[simp] theorem annotations_annotate (t : JavaType) (text : String) :
    (t.annotate text).annotations = t.annotations ++ [text] :=
  annotations_withAnnotations t _

@[simp] theorem withAnnotations_annotations (t : JavaType) :
    t.withAnnotations t.annotations = t := by
  cases t <;> rfl

@[simp] theorem withAnnotations_withAnnotations (t : JavaType) (as bs : List String) :
    (t.withAnnotations as).withAnnotations bs = t.withAnnotations bs := by
  cases t <;> rfl

@[simp] theorem name?_withAnnotations (t : JavaType) (as : List String) :
    (t.withAnnotations as).name? = t.name? := by
  cases t <;> rfl

@[simp] theorem step?_withAnnotations (t : JavaType) (as : List String) (s : TypePath.Step) :
    (t.withAnnotations as).step? s = t.step? s := by
  cases t <;> cases s <;> rfl

/-! ## Changing a position inside -/

/-- What was put in a place is found there. -/
theorem step?_setStep_self {t u : JavaType} {s : TypePath.Step} (h : t.step? s = some u)
    (v : JavaType) : (setStep s v t).step? s = some v := by
  cases t with
  | declared as name arguments inner =>
    cases s with
    | array => simp [step?] at h
    | wildcard => simp [step?] at h
    | inner =>
      simp only [step?] at h
      subst h
      rfl
    | argument i =>
      simp only [step?] at h
      obtain ⟨hi, -⟩ := List.getElem?_eq_some_iff.mp h
      simp [setStep, step?, hi]
  | array as component => cases s <;> simp_all [step?, setStep]
  | wildcard as kind bound => cases s <;> simp_all [step?, setStep]

/-- All other places inside are left alone. -/
theorem step?_setStep_of_ne {s r : TypePath.Step} (h : r ≠ s) (v t : JavaType) :
    (setStep s v t).step? r = t.step? r := by
  cases t with
  | declared as name arguments inner =>
    cases s with
    | argument i =>
      cases r with
      | argument j =>
        have hij : i.toNat ≠ j.toNat := fun e => h (by rw [UInt8.toNat_inj.mp e])
        simp [setStep, step?, List.getElem?_set_ne hij]
      | _ => rfl
    | inner => cases inner <;> cases r <;> first | rfl | exact absurd rfl h
    | _ => rfl
  | array as component => cases s <;> cases r <;> first | rfl | exact absurd rfl h
  | wildcard as kind bound =>
    cases bound <;> cases s <;> cases r <;> first | rfl | exact absurd rfl h

/-- The outermost position is left alone. -/
@[simp] theorem annotations_setStep (s : TypePath.Step) (v t : JavaType) :
    (setStep s v t).annotations = t.annotations := by
  cases t with
  | declared as name arguments inner => cases s <;> cases inner <;> rfl
  | array as component => cases s <;> rfl
  | wildcard as kind bound => cases s <;> cases bound <;> rfl

/-- So is its name. -/
@[simp] theorem name?_setStep (s : TypePath.Step) (v t : JavaType) :
    (setStep s v t).name? = t.name? := by
  cases t with
  | declared as name arguments inner => cases s <;> cases inner <;> rfl
  | array as component => cases s <;> rfl
  | wildcard as kind bound => cases s <;> cases bound <;> rfl

/-- **What a change at a position does to it**: the position was there, and is there
with the change made. -/
theorem atSteps?_modifySteps? {f : JavaType → JavaType} :
    ∀ {steps : List TypePath.Step} {t t' : JavaType}, modifySteps? f steps t = some t' →
      ∃ u, atSteps? steps t = some u ∧ atSteps? steps t' = some (f u)
  | [], t, t', h => by
    obtain rfl : f t = t' := Option.some.inj h
    exact ⟨t, rfl, rfl⟩
  | s :: rest, t, t', h => by
    rw [modifySteps?] at h
    obtain ⟨inside, hinside, h⟩ := Option.bind_eq_some_iff.mp h
    obtain ⟨changed, hchanged, h⟩ := Option.bind_eq_some_iff.mp h
    obtain rfl : setStep s changed t = t' := Option.some.inj h
    obtain ⟨u, hu, hu'⟩ := atSteps?_modifySteps? hchanged
    refine ⟨u, ?_, ?_⟩
    · rw [atSteps?_cons, hinside]
      exact hu
    · rw [atSteps?_cons, step?_setStep_self hinside]
      exact hu'

/-! ## Growth -/

/-- **One type has grown into another**: all positions are still there, with their names
and all their annotations. -/
def Grows (t t' : JavaType) : Prop :=
  ∀ steps u, atSteps? steps t = some u →
    ∃ u', atSteps? steps t' = some u' ∧ u'.name? = u.name?
      ∧ ∀ a ∈ u.annotations, a ∈ u'.annotations

namespace Grows

variable {t t' t'' : JavaType}

theorem refl (t : JavaType) : t.Grows t := fun _ u hu => ⟨u, hu, rfl, fun _ ha => ha⟩

theorem trans (h : t.Grows t') (h' : t'.Grows t'') : t.Grows t'' := by
  intro steps u hu
  obtain ⟨u', hu', hname, hsub⟩ := h steps u hu
  obtain ⟨u'', hu'', hname', hsub'⟩ := h' steps u' hu'
  exact ⟨u'', hu'', hname'.trans hname, fun a ha => hsub' a (hsub a ha)⟩

/-- The outermost annotations of a type that has grown are still there. -/
theorem annotations (h : t.Grows t') {a : String} (ha : a ∈ t.annotations) :
    a ∈ t'.annotations := by
  obtain ⟨u', hu', -, hsub⟩ := h [] t rfl
  obtain rfl : t' = u' := Option.some.inj hu'
  exact hsub a ha

/-- A type that has grown goes by the same name. -/
theorem name?_eq (h : t.Grows t') : t'.name? = t.name? := by
  obtain ⟨u', hu', hname, -⟩ := h [] t rfl
  obtain rfl : t' = u' := Option.some.inj hu'
  exact hname

end Grows

/-- More annotations at the outermost position are growth. -/
theorem grows_withAnnotations {t : JavaType} {as : List String}
    (h : ∀ a ∈ t.annotations, a ∈ as) : t.Grows (t.withAnnotations as) := by
  intro steps u hu
  cases steps with
  | nil =>
    obtain rfl : t = u := Option.some.inj hu
    exact ⟨_, rfl, name?_withAnnotations t as, by simpa using h⟩
  | cons s rest =>
    refine ⟨u, ?_, rfl, fun _ ha => ha⟩
    rw [atSteps?_cons] at hu ⊢
    rwa [step?_withAnnotations]

/-- One more annotation at the outermost position is growth. -/
theorem grows_annotate (t : JavaType) (text : String) : t.Grows (t.annotate text) :=
  grows_withAnnotations (fun _ ha => List.mem_append_left _ ha)

/-- **A position that grows makes the whole type grow.** -/
theorem grows_modifySteps? {f : JavaType → JavaType} (hf : ∀ u : JavaType, u.Grows (f u)) :
    ∀ {steps : List TypePath.Step} {t t' : JavaType}, modifySteps? f steps t = some t' →
      t.Grows t'
  | [], t, t', h => by
    obtain rfl : f t = t' := Option.some.inj h
    exact hf t
  | s :: rest, t, t', h => by
    rw [modifySteps?] at h
    obtain ⟨inside, hinside, h⟩ := Option.bind_eq_some_iff.mp h
    obtain ⟨changed, hchanged, h⟩ := Option.bind_eq_some_iff.mp h
    obtain rfl : setStep s changed t = t' := Option.some.inj h
    have hgrows : inside.Grows changed := grows_modifySteps? hf hchanged
    intro steps u hu
    cases steps with
    | nil =>
      obtain rfl : t = u := Option.some.inj hu
      exact ⟨_, rfl, name?_setStep s changed t, by simp⟩
    | cons r more =>
      rw [atSteps?_cons] at hu
      -- growth is below the place that was changed; next to it nothing happens
      by_cases hr : r = s
      · subst hr
        rw [hinside] at hu
        obtain ⟨u', hu', hname, hsub⟩ := hgrows more u hu
        refine ⟨u', ?_, hname, hsub⟩
        rwa [atSteps?_cons, step?_setStep_self hinside]
      · refine ⟨u, ?_, rfl, fun _ ha => ha⟩
        rwa [atSteps?_cons, step?_setStep_of_ne hr]

/-- **Writing an annotation at a position** makes the type grow, and the annotation is
at that position afterwards. -/
theorem annotateAt?_spec {path : TypePath} {text : String} {t t' : JavaType}
    (h : t.annotateAt? path text = some t') :
    t.Grows t' ∧ ∃ u, t'.at? path = some u ∧ text ∈ u.annotations := by
  refine ⟨grows_modifySteps? (fun u => grows_annotate u text) h, ?_⟩
  obtain ⟨u, -, hu⟩ := atSteps?_modifySteps? h
  exact ⟨u.annotate text, hu, by simp⟩

end AnnotationPlan.JavaType
