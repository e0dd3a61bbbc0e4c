import AnnotationPlan.Proofs.JavaType.Decoration
import AnnotationPlan.Proofs.JavaType.Text

/-!
# Which positions of a type are written

A position of a type can be annotated if a path leads there; it can be read if the source
text of the type goes there too. Two kinds of types are written without what lies inside
them: declared types without a name, of which only the annotations are known, and wildcards
that are not bounded. A path is **shown** if it leads through neither (`JavaType.Shown`).
Arrays make no difference, although their annotations are written behind those of the types
inside them.

Whatever is annotated at the end of a shown path occurs in the text of the type
(`JavaType.occurs_of_shown`), and what is annotated elsewhere leaves the text as it was
(`JavaType.text_eq_of_not_shown`).
-/

namespace AnnotationPlan.JavaType

variable {t t' u : JavaType} {a : String}

/-- **A type that is written without what lies inside it.** -/
def hidesInside : JavaType → Bool
  | .declared _ name _ _ => decide (name = "")
  | .array _ _ => false
  | .wildcard _ kind _ => decide (kind = .unbounded)

/-- A list of steps that leads through types only that show what lies inside them. -/
def ShownSteps : List TypePath.Step → JavaType → Prop
  | [], _ => True
  | s :: rest, t =>
    t.hidesInside = false ∧ ∀ inside, t.step? s = some inside → ShownSteps rest inside

/-- **A path is shown** if the text of the type goes where it leads. -/
def Shown (t : JavaType) (path : TypePath) : Prop := ShownSteps path.steps t

@[simp] theorem hidesInside_bare (t : JavaType) : t.bare.hidesInside = t.hidesInside := by
  cases t <;> rfl

/-- What is shown of a bare type is shown of the type. -/
theorem shownSteps_bare : ∀ (steps : List TypePath.Step) (t : JavaType),
    ShownSteps steps t.bare ↔ ShownSteps steps t
  | [], _ => Iff.rfl
  | s :: rest, t => by
    unfold ShownSteps
    rw [hidesInside_bare, step?_bare]
    refine and_congr_right' ?_
    cases t.step? s with
    | none => exact iff_of_true nofun nofun
    | some inside =>
      constructor
      · rintro h _ ⟨⟩
        exact (shownSteps_bare rest inside).mp (h _ rfl)
      · rintro h _ ⟨⟩
        exact (shownSteps_bare rest inside).mpr (h _ rfl)

/-- Which paths are shown does not depend on the annotations. -/
theorem shown_congr (h : t.bare = t'.bare) (path : TypePath) : t.Shown path ↔ t'.Shown path := by
  unfold Shown
  rw [← shownSteps_bare, h, shownSteps_bare]

/-! ## What is shown -/

theorem texts_eq_map : ∀ ts : List JavaType, texts ts = ts.map (textBefore "")
  | [] => rfl
  | t :: rest => by rw [texts, texts_eq_map rest, List.map_cons]

/-- **The text of a type goes through the types that it shows.** -/
theorem occurs_textBefore_of_shown : ∀ {steps : List TypePath.Step} {t : JavaType},
    ShownSteps steps t → atSteps? steps t = some u → a ∈ u.annotations →
      ∀ brackets, Occurs a (t.textBefore brackets)
  | [], t, _, hu, ha, brackets => by
    obtain rfl := Option.some.inj hu
    exact occurs_textBefore t ha brackets
  | s :: rest, t, ⟨hshows, hinside⟩, hu, ha, brackets => by
    rw [atSteps?_cons] at hu
    obtain ⟨inside, hstep, hu⟩ := Option.bind_eq_some_iff.mp hu
    have hocc := occurs_textBefore_of_shown (hinside inside hstep) hu ha
    cases t with
    | declared as name arguments inner =>
      have hname : name ≠ "" := of_decide_eq_false hshows
      rw [textBefore, if_neg hname]
      cases s with
      | argument i =>
        have hmem : inside ∈ arguments := List.mem_of_getElem? hstep
        have hne : arguments.isEmpty = false := List.isEmpty_eq_false_iff_exists_mem.mpr ⟨_, hmem⟩
        have htexts : Occurs a (String.intercalate ", " (texts arguments)) := by
          rw [texts_eq_map]
          exact (hocc "").trans (Occurs.intercalate ", " (List.mem_map_of_mem hmem))
        rw [hne]
        exact ((((htexts.append_right _).append_left _).append_right _).append_left _).append_left _
      | inner =>
        obtain rfl : inner = some inside := hstep
        rw [textAfter]
        exact (((hocc "").append_right _).append_right _).append_left _
      | array => cases hstep
      | wildcard => cases hstep
    | array as component =>
      cases s with
      | array =>
        obtain rfl : component = inside := Option.some.inj hstep
        rw [textBefore]
        exact hocc _
      | _ => cases hstep
    | wildcard as kind bound =>
      cases s with
      | wildcard =>
        obtain rfl : bound = some inside := hstep
        have hbounded : kind ≠ .unbounded := of_decide_eq_false hshows
        cases kind with
        | unbounded => exact absurd rfl hbounded
        | _ =>
          rw [textBefore]
          rw [textAfter]
          exact (((hocc "").append_right _).append_right _).append_left _
      | _ => cases hstep

/-- **An annotation at the end of a shown path is written.** -/
theorem occurs_of_shown {path : TypePath} (hshown : t.Shown path) (hu : t.at? path = some u)
    (ha : a ∈ u.annotations) : Occurs a t.text :=
  occurs_textBefore_of_shown hshown hu ha ""

/-! ## What is not shown -/

/-- Several types are written alike after a change of one that is not seen in its text. -/
theorem texts_set {ts : List JavaType} {i : Nat} {inside changed : JavaType}
    (h : ts[i]? = some inside) (htext : changed.textBefore "" = inside.textBefore "") :
    texts (ts.set i changed) = texts ts := by
  obtain ⟨hi, rfl⟩ := List.getElem?_eq_some_iff.mp h
  rw [texts_eq_map, texts_eq_map, List.map_set, htext, ← List.map_set, List.set_getElem_self]

/-- **A type is written as before** after a change inside of it that it hides, or that is
not seen in the text there. -/
theorem textBefore_setStep {s : TypePath.Step} {inside changed : JavaType}
    (hstep : t.step? s = some inside)
    (h : t.hidesInside = false →
      ∀ brackets, changed.textBefore brackets = inside.textBefore brackets) (brackets : String) :
    (setStep s changed t).textBefore brackets = t.textBefore brackets := by
  cases t with
  | declared as name arguments inner =>
    by_cases hname : name = ""
    · subst hname
      cases inner <;> cases s <;> rfl
    · have htext := h (decide_eq_false hname) ""
      cases s with
      | argument i =>
        have hempty : (arguments.set i.toNat changed).isEmpty = arguments.isEmpty := by
          cases arguments <;> cases i.toNat <;> rfl
        rw [setStep, textBefore, textBefore, hempty, texts_set hstep htext]
      | inner =>
        obtain rfl : inner = some inside := hstep
        rw [setStep, textBefore, textBefore, textAfter, textAfter, htext]
      | array => cases hstep
      | wildcard => cases hstep
  | array as component =>
    cases s with
    | array =>
      obtain rfl : component = inside := Option.some.inj hstep
      rw [setStep, textBefore, textBefore, h rfl]
    | _ => cases hstep
  | wildcard as kind bound =>
    cases s with
    | wildcard =>
      obtain rfl : bound = some inside := hstep
      cases kind with
      | unbounded => rfl
      | _ =>
        rw [setStep, textBefore, textBefore]
        rw [textAfter, textAfter, h rfl]
    | _ => cases hstep

/-- A change at the end of a path that is not shown is not seen in the text. -/
theorem textBefore_eq_of_not_shown {f : JavaType → JavaType} :
    ∀ {steps : List TypePath.Step} {t t' : JavaType}, modifySteps? f steps t = some t' →
      ¬ ShownSteps steps t → ∀ brackets, t'.textBefore brackets = t.textBefore brackets
  | [], _, _, _, hhidden => absurd trivial hhidden
  | s :: rest, t, t', h, hhidden => by
    rw [modifySteps?] at h
    obtain ⟨inside, hinside, h⟩ := Option.bind_eq_some_iff.mp h
    obtain ⟨changed, hchanged, h⟩ := Option.bind_eq_some_iff.mp h
    obtain rfl : setStep s changed t = t' := Option.some.inj h
    refine textBefore_setStep hinside (fun hshows => ?_)
    refine textBefore_eq_of_not_shown hchanged (fun hrest => hhidden ⟨hshows, ?_⟩)
    intro v hv
    obtain rfl : inside = v := Option.some.inj (hinside.symm.trans hv)
    exact hrest

/-- **An annotation at the end of a path that is not shown is not written.** -/
theorem text_eq_of_not_shown {path : TypePath} (h : t.annotateAt? path a = some t')
    (hhidden : ¬ t.Shown path) : t'.text = t.text :=
  textBefore_eq_of_not_shown h hhidden ""

end AnnotationPlan.JavaType
