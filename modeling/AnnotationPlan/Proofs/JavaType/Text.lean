import AnnotationPlan.JavaType.Basic
import Mathlib.Data.List.Infix

/-!
# Annotations are written with their type

The annotations at the outermost position of a type can be read in its source text. Where
they stand there depends on the type – in front of a name, or before the brackets of an
array, which are themselves written behind the element type – so all that is shown is
that each of them occurs somewhere (`JavaType.occurs_text`).
-/

namespace AnnotationPlan

/-- **One text occurs in another.** -/
def Occurs (t text : String) : Prop := ∃ before behind, text = before ++ t ++ behind

namespace Occurs

variable {t u text : String}

/-- A text occurs in another if its characters do, one after another. -/
theorem iff_infix : Occurs t text ↔ t.toList <:+: text.toList := by
  constructor
  · rintro ⟨before, behind, rfl⟩
    exact ⟨before.toList, behind.toList, by simp only [String.toList_append]⟩
  · rintro ⟨before, behind, h⟩
    refine ⟨.ofList before, .ofList behind, String.toList_injective ?_⟩
    simp only [String.toList_append, String.toList_ofList, h]

/-- Whether a text occurs in another can be found out. -/
instance (t text : String) : Decidable (Occurs t text) := decidable_of_iff _ iff_infix.symm

theorem refl (t : String) : Occurs t t := ⟨"", "", by simp⟩

theorem trans (h : Occurs t u) (h' : Occurs u text) : Occurs t text := by
  obtain ⟨before, behind, rfl⟩ := h
  obtain ⟨before', behind', rfl⟩ := h'
  exact ⟨before' ++ before, behind ++ behind', by simp only [String.append_assoc]⟩

/-- What occurs in a text occurs in it with more behind it. -/
theorem append_left (h : Occurs t text) (behind : String) : Occurs t (text ++ behind) :=
  h.trans ⟨"", behind, by simp⟩

/-- What occurs in a text occurs in it with more before it. -/
theorem append_right (h : Occurs t text) (before : String) : Occurs t (before ++ text) :=
  h.trans ⟨before, "", by simp⟩

/-- Nothing but the empty text occurs in it. -/
theorem eq_empty (h : Occurs t "") : t = "" := by
  obtain ⟨before, behind, h⟩ := h
  have hall := String.append_eq_empty_iff.mp h.symm
  exact (String.append_eq_empty_iff.mp hall.1).2

/-- The members of a list occur in all of them together. -/
theorem join : ∀ {ts : List String}, t ∈ ts → Occurs t (String.join ts)
  | u :: rest, h => by
    rw [String.join_cons]
    rcases List.mem_cons.mp h with rfl | h
    · exact (refl t).append_left _
    · exact (join h).append_right _

/-- The members of a list occur in all of them together with something between them. -/
theorem intercalate (mark : String) :
    ∀ {ts : List String}, t ∈ ts → Occurs t (String.intercalate mark ts)
  | [u], h => by
    obtain rfl := List.mem_singleton.mp h
    rw [String.intercalate_singleton]
    exact refl t
  | u :: v :: rest, h => by
    rw [String.intercalate_cons_cons]
    rcases List.mem_cons.mp h with rfl | h
    · exact ((refl t).append_left _).append_left _
    · exact (intercalate mark h).append_right _

end Occurs

namespace JavaType

/-- The annotations in front of something. -/
theorem occurs_leading {a : String} {as : List String} (h : a ∈ as) : Occurs a (leading as) :=
  ((Occurs.refl a).append_left " ").trans (Occurs.join (List.mem_map_of_mem h))

/-- The annotations of an array. -/
theorem occurs_dimension {a : String} {as : List String} (h : a ∈ as) :
    Occurs a (dimension as) := by
  have hjoin : Occurs a (String.join (as.map (" " ++ ·))) :=
    ((Occurs.refl a).append_right " ").trans (Occurs.join (List.mem_map_of_mem h))
  exact (hjoin.append_left _).append_left _

/-- The brackets of the arrays around a type are written with it. -/
theorem occurs_brackets : ∀ (t : JavaType) (brackets : String),
    Occurs brackets (t.textBefore brackets)
  | .array as component, brackets => by
    rw [textBefore]
    exact ((Occurs.refl brackets).append_left _).trans (occurs_brackets component _)
  | .declared as name arguments inner, brackets => by
    rw [textBefore]
    split <;> exact (Occurs.refl brackets).append_right _
  | .wildcard as kind bound, brackets => by
    cases kind <;> exact (Occurs.refl brackets).append_right _

/-- The annotations of a type are written with it, whatever brackets are behind. -/
theorem occurs_textBefore (t : JavaType) {a : String} (h : a ∈ t.annotations)
    (brackets : String) : Occurs a (t.textBefore brackets) := by
  cases t with
  | declared as name arguments inner =>
    rw [textBefore]
    split
    · exact (Occurs.intercalate " " h).append_left _
    · have hname := ((occurs_leading h).append_left name).append_left
      exact ((hname _).append_left _).append_left _
  | array as component =>
    rw [textBefore]
    exact ((occurs_dimension h).append_right _).trans (occurs_brackets component _)
  | wildcard as kind bound =>
    cases kind <;> exact (((occurs_leading h).append_left _).append_left _).append_left _

/-- **The annotations of a type occur in its text.** -/
theorem occurs_text (t : JavaType) {a : String} (h : a ∈ t.annotations) : Occurs a t.text :=
  occurs_textBefore t h ""

end JavaType

end AnnotationPlan
