import AnnotationPlan.AnnotationUse.Format
import AnnotationPlan.Proofs.AnnotationUse.Readability

/-!
# The arguments of two annotations

Two uses of one definition are written with their fields in the same order, that of the
definition. So if the one sets the fields that the other sets, their arguments correspond
one by one, as long as the other does not set further ones (`Covered`). Then each further
field brings an equality sign of its own into the text – it cannot stand alone, and only a
value that stands alone is written without one (`Covered.compared`).
-/

namespace AnnotationPlan

namespace Formatter

/-- The arguments of an annotation, given how the values of its fields are written. -/
def argumentChars : List (String × List Char) → List Char
  | [] => []
  | [("value", s)] => ['('] ++ (s ++ [')'])
  | vs => ['('] ++ ([',', ' '].intercalate (vs.map (fun v => v.1.toList ++ '=' :: v.2)) ++ [')'])

theorem toList_argumentText (parts : List (String × Formatted)) :
    (argumentText parts).toList
      = argumentChars (parts.map (fun v => (v.1, v.2.text.toList))) := by
  unfold argumentText
  split
  · rfl
  · rw [String.toList_append, String.toList_append, List.append_assoc]
    rfl
  case h_3 hnil hvalue =>
    rw [argumentChars]
    · rw [String.toList_append, String.toList_append, String.toList_intercalate, List.append_assoc,
        List.map_map, List.map_map]
      simp only [Function.comp_def, String.toList_append, List.append_assoc]
      rfl
    · exact fun h => hnil (List.map_eq_nil_iff.mp h)
    · intro s h
      obtain ⟨⟨k, w⟩, hparts, h⟩ := List.map_eq_singleton_iff.mp h
      obtain ⟨rfl, -⟩ := Prod.mk.inj h
      exact hvalue w hparts

/-- **One annotation sets the fields of another**: the other sets these fields, in the same
order, to values that compare with those of the one, and possibly further fields. -/
inductive Covered : List (String × Spelling) → List (String × Spelling) → Prop where
  | nil : Covered [] []
  | both (k : String) {s t : Spelling} {A B : List (String × Spelling)} (h : Compared s t)
      (hrest : Covered A B) : Covered ((k, s) :: A) ((k, t) :: B)
  | further (b : String × Spelling) {A B : List (String × Spelling)} (hrest : Covered A B) :
      Covered A (b :: B)

/-- A field and how its value is written. -/
def assignment (a : String × Spelling) : Spelling := fun p => a.1.toList ++ '=' :: a.2 p

namespace Covered

variable {A B : List (String × Spelling)}

theorem length_le (h : Covered A B) : A.length ≤ B.length := by
  induction h with
  | nil => exact Nat.le_refl 0
  | both _ _ _ ih => exact Nat.succ_le_succ ih
  | further _ _ ih => exact Nat.le_succ_of_le ih

/-- Without further fields the two correspond field by field. -/
theorem forall₂ (h : Covered A B) (hlength : A.length = B.length) :
    List.Forall₂ (fun a b => a.1 = b.1 ∧ Compared a.2 b.2) A B := by
  induction h with
  | nil => exact .nil
  | both k h _ ih => exact .cons ⟨rfl, h⟩ (ih (Nat.succ.inj hlength))
  | further b hrest =>
    rw [List.length_cons] at hlength
    exact absurd hrest.length_le (by omega)

/-- **Each further field brings a sign.** -/
theorem signs_le (h : Covered A B) (p : NamePolicy) :
    ((A.map (assignment · p)).map signs).sum + B.length
      ≤ ((B.map (assignment · p)).map signs).sum + A.length := by
  have hsigns : ∀ a : String × Spelling,
      signs (assignment a p) = signs a.1.toList + (signs (a.2 p) + 1) := fun a => by
    show signs (a.1.toList ++ ('=' :: a.2 p)) = _
    rw [signs_append]
    exact congrArg _ List.count_cons_self
  induction h with
  | nil => exact Nat.le_refl _
  | both k h _ ih =>
    simp only [List.map_cons, List.sum_cons, List.length_cons, hsigns]
    have hle := h.signs_le p
    omega
  | further b _ ih =>
    simp only [List.map_cons, List.sum_cons, List.length_cons, hsigns]
    omega

end Covered

/-- The arguments of an annotation under each policy. -/
def argumentSpelling (A : List (String × Spelling)) : Spelling :=
  fun p => argumentChars (A.map (fun a => (a.1, a.2 p)))

/-- Arguments other than a single value are written as assignments. -/
theorem argumentSpelling_eq {A : List (String × Spelling)} (hnil : A ≠ [])
    (hvalue : ∀ s, A ≠ [("value", s)]) (p : NamePolicy) :
    argumentSpelling A p
      = ['('] ++ ([',', ' '].intercalate (A.map (assignment · p)) ++ [')']) := by
  unfold argumentSpelling
  rw [argumentChars, List.map_map]
  · rfl
  · exact fun h => hnil (List.map_eq_nil_iff.mp h)
  · intro s h
    obtain ⟨⟨k, t⟩, hA, h⟩ := List.map_eq_singleton_iff.mp h
    obtain ⟨rfl, -⟩ := Prod.mk.inj h
    exact hvalue t hA

/-- Written as assignments, arguments have the signs of these. -/
theorem signs_argumentSpelling {A : List (String × Spelling)} (hnil : A ≠ [])
    (hvalue : ∀ s, A ≠ [("value", s)]) (p : NamePolicy) :
    signs (argumentSpelling A p) = ((A.map (assignment · p)).map signs).sum := by
  have hopen : signs ['('] = 0 := rfl
  have hclose : signs [')'] = 0 := rfl
  rw [argumentSpelling_eq hnil hvalue, signs_append, signs_append, signs_intercalate rfl, hopen,
    hclose, Nat.zero_add, Nat.add_zero]

/-- A single value saves a sign. -/
theorem signs_argumentSpelling_le (A : List (String × Spelling)) (p : NamePolicy) :
    signs (argumentSpelling A p) ≤ ((A.map (assignment · p)).map signs).sum := by
  by_cases hvalue : ∃ s, A = [("value", s)]
  · obtain ⟨s, rfl⟩ := hvalue
    show signs (['('] ++ (s p ++ [')'])) ≤ signs ("value".toList ++ ('=' :: s p)) + 0
    rw [signs_append, signs_append, signs_append]
    have hsign : signs ('=' :: s p) = signs (s p) + 1 := List.count_cons_self
    have hopen : signs ['('] = 0 := rfl
    have hclose : signs [')'] = 0 := rfl
    omega
  · by_cases hnil : A = []
    · subst hnil
      exact Nat.le_refl 0
    · exact Nat.le_of_eq (signs_argumentSpelling hnil (not_exists.mp hvalue) p)

/-- **Arguments compare as the values of the fields do**, if both annotations have arguments
or neither has. -/
theorem Covered.compared {A B : List (String × Spelling)} (h : Covered A B)
    (hnil : A = [] → B = []) : Compared (argumentSpelling A) (argumentSpelling B) := by
  by_cases hA : A = []
  · obtain rfl := hA
    obtain rfl := hnil rfl
    exact .equal (fun _ => rfl)
  have hpos : 0 < A.length := List.length_pos_iff.mpr hA
  have hle := h.length_le
  have hB : B ≠ [] := List.ne_nil_of_length_pos (Nat.lt_of_lt_of_le hpos hle)
  by_cases hlength : A.length = B.length
  case neg =>
    -- the one with the further fields has at least two, so it saves no sign
    have hvalue : ∀ s, B ≠ [("value", s)] := fun s hs => by
      rw [hs, List.length_singleton] at hle hlength
      omega
    refine .fewer (fun p => ?_)
    rw [signs_argumentSpelling hB hvalue]
    have hA := signs_argumentSpelling_le A p
    have hsigns := h.signs_le p
    omega
  case pos =>
    have hall := h.forall₂ hlength
    by_cases hvalue : ∃ s, A = [("value", s)]
    · obtain ⟨s, rfl⟩ := hvalue
      obtain ⟨⟨k, t⟩, B', ⟨rfl, hst⟩, hB', rfl⟩ := List.forall₂_cons_left_iff.mp hall
      obtain rfl := List.forall₂_nil_left_iff.mp hB'
      exact (hst.append_closing rfl []).prepend (fun _ => ['('])
    · have hvalue' : ∀ t, B ≠ [("value", t)] := fun t ht => by
        subst ht
        obtain ⟨⟨k, s⟩, A', ⟨rfl, -⟩, hA', rfl⟩ := List.forall₂_cons_right_iff.mp hall
        obtain rfl := List.forall₂_nil_right_iff.mp hA'
        exact hvalue ⟨s, rfl⟩
      have hassignments : List.Forall₂ Compared (A.map assignment) (B.map assignment) := by
        rw [List.forall₂_map_left_iff, List.forall₂_map_right_iff]
        refine hall.imp (fun a b hab => ?_)
        obtain ⟨hk, hab⟩ := hab
        unfold assignment
        rw [hk]
        exact (hab.prepend (fun _ => ['='])).prepend (fun _ => b.1.toList)
      rw [funext (argumentSpelling_eq hA (not_exists.mp hvalue)),
        funext (argumentSpelling_eq hB hvalue')]
      have hlisted := Compared.intercalate (c := ',') rfl [' '] hassignments
      simp only [List.map_map, Function.comp_def] at hlisted
      exact (hlisted.append_closing rfl []).prepend (fun _ => ['('])

end Formatter

end AnnotationPlan
