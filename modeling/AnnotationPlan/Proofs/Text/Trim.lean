import AnnotationPlan.Text.Blank
import Mathlib.Data.List.Basic
import Mathlib.Data.List.TakeWhile

/-!
# Trimmed texts

A text is trimmed if it neither begins nor ends with a blank (`Text.IsTrimmed`). Trimming makes
a text trimmed (`Text.isTrimmed_trimChars`) and leaves a trimmed text as it is
(`Text.IsTrimmed.trimChars_eq`), and it takes away nothing but blanks. What ends without a blank
is trimmed at its front only (`Text.trimChars_of_ends`), so that the trimmed text is the end of
the text.
-/

namespace AnnotationPlan.Text

variable {cs ds : List Char}

/-- **Characters neither begin nor end with a blank.** -/
structure IsTrimmed (cs : List Char) : Prop where
  /-- The first character is no blank. -/
  begins : ∀ c ∈ cs.head?, isBlank c = false
  /-- The last character is no blank. -/
  ends : ∀ c ∈ cs.getLast?, isBlank c = false

theorem toList_trim (s : String) : (trim s).toList = trimChars s.toList := String.toList_ofList

theorem trim_ofList (cs : List Char) : trim (String.ofList cs) = String.ofList (trimChars cs) := by
  rw [trim, String.toList_ofList]

/-- What is left after the blanks at the front begins with none. -/
theorem head?_dropWhile_isBlank (cs : List Char) :
    ∀ c ∈ (cs.dropWhile isBlank).head?, isBlank c = false := by
  intro c hc
  have hhead := List.head?_dropWhile_not isBlank cs
  rw [Option.mem_def.mp hc] at hhead
  exact hhead

/-- Characters that do not begin with a blank have none at the front. -/
theorem dropWhile_isBlank_eq (h : ∀ c ∈ cs.head?, isBlank c = false) :
    cs.dropWhile isBlank = cs := by
  cases cs with
  | nil => rfl
  | cons c cs => exact List.dropWhile_cons_of_neg (by simp [h c rfl])

/-- **Trimmed characters** are not trimmed any more. -/
theorem IsTrimmed.trimChars_eq (h : IsTrimmed cs) : trimChars cs = cs := by
  have hends : ∀ c ∈ cs.reverse.head?, isBlank c = false := by
    rw [List.head?_reverse]
    exact h.ends
  rw [trimChars, dropWhile_isBlank_eq h.begins, dropWhile_isBlank_eq hends, List.reverse_reverse]

/-- Trimmed characters behind trimmed ones are trimmed with them. -/
theorem IsTrimmed.append (hcs : IsTrimmed cs) (hds : IsTrimmed ds) : IsTrimmed (cs ++ ds) where
  begins := by
    cases cs with
    | nil => exact hds.begins
    | cons c cs => exact hcs.begins
  ends := by
    by_cases hnil : ds = []
    · rw [hnil, List.append_nil]
      exact hcs.ends
    · rw [List.getLast?_append_of_ne_nil cs hnil]
      exact hds.ends

/-- A piece at the end of some characters that is not empty ends as they do. -/
theorem getLast?_of_isSuffix (h : ds <:+ cs) (hne : ds ≠ []) : ds.getLast? = cs.getLast? := by
  obtain ⟨front, rfl⟩ := h
  exact (List.getLast?_append_of_ne_nil front hne).symm

/-- A piece at the front of some characters that is not empty begins as they do. -/
theorem head?_of_isPrefix (h : ds <+: cs) (hne : ds ≠ []) : ds.head? = cs.head? := by
  obtain ⟨behind, rfl⟩ := h
  obtain ⟨d, ds, rfl⟩ := List.exists_cons_of_ne_nil hne
  rfl

/-- **Characters that do not end with a blank** are trimmed at the front only. -/
theorem trimChars_of_ends (h : ∀ c ∈ cs.getLast?, isBlank c = false) :
    trimChars cs = cs.dropWhile isBlank := by
  have hends : ∀ c ∈ (cs.dropWhile isBlank).reverse.head?, isBlank c = false := by
    intro c hc
    rw [List.head?_reverse] at hc
    have hne : cs.dropWhile isBlank ≠ [] := by
      rintro hnil
      rw [hnil] at hc
      cases hc
    rw [getLast?_of_isSuffix (List.dropWhile_suffix isBlank) hne] at hc
    exact h c hc
  rw [trimChars, dropWhile_isBlank_eq hends, List.reverse_reverse]

/-- **Trimming trims.** -/
theorem isTrimmed_trimChars (cs : List Char) : IsTrimmed (trimChars cs) where
  begins := by
    intro c hc
    have hfront : trimChars cs <+: cs.dropWhile isBlank := by
      rw [trimChars, ← List.reverse_suffix, List.reverse_reverse]
      exact List.dropWhile_suffix isBlank
    have hne : trimChars cs ≠ [] := by
      rintro hnil
      rw [hnil] at hc
      cases hc
    rw [head?_of_isPrefix hfront hne] at hc
    exact head?_dropWhile_isBlank cs c hc
  ends := by
    rw [trimChars, List.getLast?_reverse]
    exact head?_dropWhile_isBlank _

/-- **What trimmed characters have behind a blank** is not all blank, and trimmed at its front
only. -/
theorem IsTrimmed.trimChars_rest {front rest : List Char} (h : IsTrimmed (front ++ rest))
    (hblank : ∃ c ∈ front.getLast?, isBlank c = true) :
    trimChars rest ≠ [] ∧ trimChars rest <:+ rest := by
  have hne : rest ≠ [] := by
    rintro rfl
    obtain ⟨c, hc, hc_blank⟩ := hblank
    rw [h.ends c (by rwa [List.append_nil])] at hc_blank
    cases hc_blank
  have hends : ∀ c ∈ rest.getLast?, isBlank c = false := by
    rw [← List.getLast?_append_of_ne_nil front hne]
    exact h.ends
  rw [trimChars_of_ends hends]
  refine ⟨fun hnil => ?_, List.dropWhile_suffix isBlank⟩
  have hlast := List.dropWhile_eq_nil_iff.mp hnil _ (List.getLast_mem hne)
  rw [hends _ (List.getLast?_eq_some_getLast hne)] at hlast
  cases hlast

/-- Blanks in front are trimmed. -/
theorem trimChars_append {blanks : List Char} (h : ∀ c ∈ blanks, isBlank c = true)
    (cs : List Char) : trimChars (blanks ++ cs) = trimChars cs := by
  rw [trimChars, List.dropWhile_append_of_pos h, trimChars]

/-- Blanks are trimmed away. -/
theorem trimChars_of_blanks (h : ∀ c ∈ cs, isBlank c = true) : trimChars cs = [] := by
  rw [trimChars, List.dropWhile_eq_nil_iff.mpr h]
  rfl

/-- **The blanks around trimmed characters** are trimmed. -/
theorem IsTrimmed.trimChars_between (h : IsTrimmed cs) {before after : List Char}
    (hbefore : ∀ c ∈ before, isBlank c = true) (hafter : ∀ c ∈ after, isBlank c = true) :
    trimChars (before ++ (cs ++ after)) = cs := by
  rw [trimChars_append hbefore]
  cases cs with
  | nil => exact trimChars_of_blanks hafter
  | cons c cs =>
    have hends : ∀ d ∈ (c :: cs).reverse.head?, isBlank d = false := by
      rw [List.head?_reverse]
      exact h.ends
    have hbegins : ∀ d ∈ (c :: cs ++ after).head?, isBlank d = false := h.begins
    rw [trimChars, dropWhile_isBlank_eq hbegins, List.reverse_append,
      List.dropWhile_append_of_pos (fun d hd => hafter d (List.mem_reverse.mp hd)),
      dropWhile_isBlank_eq hends, List.reverse_reverse]

/-- **Nothing but blanks** is trimmed. -/
theorem exists_blanks_trimChars (cs : List Char) :
    ∃ before after, cs = before ++ (trimChars cs ++ after)
      ∧ (∀ c ∈ before, isBlank c = true) ∧ ∀ c ∈ after, isBlank c = true := by
  refine ⟨cs.takeWhile isBlank, ((cs.dropWhile isBlank).reverse.takeWhile isBlank).reverse, ?_,
    fun c hc => List.mem_takeWhile_imp hc,
    fun c hc => List.mem_takeWhile_imp (List.mem_reverse.mp hc)⟩
  rw [trimChars, ← List.reverse_append, List.takeWhile_append_dropWhile, List.reverse_reverse,
    List.takeWhile_append_dropWhile]

/-- A trimmed text is what is left of it. -/
theorem IsTrimmed.trim_eq {s : String} (h : IsTrimmed s.toList) : trim s = s := by
  rw [trim, h.trimChars_eq, String.ofList_toList]

theorem isTrimmed_trim (s : String) : IsTrimmed (trim s).toList := by
  rw [toList_trim]
  exact isTrimmed_trimChars _

/-- Trimming twice is trimming once. -/
theorem trim_trim (s : String) : trim (trim s) = trim s := (isTrimmed_trim s).trim_eq

end AnnotationPlan.Text
