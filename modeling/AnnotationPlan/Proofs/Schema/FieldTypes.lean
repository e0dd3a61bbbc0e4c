import AnnotationPlan.Proofs.Text.Trim
import AnnotationPlan.Schema.FieldType

/-!
# Field types are read back from their written forms

The written form of whatever was read as a field type is read as the same type again, and so is
that of a scalar type (`FieldType.parse_text_of_parse`). This does not hold of every type. The
name of an enumeration may be any text, but one that is empty, that has blanks around it or that
ends with brackets is read as something else, or not at all. What was read has no such name,
because of where blanks are taken away: first around the whole text, then before the brackets,
and last around the name.

So what is written for a type is stated on its own (`ScalarType.Written`, `FieldType.Written`),
and a text without blanks around it turns out to stand for a type whose written form has none
around it either, and ends with brackets only if the text did
(`ScalarType.Written.isTrimmed_text`).
-/

namespace AnnotationPlan

/-! ## Scalar types -/

namespace ScalarType

variable {s : String} {t : ScalarType}

/-- **What is written for a scalar type**: a word, or a keyword and a name, with blanks around the
name or none. -/
inductive Written : String → ScalarType → Prop
  /-- A word. -/
  | word {s : String} {t : ScalarType} (known : words.lookup s = some t) : Written s t
  /-- An enumeration. -/
  | enumeration (name : String) : Written ("enum " ++ name) (.enumeration (Text.trim name))
  /-- A nested annotation. -/
  | nested (name : String) : Written ("annotation-field " ++ name) (.nested (Text.trim name))

/-- No word begins with a keyword. -/
theorem lookup_keyword {keyword : String}
    (h : ∀ w ∈ words, keyword.toList.isPrefixOf w.1.toList = false) (name : String) :
    words.lookup (keyword ++ name) = none := by
  refine List.lookup_eq_none_iff.mpr (fun w hw => ?_)
  rw [bne_iff_ne]
  intro heq
  have hfront : keyword.toList <+: w.1.toList := by
    rw [← heq, String.toList_append]
    exact List.prefix_append _ _
  have hnot := h w hw
  rw [List.isPrefixOf_iff_prefix.mpr hfront] at hnot
  cases hnot

/-- What stands behind a keyword is the rest of the text. -/
theorem eq_append_of_isPrefixOf? {keyword : String} {name : List Char}
    (h : keyword.toList.isPrefixOf? s.toList = some name) : s = keyword ++ String.ofList name := by
  rw [← String.toList_inj, String.toList_append, String.toList_ofList]
  exact (List.append_eq_of_isPrefixOf?_eq_some h).symm

theorem isPrefixOf?_append (keyword name : String) :
    keyword.toList.isPrefixOf? (keyword ++ name).toList = some name.toList :=
  List.isPrefixOf?_eq_some_iff_append_eq.mpr String.toList_append.symm

/-- **The scalar types are read** from what is written for them, and from nothing else. -/
theorem parse_eq_ok_iff : parse s = .ok t ↔ Written s t := by
  refine ⟨fun h => ?_, fun h => ?_⟩
  · rw [parse] at h
    split at h
    case h_1 known =>
      cases h
      exact .word known
    case h_2 =>
      split at h
      case h_1 name hname =>
        cases h
        obtain rfl := eq_append_of_isPrefixOf? hname
        rw [← Text.trim_ofList]
        exact .enumeration _
      case h_2 =>
        split at h
        case h_1 name hname =>
          cases h
          obtain rfl := eq_append_of_isPrefixOf? hname
          rw [← Text.trim_ofList]
          exact .nested _
        case h_2 => cases h
  · cases h with
    | word known => rw [parse, known]
    | enumeration name =>
      rw [parse, lookup_keyword (by decide), isPrefixOf?_append]
      rfl
    | nested name =>
      have hnone : "enum ".toList.isPrefixOf? ("annotation-field " ++ name).toList = none := by
        rw [String.toList_append]
        rfl
      rw [parse, lookup_keyword (by decide), hnone, isPrefixOf?_append]
      rfl

/-- **The name behind a keyword** of a text without blanks around it: without the blanks before
the name there are none around the text either, and there are no other brackets at its end. -/
theorem isTrimmed_keyword {keyword name : String} (hblank : keyword.toList.getLast? = some ' ')
    (h : Text.IsTrimmed (keyword ++ name).toList) :
    Text.IsTrimmed (keyword ++ Text.trim name).toList
      ∧ ("[]".toList <:+ (keyword ++ Text.trim name).toList →
          "[]".toList <:+ (keyword ++ name).toList) := by
  simp only [String.toList_append, Text.toList_trim] at h ⊢
  obtain ⟨front, hfront⟩ := List.getLast?_eq_some_iff.mp hblank
  obtain ⟨hne, hsuffix⟩ := h.trimChars_rest ⟨' ', hblank, rfl⟩
  refine ⟨⟨?_, ?_⟩, fun hbrackets => ?_⟩
  · have hbegins := h.begins
    rw [hfront, List.append_assoc, List.head?_append] at hbegins ⊢
    exact hbegins
  · rw [List.getLast?_append_of_ne_nil _ hne]
    exact (Text.isTrimmed_trimChars _).ends
  · -- the brackets reach no further than the blank of the keyword, which is none of them
    have hreach : "[]".toList <:+ ' ' :: Text.trimChars name.toList := by
      refine List.suffix_of_suffix_length_le hbrackets ⟨front, ?_⟩ ?_
      · rw [hfront, List.append_assoc]
        rfl
      · exact Nat.succ_le_succ (List.length_pos_iff.mpr hne)
    rcases List.suffix_cons_iff.mp hreach with heq | hname
    · cases heq
    · exact (hname.trans hsuffix).trans (List.suffix_append _ _)

/-- **The text of a word** is read as its type, has no blanks around it and no brackets at its
end. -/
theorem text_of_word (h : words.lookup s = some t) :
    words.lookup t.text = some t ∧ Text.trimChars t.text.toList = t.text.toList
      ∧ "[]".toList.isSuffixOf t.text.toList = false := by
  have hall : ∀ w ∈ words, words.lookup w.2.text = some w.2
      ∧ Text.trimChars w.2.text.toList = w.2.text.toList
      ∧ "[]".toList.isSuffixOf w.2.text.toList = false := by
    decide +kernel
  obtain ⟨front, rest, hwords, -⟩ := List.lookup_eq_some_iff.mp h
  exact hall (s, t) (hwords ▸ List.mem_append_right front List.mem_cons_self)

/-- What is read is the type of its own text. -/
theorem Written.text (h : Written s t) : Written t.text t := by
  cases h with
  | word known => exact .word (text_of_word known).1
  | enumeration name =>
    have hwritten := Written.enumeration (Text.trim name)
    rwa [Text.trim_trim] at hwritten
  | nested name =>
    have hwritten := Written.nested (Text.trim name)
    rwa [Text.trim_trim] at hwritten

/-- **The text of what is read** from a text without blanks around it has none around it either,
and brackets at its end only if the text had them. -/
theorem Written.isTrimmed_text (h : Written s t) (hs : Text.IsTrimmed s.toList) :
    Text.IsTrimmed t.text.toList
      ∧ ("[]".toList <:+ t.text.toList → "[]".toList <:+ s.toList) := by
  cases h with
  | word known =>
    obtain ⟨-, htrim, hno⟩ := text_of_word known
    refine ⟨htrim ▸ Text.isTrimmed_trimChars _, fun hbrackets => ?_⟩
    rw [List.isSuffixOf_iff_suffix.mpr hbrackets] at hno
    cases hno
  | enumeration name => exact isTrimmed_keyword (by decide) hs
  | nested name => exact isTrimmed_keyword (by decide) hs

end ScalarType

/-! ## Types of fields -/

namespace FieldType

variable {s : String} {t : FieldType}

/-- **What is written for a field type**, without the blanks around it: a scalar type, or the
type of the elements and brackets, with blanks around that type or none. -/
inductive Written : String → FieldType → Prop
  /-- A scalar type. -/
  | scalar {s : String} {t : ScalarType} (written : t.Written s)
      (noBrackets : ¬ "[]".toList <:+ s.toList) : Written s (.scalar t)
  /-- An array of known elements. -/
  | array {element : String} {t : ScalarType} (written : t.Written (Text.trim element)) :
      Written (element ++ "[]") (.array (some t))
  /-- An array of unknown elements. -/
  | unknown : Written "unknown[]" (.array none)

/-- A text without brackets at its end is that of a scalar type. -/
theorem isSuffixOf?_eq_none (h : ¬ "[]".toList <:+ s.toList) :
    "[]".toList.isSuffixOf? s.toList = none :=
  Option.eq_none_iff_forall_ne_some.mpr
    (fun front hfront => h ⟨front, List.isSuffixOf?_eq_some_iff_append_eq.mp hfront⟩)

theorem isSuffixOf?_append (element : String) :
    "[]".toList.isSuffixOf? (element ++ "[]").toList = some element.toList :=
  List.isSuffixOf?_eq_some_iff_append_eq.mpr String.toList_append.symm

/-- **The field types are read** from what is written for them, with blanks around it or none,
and from nothing else. -/
theorem parse_eq_ok_iff : parse s = .ok t ↔ Written (Text.trim s) t := by
  rw [parse]
  generalize Text.trim s = s
  refine ⟨fun h => ?_, fun h => ?_⟩
  · split at h
    case h_1 hnone =>
      cases hscalar : ScalarType.parse s with
      | error e =>
        rw [hscalar] at h
        cases h
      | ok scalar =>
        rw [hscalar] at h
        cases h
        refine .scalar (ScalarType.parse_eq_ok_iff.mp hscalar) (fun hbrackets => ?_)
        obtain ⟨front, hfront⟩ := hbrackets
        rw [List.isSuffixOf?_eq_some_iff_append_eq.mpr hfront] at hnone
        cases hnone
    case h_2 element helement =>
      have hs : s = String.ofList element ++ "[]" := by
        rw [← String.toList_inj, String.toList_append, String.toList_ofList]
        exact (List.isSuffixOf?_eq_some_iff_append_eq.mp helement).symm
      subst hs
      split at h
      case isTrue hunknown =>
        cases h
        rw [hunknown]
        exact .unknown
      case isFalse =>
        split at h
        case h_1 scalar hscalar =>
          cases h
          rw [← Text.trim_ofList] at hscalar
          exact .array (ScalarType.parse_eq_ok_iff.mp hscalar)
        case h_2 => cases h
  · cases h with
    | scalar written noBrackets =>
      rw [isSuffixOf?_eq_none noBrackets, ScalarType.parse_eq_ok_iff.mpr written]
      rfl
    | @array element scalar written =>
      have hne : element.toList ≠ "unknown".toList := by
        intro hunknown
        obtain rfl := String.toList_inj.mp hunknown
        have hscalar := ScalarType.parse_eq_ok_iff.mpr written
        cases hscalar
      rw [isSuffixOf?_append]
      dsimp only
      rw [if_neg hne]
      have htrim : String.ofList (Text.trimChars element.toList) = Text.trim element := rfl
      rw [htrim, ScalarType.parse_eq_ok_iff.mpr written]
    | unknown => rfl

/-- Brackets behind a text without blanks around it have none around them. -/
theorem isTrimmed_brackets (h : Text.IsTrimmed s.toList) :
    Text.IsTrimmed (s ++ "[]").toList := by
  rw [String.toList_append]
  refine h.append ⟨fun c hc => ?_, fun c hc => ?_⟩
  · cases hc
    rfl
  · cases hc
    rfl

/-- **What is read is the type of its own text**, which has no blanks around it. -/
theorem Written.text (h : Written s t) (hs : Text.IsTrimmed s.toList) :
    Written t.text t ∧ Text.trim t.text = t.text := by
  cases h with
  | scalar written noBrackets =>
    obtain ⟨htrimmed, hbrackets⟩ := written.isTrimmed_text hs
    exact ⟨.scalar written.text (fun h => noBrackets (hbrackets h)), htrimmed.trim_eq⟩
  | @array element scalar written =>
    have htrimmed := (written.isTrimmed_text (Text.isTrimmed_trim element)).1
    refine ⟨.array ?_, (isTrimmed_brackets htrimmed).trim_eq⟩
    rw [htrimmed.trim_eq]
    exact written.text
  | unknown => exact ⟨.unknown, rfl⟩

/-- **Types are read back from their written forms.** Whatever text was read as a field type, the
text of that type is read as the same type, and so it is for scalar types. -/
theorem parse_text_of_parse (s : String) :
    (∀ t, FieldType.parse s = .ok t → FieldType.parse t.text = .ok t)
      ∧ ∀ t, ScalarType.parse s = .ok t → ScalarType.parse t.text = .ok t := by
  refine ⟨fun t h => ?_, fun t h => ?_⟩
  · obtain ⟨hwritten, htrim⟩ := (parse_eq_ok_iff.mp h).text (Text.isTrimmed_trim s)
    rw [parse_eq_ok_iff, htrim]
    exact hwritten
  · exact ScalarType.parse_eq_ok_iff.mpr (ScalarType.parse_eq_ok_iff.mp h).text

/-- Brackets within a name are read back, and so is a name that is nothing but brackets. -/
theorem parse_text_of_parse_brackets :
    (FieldType.parse "\u3000enum  a[] b [] \n" = .ok (.array (some (.enumeration "a[] b")))
        ∧ FieldType.parse (FieldType.array (some (.enumeration "a[] b"))).text
          = .ok (.array (some (.enumeration "a[] b"))))
      ∧ ScalarType.parse "annotation-field  []" = .ok (.nested "[]")
        ∧ ScalarType.parse (ScalarType.nested "[]").text = .ok (.nested "[]") := by
  have hfield : FieldType.parse "\u3000enum  a[] b [] \n"
      = .ok (.array (some (.enumeration "a[] b"))) := by decide +kernel
  have hscalar : ScalarType.parse "annotation-field  []" = .ok (.nested "[]") := by
    decide +kernel
  exact ⟨⟨hfield, (parse_text_of_parse _).1 _ hfield⟩, hscalar,
    (parse_text_of_parse _).2 _ hscalar⟩

end FieldType

end AnnotationPlan
