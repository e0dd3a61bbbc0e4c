import AnnotationPlan.Proofs.AnnotationUse.Literals

/-!
# Characters as literals

A field that takes a character takes a text of one character. What is written for it is that
character between single quotes, escaped like the characters of a text. But what a character
literal denotes is a single code unit, and a character above `U+FFFF` has two of them. Such a
text is taken as well, and what is written for it is no character literal; for all others it
is one, and it denotes the character (`Formatter.formatValue_char`).
-/

namespace AnnotationPlan

namespace JavaText

/-- **What a character literal denotes**, if source text is one: a single code unit, with
nothing behind the quote that closes it. -/
def charLiteral? (cs : List Char) : Option Nat :=
  match read? '\'' cs with
  | some ([n], []) => some n
  | _ => none

/-- Characters above `U+FFFF` have two code units. -/
theorem units_of_le {c : Char} (h : 0x10000 ≤ c.toNat) : ∃ high low, units c = [high, low] :=
  ⟨_, _, if_neg (Nat.not_lt.mpr h)⟩

/-- A character is a single code unit if it is that unit. -/
theorem units_eq_singleton {c : Char} {n : Nat} :
    units c = [n] ↔ c.toNat = n ∧ c.toNat < 0x10000 := by
  rcases Nat.lt_or_ge c.toNat 0x10000 with hlt | hge
  · rw [units_of_lt hlt, List.singleton_inj]
    exact (and_iff_left hlt).symm
  · obtain ⟨high, low, hunits⟩ := units_of_le hge
    rw [hunits]
    exact iff_of_false (fun h => by cases h) (fun h => Nat.not_lt.mpr hge h.2)

/-- A character has a code unit. -/
theorem units_ne_nil (c : Char) : units c ≠ [] := by
  unfold units
  split <;> exact List.cons_ne_nil _ _

/-- **A text with a single code unit** is a single character. -/
theorem flatMap_units_eq_singleton {cs : List Char} {n : Nat} :
    cs.flatMap units = [n] ↔ ∃ c, cs = [c] ∧ c.toNat = n ∧ c.toNat < 0x10000 := by
  constructor
  · intro h
    match cs, h with
    | [c], h =>
      rw [List.flatMap_singleton] at h
      exact ⟨c, rfl, units_eq_singleton.mp h⟩
    | c :: d :: rest, h =>
      rw [List.flatMap_cons, List.flatMap_cons, List.append_eq_singleton_iff] at h
      rcases h with ⟨hnil, -⟩ | ⟨-, hnil⟩
      · exact absurd hnil (units_ne_nil c)
      · exact absurd (List.append_eq_nil_iff.mp hnil).1 (units_ne_nil d)
  · rintro ⟨c, rfl, hc⟩
    rw [List.flatMap_singleton]
    exact units_eq_singleton.mpr hc

/-- **A text between single quotes** is read as its code units. -/
theorem read?_char (cs : List Char) :
    read? '\'' (Literal.quoted '\'' cs).toList = some (cs.flatMap units, []) := by
  rw [← List.append_nil (String.toList _), read?_quoted (.inr rfl), translate?]
  rfl

/-- **A character between single quotes** is a character literal if it is a single code unit. -/
theorem charLiteral?_quoted (c : Char) : charLiteral? (Literal.quoted '\'' [c]).toList
    = if c.toNat < 0x10000 then some c.toNat else none := by
  rw [charLiteral?, read?_char, List.flatMap_singleton]
  rcases Nat.lt_or_ge c.toNat 0x10000 with hlt | hge
  · rw [units_of_lt hlt, if_pos hlt]
  · obtain ⟨high, low, hunits⟩ := units_of_le hge
    rw [hunits, if_neg (Nat.not_lt.mpr hge)]

end JavaText

namespace Formatter

variable (f : Formatter) (site : FieldSite)

/-- **A text of one character** is taken by a field that takes a character. -/
theorem formatValue_char_of_eq {s : String} {c : Char} (h : s.toList = [c]) :
    f.formatValue site (.scalar .char) (.text s) = .ok ⟨Literal.quoted '\'' [c], []⟩ := by
  have hliteral : literal? .char (.text s) = some (Literal.quoted '\'' [c]) := by
    rw [literal?, h]
  show formatLiteral site .char (.text s) = _
  rw [formatLiteral, hliteral]

/-- **No other text fits.** -/
theorem formatValue_char_of_ne {s : String} (h : ∀ c, s.toList ≠ [c]) :
    f.formatValue site (.scalar .char) (.text s) = .error site.mismatch := by
  have hliteral : literal? .char (.text s) = none := by
    rw [literal?]
    split
    case h_1 c hc => exact absurd hc (h c)
    case h_2 => rfl
  show formatLiteral site .char (.text s) = _
  rw [formatLiteral, hliteral]

/-- What is written for a text is the character that it consists of. -/
theorem formatValue_char_ok_iff {s : String} {w : Formatted} :
    f.formatValue site (.scalar .char) (.text s) = .ok w
      ↔ ∃ c, s.toList = [c] ∧ w = ⟨Literal.quoted '\'' [c], []⟩ := by
  constructor
  · intro hw
    by_cases h : ∃ c, s.toList = [c]
    · obtain ⟨c, hc⟩ := h
      rw [formatValue_char_of_eq f site hc] at hw
      exact ⟨c, hc, (Except.ok.inj hw).symm⟩
    · rw [formatValue_char_of_ne f site (fun c hc => h ⟨c, hc⟩)] at hw
      cases hw
  · rintro ⟨c, hc, rfl⟩
    exact formatValue_char_of_eq f site hc

/-- **Characters as literals.** A text that is given for a field that takes a character is
taken if it has one character, and it does not fit otherwise. What is written is between
single quotes and on one line, and it is read as the code units of that character, with
nothing left behind it. So for the texts of a single code unit, and only for these, a character
literal is written, and it denotes that unit; what is written for a text of one character
above `U+FFFF` is no character literal. -/
theorem formatValue_char (s : String) :
    ((∃ c t, s.toList = [c]
          ∧ f.formatValue site (.scalar .char) (.text s) = .ok ⟨t, []⟩
          ∧ (∃ body, t.toList = '\'' :: (body ++ ['\'']))
          ∧ (∀ e ∈ t.toList, e ≠ '\n' ∧ e ≠ '\r')
          ∧ JavaText.read? '\'' t.toList = some (JavaText.units c, []))
        ∨ (∀ c, s.toList ≠ [c])
          ∧ f.formatValue site (.scalar .char) (.text s) = .error site.mismatch)
    ∧ (∀ n, (∃ w, f.formatValue site (.scalar .char) (.text s) = .ok w
            ∧ JavaText.charLiteral? w.text.toList = some n)
          ↔ s.toList.flatMap JavaText.units = [n])
    ∧ ((∃ w, f.formatValue site (.scalar .char) (.text s) = .ok w
            ∧ JavaText.charLiteral? w.text.toList = none)
          ↔ ∃ c, s.toList = [c] ∧ 0xFFFF < c.toNat) := by
  refine ⟨?_, fun n => ?_, ?_⟩
  · by_cases h : ∃ c, s.toList = [c]
    · obtain ⟨c, hc⟩ := h
      refine .inl ⟨c, Literal.quoted '\'' [c], hc, formatValue_char_of_eq f site hc,
        ⟨_, String.toList_ofList⟩, fun e => JavaText.ne_of_mem_quoted (.inr rfl), ?_⟩
      rw [JavaText.read?_char, List.flatMap_singleton]
    · have hne : ∀ c, s.toList ≠ [c] := fun c hc => h ⟨c, hc⟩
      exact .inr ⟨hne, formatValue_char_of_ne f site hne⟩
  · rw [JavaText.flatMap_units_eq_singleton]
    constructor
    · rintro ⟨w, hw, hn⟩
      obtain ⟨c, hc, rfl⟩ := (formatValue_char_ok_iff f site).mp hw
      rw [JavaText.charLiteral?_quoted] at hn
      split at hn
      case isTrue hlt => exact ⟨c, hc, Option.some.inj hn, hlt⟩
      case isFalse => cases hn
    · rintro ⟨c, hc, rfl, hlt⟩
      refine ⟨_, formatValue_char_of_eq f site hc, ?_⟩
      rw [JavaText.charLiteral?_quoted, if_pos hlt]
  · constructor
    · rintro ⟨w, hw, hn⟩
      obtain ⟨c, hc, rfl⟩ := (formatValue_char_ok_iff f site).mp hw
      rw [JavaText.charLiteral?_quoted, ite_eq_right_iff] at hn
      exact ⟨c, hc, Nat.not_le.mp (fun hle => by cases hn (Nat.lt_succ_of_le hle))⟩
    · rintro ⟨c, hc, hlt⟩
      refine ⟨_, formatValue_char_of_eq f site hc, ?_⟩
      rw [JavaText.charLiteral?_quoted, if_neg (Nat.not_lt.mpr hlt)]

/-- A character of two code units is taken, and what is written for it is no character
literal. -/
theorem surrogates_in_quotes :
    "😀".toList.flatMap JavaText.units = [0xD83D, 0xDE00]
    ∧ Formatter.format
          ⟨.ofList [{ name := "A", fields := .ofList [("value", .scalar .char)] }], ⟨[]⟩⟩
          ⟨"A", [("value", .text "😀")]⟩
        = .ok ⟨"@A('😀')", []⟩
    ∧ JavaText.read? '\'' "'😀'".toList = some ([0xD83D, 0xDE00], [])
    ∧ JavaText.charLiteral? "'😀'".toList = none := by
  have hquoted : "'😀'" = Literal.quoted '\'' ['😀'] := rfl
  refine ⟨rfl, rfl, ?_, ?_⟩
  · rw [hquoted, JavaText.read?_char]
    rfl
  · rw [hquoted, JavaText.charLiteral?_quoted]
    rfl

end Formatter

end AnnotationPlan
