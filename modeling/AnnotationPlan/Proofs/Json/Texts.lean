import AnnotationPlan.Json.Document
import AnnotationPlan.Proofs.Location.Reads
import AnnotationPlan.Json.Source
import Mathlib.Tactic.IntervalCases

/-!
# Texts and numbers in JSON

A text is written with escapes (`Json.spell`), and what a reader finds between the quotes
is this spelling, whatever comes behind them. The spelling stands for the text again: the
short escapes by a table, and the control characters without one by their number, which is
far below the surrogates, so that two of them in a row are not taken for one character.

A natural number is written in digits, and read back if what comes next does not continue
a number (`Source.continues`).
-/

namespace AnnotationPlan

namespace Source

/-! ## Hexadecimal numerals -/

theorem hexValue?_digitChar : ∀ d < 16, hexValue? d.digitChar = some d := by decide

/-- **A hexadecimal numeral with leading zeros** is the numeral of all but the last digit, and
this digit. -/
theorem leftpad_toDigits_succ (k n : Nat) : List.leftpad (k + 2) '0' (Nat.toDigits 16 n)
    = List.leftpad (k + 1) '0' (Nat.toDigits 16 (n / 16)) ++ [(n % 16).digitChar] := by
  rcases Nat.lt_or_ge n 16 with h | h
  · rw [Nat.toDigits_of_lt_base h, Nat.div_eq_of_lt h, Nat.mod_eq_of_lt h, Nat.toDigits_zero]
    simp [List.leftpad, List.replicate_succ']
  · rw [Nat.toDigits_of_base_le (by decide) h]
    simp [List.leftpad]

/-- **A number of 16 bits** is written in four digits, which have it as their value. -/
theorem leftpad_toDigits {n : Nat} (hn : n < 0x10000) :
    ∃ a b c d, List.leftpad 4 '0' (Nat.toDigits 16 n) = [a, b, c, d] ∧ unit? a b c d = some n := by
  have hfirst : n / 16 / 16 / 16 < 16 := by omega
  have hdigit : ∀ m : Nat, hexValue? (m % 16).digitChar = some (m % 16) := fun m =>
    hexValue?_digitChar _ (Nat.mod_lt m (by decide))
  have hpad : List.leftpad 4 '0' (Nat.toDigits 16 n)
      = [(n / 16 / 16 / 16).digitChar, (n / 16 / 16 % 16).digitChar, (n / 16 % 16).digitChar,
        (n % 16).digitChar] := by
    rw [leftpad_toDigits_succ, leftpad_toDigits_succ, leftpad_toDigits_succ,
      Nat.toDigits_of_lt_base hfirst]
    rfl
  refine ⟨_, _, _, _, hpad, ?_⟩
  simp only [unit?, hdigit, hexValue?_digitChar _ hfirst, Option.bind_eq_bind, Option.bind_some,
    Option.pure_def, Option.some.injEq]
  omega

/-- Four digits that have a value are digits, all of them. -/
theorem isSome_hexValue?_of_unit? {a b c d : Char} {n : Nat} (h : unit? a b c d = some n) :
    ∀ e ∈ [a, b, c, d], (hexValue? e).isSome = true := by
  obtain ⟨_, ha, h⟩ := Option.bind_eq_some_iff.mp h
  obtain ⟨_, hb, h⟩ := Option.bind_eq_some_iff.mp h
  obtain ⟨_, hc, h⟩ := Option.bind_eq_some_iff.mp h
  obtain ⟨_, hd, h⟩ := Option.bind_eq_some_iff.mp h
  simp [ha, hb, hc, hd]

end Source

namespace Json

/-! ## Spelling -/

/-- **How a text is spelled** between its quotes. -/
def spell (s : String) : List Char := s.toList.flatMap escape

@[simp] theorem toList_quote (s : String) : (quote s).toList = '"' :: (spell s ++ ['"']) :=
  String.toList_ofList

/-- **The four ways to write a character**: by a letter, by its number, or as it is. -/
theorem escape_cases (c : Char) :
    (∃ e, escape c = ['\\', e] ∧ e ≠ 'u' ∧ Source.letterEscapes.lookup e = some c)
    ∨ (∃ x y z w, escape c = ['\\', 'u', x, y, z, w] ∧ Source.unit? x y z w = some c.toNat
        ∧ c.toNat < 0x20)
    ∨ (escape c = [c] ∧ c ≠ '"' ∧ c ≠ '\\' ∧ ¬ c.toNat < 0x20) := by
  unfold escape
  by_cases hletter : c = '"' ∨ c = '\\' ∨ c = '\x08' ∨ c = '\x0c' ∨ c = '\n' ∨ c = '\r' ∨ c = '\t'
  · left
    obtain rfl | rfl | rfl | rfl | rfl | rfl | rfl := hletter
    all_goals exact ⟨_, rfl, by decide, by decide⟩
  · right
    simp only [not_or] at hletter
    obtain ⟨hquote, hback, hb, hf, hn, hr, ht⟩ := hletter
    rw [if_neg hquote, if_neg hback, if_neg hb, if_neg hf, if_neg hn, if_neg hr, if_neg ht]
    by_cases hlow : c.toNat < 0x20
    · obtain ⟨x, y, z, w, hpad, hunit⟩ :=
        Source.leftpad_toDigits (Nat.lt_trans hlow (by decide))
      rw [if_pos hlow, hpad]
      exact .inl ⟨x, y, z, w, rfl, hunit, hlow⟩
    · rw [if_neg hlow]
      exact .inr ⟨rfl, hquote, hback, hlow⟩

end Json

namespace Source

/-! ## Texts -/

/-- What is not in the middle of a text: a quote, a backslash, a control character. -/
theorem readText?_plain {c : Char} (hquote : c ≠ '"') (hback : c ≠ '\\')
    (hlow : ¬ c.toNat < 0x20) (cs : List Char) :
    readText? (c :: cs) = (readText? cs).map (fun r => (c :: r.1, r.2)) := by
  rw [readText?.eq_def]
  split <;> grind

theorem readText?_unit {a b c d : Char} {n : Nat} (h : unit? a b c d = some n) (cs : List Char) :
    readText? ('\\' :: 'u' :: a :: b :: c :: d :: cs)
      = (readText? cs).map (fun r => ('\\' :: 'u' :: a :: b :: c :: d :: r.1, r.2)) := by
  rw [readText?, h]
  rfl

theorem readText?_letter {e c : Char} (hu : e ≠ 'u') (h : letterEscapes.lookup e = some c)
    (cs : List Char) :
    readText? ('\\' :: e :: cs) = (readText? cs).map (fun r => ('\\' :: e :: r.1, r.2)) := by
  rw [readText?.eq_def]
  split <;> grind

/-- **What is spelled between quotes** is found there. -/
theorem readText?_spelled (cs rest : List Char) :
    readText? (cs.flatMap Json.escape ++ '"' :: rest) = some (cs.flatMap Json.escape, rest) := by
  induction cs with
  | nil => rw [List.flatMap_nil, List.nil_append, readText?]
  | cons c cs ih =>
    rw [List.flatMap_cons, List.append_assoc]
    obtain ⟨e, hescape, hu, hlookup⟩ | ⟨x, y, z, w, hescape, hunit, -⟩
      | ⟨hescape, hquote, hback, hlow⟩ := Json.escape_cases c
    · rw [hescape]
      show readText? ('\\' :: e :: (_ ++ _)) = _
      rw [List.nil_append, readText?_letter hu hlookup, ih]
      rfl
    · rw [hescape]
      show readText? ('\\' :: 'u' :: x :: y :: z :: w :: (_ ++ _)) = _
      rw [List.nil_append, readText?_unit hunit, ih]
      rfl
    · rw [hescape]
      show readText? (c :: (_ ++ _)) = _
      rw [List.nil_append, readText?_plain hquote hback hlow, ih]
      rfl

theorem readText?_spell (s : String) (rest : List Char) :
    readText? (Json.spell s ++ '"' :: rest) = some (Json.spell s, rest) :=
  readText?_spelled s.toList rest

theorem unescape?_plain {c : Char} (hback : c ≠ '\\') (cs : List Char) :
    unescape? (c :: cs) = (unescape? cs).map (c :: ·) := by
  rw [unescape?.eq_def]
  split <;> grind

/-- A character below the surrogates stands for itself, whatever comes next. -/
theorem unescape?_unit {a b c d : Char} {n : Nat} (h : unit? a b c d = some n) (hn : n < 0xD800)
    (cs : List Char) :
    unescape? ('\\' :: 'u' :: a :: b :: c :: d :: cs)
      = (unescape? cs).map (Char.ofNat n :: ·) := by
  have hhigh : ¬ (0xD800 ≤ n ∧ n < 0xDC00) := by omega
  have hlow : ¬ (0xDC00 ≤ n ∧ n < 0xE000) := by omega
  have hpair : ¬ (0xD800 ≤ n ∧ n < 0xE000) := by omega
  rw [unescape?.eq_def]
  split
  case h_1 hempty => cases hempty
  case h_2 a' b' c' d' rest heq =>
    -- another such escape follows; if it is none, neither of the two is read
    simp only [List.cons.injEq] at heq
    obtain ⟨-, -, rfl, rfl, rfl, rfl, rfl⟩ := heq
    rw [h]
    cases hnext : unit? a' b' c' d' with
    | none =>
      have hnone : unescape? ('\\' :: 'u' :: a' :: b' :: c' :: d' :: rest) = none := by
        rw [unescape?.eq_def]
        split <;> grind
      rw [hnone]
      rfl
    | some m =>
      dsimp only
      rw [if_neg hhigh, if_neg hlow]
  case h_3 heq =>
    simp only [List.cons.injEq] at heq
    obtain ⟨-, -, rfl, rfl, rfl, rfl, rfl⟩ := heq
    rw [h]
    dsimp only
    rw [if_neg hpair]
  case h_4 hno heq =>
    simp only [List.cons.injEq] at heq
    obtain ⟨-, rfl, rfl⟩ := heq
    exact absurd rfl (hno _ _ _ _ _ rfl)
  case h_5 hno heq =>
    simp only [List.cons.injEq] at heq
    obtain ⟨rfl, rfl⟩ := heq
    exact absurd rfl (hno _ _ rfl)

theorem unescape?_letter {e c : Char} (hu : e ≠ 'u') (h : letterEscapes.lookup e = some c)
    (cs : List Char) : unescape? ('\\' :: e :: cs) = (unescape? cs).map (c :: ·) := by
  rw [unescape?.eq_def]
  split <;> grind

/-- **The spelling of characters stands for them.** -/
theorem unescape?_spelled (cs : List Char) :
    unescape? (cs.flatMap Json.escape) = some cs := by
  induction cs with
  | nil => rw [List.flatMap_nil, unescape?]
  | cons c cs ih =>
    rw [List.flatMap_cons]
    obtain ⟨e, hescape, hu, hlookup⟩ | ⟨x, y, z, w, hescape, hunit, hlow⟩
      | ⟨hescape, -, hback, -⟩ := Json.escape_cases c
    · rw [hescape]
      show unescape? ('\\' :: e :: ([] ++ _)) = _
      rw [List.nil_append, unescape?_letter hu hlookup, ih]
      rfl
    · rw [hescape]
      show unescape? ('\\' :: 'u' :: x :: y :: z :: w :: ([] ++ _)) = _
      rw [List.nil_append, unescape?_unit hunit (by omega), ih, Char.ofNat_toNat]
      rfl
    · rw [hescape]
      show unescape? (c :: ([] ++ _)) = _
      rw [List.nil_append, unescape?_plain hback, ih]
      rfl

@[simp] theorem unescape?_spell (s : String) : unescape? (Json.spell s) = some s.toList :=
  unescape?_spelled s.toList

/-- **The spelling of a text stands for the text.** -/
@[simp] theorem text?_spell (s : String) : text? (Json.spell s) = some s := by
  rw [text?, unescape?_spell, Option.map_some, String.ofList_toList]

/-- Different texts are spelled differently. -/
theorem spell_injective {s t : String} (h : Json.spell s = Json.spell t) : s = t :=
  Option.some.inj ((text?_spell s).symm.trans ((congrArg text? h).trans (text?_spell t)))

/-! ## Numbers -/

/-- **The characters that may continue a number.** -/
def continues (c : Char) : Bool := c.isDigit || c == '.' || c == 'e' || c == 'E'

/-- A natural number has no fraction. -/
theorem readFraction?_of_stops {rest : List Char}
    (h : Location.Scan.Stops continues rest) : readFraction? rest = some ([], rest) := by
  unfold readFraction?
  split
  case h_1 => cases h '.' rfl
  case h_2 => rfl

/-- A natural number has no exponent. -/
theorem readExponent?_of_stops {rest : List Char}
    (h : Location.Scan.Stops continues rest) : readExponent? rest = some (none, rest) := by
  cases rest with
  | nil => rfl
  | cons c rest =>
    have hc := h c rfl
    have he : ¬ (c = 'e' ∨ c = 'E') := by
      rintro (rfl | rfl) <;> cases hc
    exact if_neg he

/-- A number that is not zero does not begin with a zero. -/
theorem head_toDigits {n : Nat} (hn : 0 < n) :
    Location.Scan.Stops (· == '0') (Nat.toDigits 10 n) := by
  induction n using Nat.strongRecOn with
  | ind n ih =>
    by_cases hlt : n < 10
    · rw [Nat.toDigits_of_lt_base hlt]
      interval_cases n
      all_goals exact .cons (by decide) []
    · rw [Nat.toDigits_of_base_le (by decide) (by omega)]
      exact (ih (n / 10) (by omega) (by omega)).append Nat.toDigits_ne_nil _

/-- The digits of a natural number are read back: it is zero, or begins with no zero. -/
theorem readWhole?_repr {n : Nat} {rest : List Char}
    (h : Location.Scan.Stops Char.isDigit rest) :
    readWhole? (n.repr.toList ++ rest) = some (n.repr.toList, rest) := by
  obtain ⟨htake, hdrop⟩ := h.takeWhile_append (Location.Scan.isDigit_of_mem_repr (n := n))
  have hdigits : readDigits? (n.repr.toList ++ rest) = some (n.repr.toList, rest) := by
    rw [readDigits?, htake, hdrop, if_neg (Location.Scan.repr_ne_nil n)]
  rw [readWhole?, hdigits]
  split
  case h_2 => rfl
  case h_1 d ds rest' heq =>
    have hrepr : Nat.toDigits 10 n = '0' :: d :: ds := by
      rw [← Nat.toList_repr]
      exact congrArg Prod.fst (Option.some.inj heq)
    obtain rfl | hpos := Nat.eq_zero_or_pos n
    · cases hrepr
    · have hhead := head_toDigits hpos '0' (by rw [hrepr]; rfl)
      cases hhead

/-- How a natural number is spelled. -/
def spelledNumber (n : Nat) : Numeral := ⟨false, n.repr.toList, [], none⟩

/-- **A natural number is read back**, if nothing behind it continues it. -/
theorem readNumber?_repr {n : Nat} {rest : List Char} (h : Location.Scan.Stops continues rest) :
    readNumber? (n.repr.toList ++ rest) = some (spelledNumber n, rest) := by
  have hdigit : ∀ c, continues c = false → c.isDigit = false := by
    intro c hc
    simp only [continues, Bool.or_eq_false_iff] at hc
    exact hc.1.1.1
  have hminus : ∀ ds, n.repr.toList ++ rest ≠ '-' :: ds := by
    intro ds heq
    cases hn : n.repr.toList with
    | nil => exact Location.Scan.repr_ne_nil n hn
    | cons c cs =>
      have hc := Location.Scan.isDigit_of_mem_repr (n := n) c (hn ▸ List.mem_cons_self)
      rw [hn] at heq
      obtain rfl : c = '-' := (List.cons.inj heq).1
      cases hc
  unfold readNumber?
  split
  rename_i hsign
  split at hsign
  case h_1 ds heq => exact absurd heq (hminus ds)
  case h_2 =>
    obtain ⟨rfl, rfl⟩ := Prod.mk.inj hsign
    rw [readWhole?_repr (h.mono hdigit)]
    show (readFraction? rest >>= fun r => _) = _
    rw [readFraction?_of_stops h]
    show (readExponent? rest >>= fun r => _) = _
    rw [readExponent?_of_stops h]
    rfl

end Source

end AnnotationPlan
