import AnnotationPlan.AnnotationUse.Format
import AnnotationPlan.Proofs.Json.Texts

/-!
# Texts survive as literals

A text is written between quotes with some of its characters escaped. Whoever reads it back
does so in two passes. The first one goes through the source text as a whole and replaces
every Unicode escape by its code unit, where a backslash starts such an escape only if an even
number of backslashes stands right before it (`JavaText.translate?`). The second one reads the
code units up to the closing quote and knows the escape sequences of a backslash and another
unit (`JavaText.readBody?`). What is read are code units: a character above `U+FFFF` is two of
them.

The passes interfere with one another: an escape of the first pass may yield a quote or the end
of a line for the second one, and a backslash that is written as two of them may stand before a
letter `u`. Every character is nevertheless read back as it was, since whatever is written for
it leaves an even number of backslashes behind (`JavaText.readAt?_escape`). So a text is read
back unit by unit, up to the quote that closes it, whatever comes after it
(`JavaText.read?_quoted`), and nothing else has the same units
(`JavaText.units_injective`).
-/

namespace AnnotationPlan

namespace JavaText

/-! ## Code units -/

/-- **The code units of a character**: one of them, or two surrogates. -/
def units (c : Char) : List Nat :=
  if c.toNat < 0x10000 then [c.toNat]
  else [0xD800 + (c.toNat - 0x10000) / 0x400, 0xDC00 + (c.toNat - 0x10000) % 0x400]

theorem units_of_lt {c : Char} (h : c.toNat < 0x10000) : units c = [c.toNat] := if_pos h

/-- **The units of a character are told apart from what follows**, and identify it. -/
theorem units_append_inj {c d : Char} {us vs : List Nat} (h : units c ++ us = units d ++ vs) :
    c = d ∧ us = vs := by
  have hc : c.toNat < 0xD800 ∨ 0xDFFF < c.toNat ∧ c.toNat < 0x110000 := c.valid
  have hd : d.toNat < 0xD800 ∨ 0xDFFF < d.toNat ∧ d.toNat < 0x110000 := d.valid
  unfold units at h
  split at h <;> split at h <;>
    simp only [List.cons_append, List.nil_append, List.cons.injEq] at h
  · exact ⟨Char.toNat_inj.mp h.1, h.2⟩
  · omega
  · omega
  · exact ⟨Char.toNat_inj.mp (by omega), h.2.2⟩

/-- **Texts with the same code units** are the same. -/
theorem units_injective : ∀ {cs ds : List Char}, cs.flatMap units = ds.flatMap units → cs = ds
  | [], [], _ => rfl
  | [], d :: _, h | d :: _, [], h => by
    rw [List.flatMap_cons, List.flatMap_nil] at h
    unfold units at h
    split at h <;> cases h
  | c :: cs, d :: ds, h => by
    obtain ⟨rfl, hrest⟩ := units_append_inj h
    rw [units_injective hrest]

/-! ## Unicode escapes -/

/-- What follows the backslash of a Unicode escape: letters `u`, one at least, and four
hexadecimal digits. The answer is the code unit and what comes after it. -/
def escapedUnit? : List Char → Option (Nat × List Char)
  | 'u' :: 'u' :: rest => escapedUnit? ('u' :: rest)
  | 'u' :: a :: b :: c :: d :: rest => (Source.unit? a b c d).map (·, rest)
  | _ => none

theorem length_of_escapedUnit? {cs : List Char} {r : Nat × List Char}
    (h : escapedUnit? cs = some r) : r.2.length < cs.length := by
  fun_induction escapedUnit? cs with
  | case1 rest ih => exact Nat.lt_succ_of_lt (ih h)
  | case2 a b c d rest =>
    obtain ⟨_, -, rfl⟩ := Option.map_eq_some_iff.mp h
    simp only [List.length_cons]
    omega
  | case3 => cases h

/-- **The code units of source text**, after as many backslashes. A backslash with an even number
of backslashes right before it and the letter `u` right after it starts a Unicode escape, which
has to be complete; everything else stands for itself. -/
def translate? : Nat → List Char → Option (List Nat)
  | _, [] => some []
  | backslashes, c :: rest =>
    if c = '\\' then
      if backslashes % 2 = 0 ∧ rest.head? = some 'u' then
        match _hunit : escapedUnit? rest with
        | some (n, rest') => (translate? 0 rest').map (n :: ·)
        | none => none
      else (translate? (backslashes + 1) rest).map (c.toNat :: ·)
    else (translate? 0 rest).map (units c ++ ·)
termination_by _ cs => cs.length
decreasing_by
  · exact Nat.lt_succ_of_lt (length_of_escapedUnit? _hunit)
  · exact Nat.lt_succ_self _
  · exact Nat.lt_succ_self _

variable {n : Nat}

theorem translate?_plain {c : Char} (hc : c ≠ '\\') (rest : List Char) :
    translate? n (c :: rest) = (translate? 0 rest).map (units c ++ ·) := by
  rw [translate?, if_neg hc]

/-- A backslash and what it escapes, if it is no Unicode escape. -/
theorem translate?_letter (hn : n % 2 = 0) {e : Char} (hu : e ≠ 'u') (he : e.toNat < 0x10000)
    (rest : List Char) :
    translate? n ('\\' :: e :: rest)
      = (translate? (if e = '\\' then n + 2 else 0) rest).map
          (fun us => '\\'.toNat :: e.toNat :: us) := by
  rw [translate?, if_pos rfl, if_neg (by simpa using fun _ => hu), translate?]
  split
  case isTrue h =>
    rw [if_neg (by omega), Option.map_map]
    rfl
  case isFalse =>
    rw [units_of_lt he, Option.map_map]
    rfl

/-- A Unicode escape. -/
theorem translate?_escape (hn : n % 2 = 0) {x y z w : Char} {m : Nat}
    (hm : Source.unit? x y z w = some m) (rest : List Char) :
    translate? n ('\\' :: 'u' :: x :: y :: z :: w :: rest) = (translate? 0 rest).map (m :: ·) := by
  have hx : x ≠ 'u' := by
    rintro rfl
    cases Source.isSome_hexValue?_of_unit? hm 'u' List.mem_cons_self
  have hunit : escapedUnit? ('u' :: x :: y :: z :: w :: rest) = some (m, rest) := by
    rw [escapedUnit?.eq_def]
    split
    case h_1 heq =>
      simp only [List.cons.injEq] at heq
      exact absurd heq.2.1 hx
    case h_2 heq =>
      simp only [List.cons.injEq] at heq
      obtain ⟨-, rfl, rfl, rfl, rfl, rfl⟩ := heq
      rw [hm]
      rfl
    case h_3 hno => exact absurd rfl (hno _ _ _ _ _)
  rw [translate?, if_pos rfl, if_pos ⟨hn, rfl⟩]
  split
  case h_1 heq =>
    rw [hunit] at heq
    cases heq
    rfl
  case h_2 heq =>
    rw [hunit] at heq
    cases heq

/-! ## Escape sequences -/

/-- The escape sequences of a backslash and another unit. There are further ones, which are never
written and not read here. -/
def letterEscapes : List (Nat × Nat) :=
  [('\\', '\\'), ('n', '\n'), ('t', '\t'), ('r', '\r'), ('b', '\x08'), ('f', '\x0c'),
    ('"', '"'), ('\'', '\'')].map (fun e => (e.1.toNat, e.2.toNat))

/-- **What follows an opening quote**: the units up to the closing quote with their escape
sequences replaced, and the units after it. The end of a line is no part of a literal. -/
def readBody? (quote : Nat) : List Nat → Option (List Nat × List Nat)
  | [] => none
  | u :: rest =>
    if u = quote then some ([], rest)
    else if u = '\\'.toNat then
      match rest with
      | [] => none
      | e :: rest' => do
        let value ← letterEscapes.lookup e
        let r ← readBody? quote rest'
        pure (value :: r.1, r.2)
    else if u = '\n'.toNat ∨ u = '\r'.toNat then none
    else (readBody? quote rest).map (fun r => (u :: r.1, r.2))

/-- **What follows an opening quote in source text**, after as many backslashes. -/
def readAt? (quote : Char) (backslashes : Nat) (cs : List Char) : Option (List Nat × List Nat) :=
  (translate? backslashes cs).bind (readBody? quote.toNat)

/-- **What a literal in source text stands for**, as code units, and the units after it. -/
def read? (quote : Char) (cs : List Char) : Option (List Nat × List Nat) :=
  (translate? 0 cs).bind fun us =>
    match us with
    | [] => none
    | u :: rest => if u = quote.toNat then readBody? quote.toNat rest else none

/-! ## Reading back what is written -/

/-- The quotes of texts and of characters. -/
def IsQuote (quote : Char) : Prop := quote = '"' ∨ quote = '\''

theorem IsQuote.ne_backslash {quote : Char} (h : IsQuote quote) : quote ≠ '\\' := by
  rcases h with rfl | rfl <;> decide

theorem IsQuote.ne_line {quote : Char} (h : IsQuote quote) : quote ≠ '\n' ∧ quote ≠ '\r' := by
  rcases h with rfl | rfl <;> decide

theorem IsQuote.toNat_lt {quote : Char} (h : IsQuote quote) : quote.toNat < 0x80 := by
  rcases h with rfl | rfl <;> decide

theorem IsQuote.units_eq {quote : Char} (h : IsQuote quote) : units quote = [quote.toNat] :=
  units_of_lt (Nat.lt_trans h.toNat_lt (by decide))

/-- A character that may stand between quotes as it is. -/
structure Unescaped (quote c : Char) : Prop where
  ne_quote : c ≠ quote
  ne_backslash : c ≠ '\\'
  ne_newline : c ≠ '\n'
  ne_return : c ≠ '\r'

/-- A unit that may stand between quotes as it is. -/
theorem readBody?_cons {q u : Nat} (hq : u ≠ q) (hback : u ≠ '\\'.toNat)
    (hline : ¬ (u = '\n'.toNat ∨ u = '\r'.toNat)) (us : List Nat) :
    readBody? q (u :: us) = (readBody? q us).map (fun r => (u :: r.1, r.2)) := by
  rw [readBody?.eq_def]
  dsimp only
  rw [if_neg hq, if_neg hback, if_neg hline]

/-- An escape sequence. -/
theorem readBody?_letter {q e value : Nat} (hq : q ≠ '\\'.toNat)
    (he : letterEscapes.lookup e = some value) (us : List Nat) :
    readBody? q ('\\'.toNat :: e :: us) = (readBody? q us).map (fun r => (value :: r.1, r.2)) := by
  rw [readBody?, if_neg hq.symm, if_pos rfl, he]
  cases readBody? q us <;> rfl

section Quotes

variable {quote : Char} (hquote : IsQuote quote)
include hquote

/-- The units of a character that is not escaped. -/
theorem readBody?_units {c : Char} (hc : Unescaped quote c) (us : List Nat) :
    readBody? quote.toNat (units c ++ us)
      = (readBody? quote.toNat us).map (fun r => (units c ++ r.1, r.2)) := by
  have hq := hquote.toNat_lt
  have hne : ∀ {d : Char}, c ≠ d → c.toNat ≠ d.toNat := fun h e => h (Char.toNat_inj.mp e)
  unfold units
  split
  case isTrue =>
    rw [List.singleton_append, readBody?_cons (hne hc.ne_quote) (hne hc.ne_backslash)
      (not_or.mpr ⟨hne hc.ne_newline, hne hc.ne_return⟩)]
    rfl
  case isFalse =>
    have hlow : '\\'.toNat < 0x80 ∧ '\n'.toNat < 0x80 ∧ '\r'.toNat < 0x80 := by decide
    have hhigh : ∀ {u : Nat} (us : List Nat), 0xD800 ≤ u → readBody? quote.toNat (u :: us)
        = (readBody? quote.toNat us).map (fun r => (u :: r.1, r.2)) := fun us hu =>
      readBody?_cons (by omega) (by omega) (by omega) us
    rw [List.cons_append, hhigh _ (by omega), List.singleton_append, hhigh _ (by omega),
      Option.map_map]
    rfl

/-- **The three ways to write a character** between quotes: by a letter, by its number, or as
it is. -/
theorem escape_cases (c : Char) :
    (∃ e, Literal.escape quote c = ['\\', e] ∧ e ≠ 'u' ∧ e ≠ '\n' ∧ e ≠ '\r'
        ∧ letterEscapes.lookup e.toNat = some c.toNat ∧ e.toNat < 0x10000 ∧ c.toNat < 0x10000)
    ∨ (∃ x y z w, Literal.escape quote c = ['\\', 'u', x, y, z, w]
        ∧ Source.unit? x y z w = some c.toNat ∧ c.toNat < 0x10000 ∧ Unescaped quote c)
    ∨ (Literal.escape quote c = [c] ∧ Unescaped quote c) := by
  by_cases hletter : c = '\\' ∨ c = '\n' ∨ c = '\t' ∨ c = '\r' ∨ c = '\x08' ∨ c = '\x0c'
      ∨ c = quote
  · left
    rcases hquote with rfl | rfl <;> obtain rfl | rfl | rfl | rfl | rfl | rfl | rfl := hletter
    all_goals exact ⟨_, rfl, by decide, by decide, by decide, by decide, by decide, by decide⟩
  · right
    simp only [not_or] at hletter
    obtain ⟨hback, hn, ht, hr, hb, hf, hq⟩ := hletter
    have hc : Unescaped quote c := ⟨hq, hback, hn, hr⟩
    unfold Literal.escape
    rw [if_neg hback, if_neg hn, if_neg ht, if_neg hr, if_neg hb, if_neg hf, if_neg hq]
    split
    case isTrue hcontrol =>
      have hlt : c.toNat < 0x10000 := by
        simp only [Literal.isControl, Bool.or_eq_true, Bool.and_eq_true, decide_eq_true_eq]
          at hcontrol
        omega
      obtain ⟨x, y, z, w, hpad, hunit⟩ := Source.leftpad_toDigits hlt
      rw [hpad]
      exact .inl ⟨x, y, z, w, rfl, hunit, hlt, hc⟩
    case isFalse => exact .inr ⟨rfl, hc⟩

/-- **Whatever is written for a character** is read back as its units, and leaves an even number
of backslashes behind. -/
theorem readAt?_escape (c : Char) {n : Nat} (hn : n % 2 = 0) : ∃ m, m % 2 = 0 ∧ ∀ rest,
    readAt? quote n (Literal.escape quote c ++ rest)
      = (readAt? quote m rest).map (fun r => (units c ++ r.1, r.2)) := by
  have hbackslash : quote.toNat ≠ '\\'.toNat := fun h => hquote.ne_backslash (Char.toNat_inj.mp h)
  obtain ⟨e, hescape, hu, -, -, hlookup, he, hlt⟩ | ⟨x, y, z, w, hescape, hunit, hlt, hc⟩
    | ⟨hescape, hc⟩ := escape_cases hquote c
  · refine ⟨if e = '\\' then n + 2 else 0, by split <;> omega, fun rest => ?_⟩
    rw [hescape]
    show readAt? quote n ('\\' :: e :: rest) = _
    unfold readAt?
    rw [translate?_letter hn hu he, units_of_lt hlt, Option.bind_map, Option.map_bind]
    exact congrArg _ (funext (readBody?_letter hbackslash hlookup))
  · refine ⟨0, rfl, fun rest => ?_⟩
    rw [hescape]
    show readAt? quote n ('\\' :: 'u' :: x :: y :: z :: w :: rest) = _
    unfold readAt?
    rw [translate?_escape hn hunit, Option.bind_map, Option.map_bind]
    refine congrArg _ (funext (fun us => ?_))
    show readBody? quote.toNat ([c.toNat] ++ us) = _
    rw [← units_of_lt hlt]
    exact readBody?_units hquote hc us
  · refine ⟨0, rfl, fun rest => ?_⟩
    rw [hescape, List.singleton_append]
    unfold readAt?
    rw [translate?_plain hc.ne_backslash, Option.bind_map, Option.map_bind]
    exact congrArg _ (funext (readBody?_units hquote hc))

/-- **A text between quotes is read back**, up to the closing quote. -/
theorem readAt?_body (more : List Char) : ∀ (cs : List Char) {n : Nat}, n % 2 = 0 →
    readAt? quote n (cs.flatMap (Literal.escape quote) ++ quote :: more)
      = (translate? 0 more).map (fun us => (cs.flatMap units, us))
  | [], n, _ => by
    rw [List.flatMap_nil, List.nil_append, readAt?, translate?_plain hquote.ne_backslash,
      hquote.units_eq, Option.bind_map]
    cases translate? 0 more with
    | none => rfl
    | some us =>
      show readBody? quote.toNat (quote.toNat :: us) = _
      rw [readBody?.eq_def]
      exact if_pos rfl
  | c :: cs, n, hn => by
    obtain ⟨m, hm, hread⟩ := readAt?_escape hquote c hn
    rw [List.flatMap_cons, List.append_assoc, hread, readAt?_body more cs hm, Option.map_map]
    rfl

/-- **A text between quotes** is read as its units, up to the quote that closes it. -/
theorem read?_quoted (cs more : List Char) :
    read? quote ((Literal.quoted quote cs).toList ++ more)
      = (translate? 0 more).map (fun us => (cs.flatMap units, us)) := by
  rw [Literal.quoted, String.toList_ofList, List.cons_append, List.append_assoc,
    List.singleton_append, ← readAt?_body hquote more cs (n := 0) rfl, read?,
    translate?_plain hquote.ne_backslash, hquote.units_eq, Option.bind_map]
  exact congrArg _ (funext (fun _ => if_pos rfl))

/-- Three backslashes in a row, the last one of which starts a Unicode escape. -/
example : Literal.quoted '"' ['\\', '\x01'] = "\"\\\\\\u0001\""
    ∧ read? '"' "\"\\\\\\u0001\"".toList = some ([0x5C, 0x01], []) := by
  constructor <;> cbv

/-- No line ends between quotes. -/
theorem ne_of_mem_escape {c e : Char} (he : e ∈ Literal.escape quote c) : e ≠ '\n' ∧ e ≠ '\r' := by
  obtain ⟨e', hescape, -, hn, hr, -⟩ | ⟨x, y, z, w, hescape, hunit, -⟩ | ⟨hescape, hc⟩ :=
    escape_cases hquote c
  · rw [hescape, List.mem_cons, List.mem_singleton] at he
    rcases he with rfl | rfl
    · decide
    · exact ⟨hn, hr⟩
  · rw [hescape, List.mem_cons, List.mem_cons] at he
    rcases he with rfl | rfl | he
    · decide
    · decide
    · have hdigit := Source.isSome_hexValue?_of_unit? hunit e he
      constructor <;> rintro rfl <;> cases hdigit
  · rw [hescape] at he
    exact List.mem_singleton.mp he ▸ ⟨hc.ne_newline, hc.ne_return⟩

/-- A text between quotes is on one line. -/
theorem ne_of_mem_quoted {cs : List Char} {e : Char}
    (he : e ∈ (Literal.quoted quote cs).toList) : e ≠ '\n' ∧ e ≠ '\r' := by
  rw [Literal.quoted, String.toList_ofList, List.mem_cons, List.mem_append,
    List.mem_singleton] at he
  rcases he with rfl | he | rfl
  · exact hquote.ne_line
  · obtain ⟨c, -, hc⟩ := List.mem_flatMap.mp he
    exact ne_of_mem_escape hquote hc
  · exact hquote.ne_line

end Quotes

end JavaText

/-- **Texts survive as literals.** Whatever text is given for a field that takes texts, it is
written between double quotes and on one line. Read back, it is a literal that ends with its
last character, also if something comes after it, and denotes the code units of the text, which
are those of no other text. -/
theorem Formatter.formatValue_string (s : String) :
    ∃ t : String,
      (∀ (f : Formatter) site, f.formatValue site (.scalar .string) (.text s) = .ok ⟨t, []⟩)
      ∧ (∃ body, t.toList = '"' :: (body ++ ['"']))
      ∧ (∀ c ∈ t.toList, c ≠ '\n' ∧ c ≠ '\r')
      ∧ JavaText.read? '"' t.toList = some (s.toList.flatMap JavaText.units, [])
      ∧ (∀ more, JavaText.read? '"' (t.toList ++ more)
          = (JavaText.translate? 0 more).map (fun us => (s.toList.flatMap JavaText.units, us)))
      ∧ ∀ r : String,
          r.toList.flatMap JavaText.units = s.toList.flatMap JavaText.units ↔ r = s := by
  have hread : ∀ more, JavaText.read? '"' ((Literal.quoted '"' s.toList).toList ++ more)
      = (JavaText.translate? 0 more).map (fun us => (s.toList.flatMap JavaText.units, us)) :=
    JavaText.read?_quoted (.inl rfl) s.toList
  refine ⟨Literal.quoted '"' s.toList, fun _ _ => rfl, ⟨_, String.toList_ofList⟩,
    fun c => JavaText.ne_of_mem_quoted (.inl rfl), ?_, hread, fun r => ⟨fun h => ?_, fun h => ?_⟩⟩
  · rw [← List.append_nil (String.toList _), hread, JavaText.translate?]
    rfl
  · exact String.toList_inj.mp (JavaText.units_injective h)
  · rw [h]

end AnnotationPlan
