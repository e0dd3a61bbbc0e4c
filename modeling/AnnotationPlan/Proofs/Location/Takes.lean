import AnnotationPlan.Proofs.Location.Reads

/-!
# Scanners take only what was written

A scanner that answers a value has taken something from the front of the characters, and what
it has taken is one of the texts that may be written for the value (`Scan.Takes`). This is the
other direction of reading: a scanner that reads every text and takes nothing else answers for
exactly the texts of the grammar.

A scanner that is repeated takes a row (`Scan.Takes.manyUpTo`), and it goes on as long as it
can. If nothing that follows a text can change how the text is read, the row that it takes is
the longest one (`Scan.many_longest`): another row at the front of the same characters goes
along with it thing by thing, and is over before it or with it.
-/

namespace AnnotationPlan.Location

variable {α β : Type} {p : Char → Bool} {cs rest : List Char} {a : α} {b : β} {s : Scan α}
  {writes : List Char → α → Prop}

namespace Scan

/-- **A scanner takes only what is written** for the value that it answers. -/
def Takes (s : Scan α) (writes : List Char → α → Prop) : Prop :=
  ∀ {cs rest a}, s cs = .ok (a, rest) → ∃ front, cs = front ++ rest ∧ writes front a

/-- **A sequence is read** part by part. -/
theorem sequence_eq_ok {f : α → Scan β} (h : (s >>= f) cs = .ok (b, rest)) :
    ∃ a more, s cs = .ok (a, more) ∧ f a more = .ok (b, rest) := by
  change (s cs >>= fun r => f r.1 r.2) = _ at h
  cases hs : s cs with
  | error e =>
    rw [hs] at h
    cases h
  | ok r =>
    rw [hs] at h
    exact ⟨r.1, r.2, rfl, h⟩

/-- A character is taken. -/
theorem char_eq_ok {c : Char} {u : Unit} (h : Scan.char c cs = .ok (u, rest)) :
    cs = c :: rest := by
  cases cs with
  | nil => cases h
  | cons d ds =>
    rw [Scan.char] at h
    split at h
    case isTrue hd =>
      cases h
      rw [hd]
    case isFalse => cases h

/-- A run of a class is taken, and it is not empty. -/
theorem run_eq_ok {front : List Char} (h : Scan.run p cs = .ok (front, rest)) :
    cs = front ++ rest ∧ front ≠ [] ∧ ∀ c ∈ front, p c = true := by
  rw [Scan.run] at h
  split at h
  case isTrue => cases h
  case isFalse hne =>
    cases h
    exact ⟨List.takeWhile_append_dropWhile.symm, hne, fun c hc => List.mem_takeWhile_imp hc⟩

/-- Characters of a class are skipped. -/
theorem skip_eq_ok {u : Unit} (h : Scan.skip p cs = .ok (u, rest)) :
    ∃ front, cs = front ++ rest ∧ ∀ c ∈ front, p c = true := by
  cases h
  exact ⟨cs.takeWhile p, List.takeWhile_append_dropWhile.symm,
    fun c hc => List.mem_takeWhile_imp hc⟩

/-- What may be left out is taken, or nothing is. -/
theorem optional_eq_ok {x : Option α} (h : Scan.optional s cs = .ok (x, rest)) :
    (∃ a, x = some a ∧ s cs = .ok (a, rest)) ∨ (x = none ∧ rest = cs) := by
  rw [Scan.optional] at h
  split at h
  case h_1 a more hs =>
    cases h
    exact .inl ⟨a, rfl, hs⟩
  case h_2 =>
    cases h
    exact .inr ⟨rfl, rfl⟩

/-- **What either of two scanners takes** is written for the value, if both take only that. -/
theorem Takes.orElse {t : Scan α} (hs : Takes s writes) (ht : Takes t writes) :
    Takes (Scan.orElse s t) writes := by
  intro cs rest a h
  rw [Scan.orElse] at h
  split at h
  case h_1 hread =>
    cases h
    exact hs hread
  case h_2 => exact ht h

/-- **A text is parsed** only if it is read to its end. -/
theorem parse_eq_ok_iff {kind : Kind} {input : String} :
    Scan.parse kind s input cs = .ok a ↔ s cs = .ok (a, []) := by
  refine ⟨fun h => ?_, fun h => parse_of_ok h kind input⟩
  rw [Scan.parse] at h
  split at h
  case h_1 hs =>
    cases h
    exact hs
  case h_2 => cases h
  case h_3 => cases h

/-- **The texts of a grammar are parsed**, and no others, if the scanner reads each of them to its
end and takes only what is written. -/
theorem Takes.parse_eq_ok_iff (htakes : Takes s writes)
    (hreads : ∀ {cs a}, writes cs a → s cs = .ok (a, [])) {kind : Kind} {input : String} :
    Scan.parse kind s input cs = .ok a ↔ writes cs a := by
  refine Scan.parse_eq_ok_iff.trans ⟨fun h => ?_, hreads⟩
  obtain ⟨front, hfront, hwritten⟩ := htakes h
  rwa [hfront, List.append_nil]

/-! ## Numbers -/

/-- The digits at the front of some characters are a number. -/
theorem digits_takeWhile (h : cs.takeWhile Char.isDigit ≠ []) :
    Digits (cs.takeWhile Char.isDigit) (digitsValue (cs.takeWhile Char.isDigit)) :=
  ⟨h, fun _ hc => List.mem_takeWhile_imp hc, rfl⟩

/-- **A natural number is taken** with its digits. -/
theorem natural_takes : Takes Scan.natural (fun cs n => Digits cs n.toNat) := by
  intro cs rest n h
  rw [Scan.natural] at h
  split at h
  case isTrue hdigits =>
    cases h
    refine ⟨_, List.takeWhile_append_dropWhile.symm, ?_⟩
    dsimp only
    rw [UInt32.toNat_ofNat_of_lt' hdigits.2]
    exact digits_takeWhile hdigits.1
  case isFalse => cases h

/-- **A natural number behind a sign** is taken with the sign. -/
theorem signed_eq_ok {c : Char} {f : UInt32 → Scan β}
    (h : (Scan.char c >>= fun _ => Scan.natural >>= f) cs = .ok (b, rest)) :
    ∃ digits n more, cs = c :: (digits ++ more) ∧ Digits digits n.toNat
      ∧ f n more = .ok (b, rest) := by
  obtain ⟨_, _, hsign, h⟩ := sequence_eq_ok h
  obtain ⟨n, more, hn, hf⟩ := sequence_eq_ok h
  obtain rfl := char_eq_ok hsign
  obtain ⟨digits, rfl, hdigits⟩ := natural_takes hn
  exact ⟨digits, n, more, rfl, hdigits, hf⟩

/-- **An integer is taken** with its digits and its minus. -/
theorem integer_takes : Takes Scan.integer Decimal := by
  intro cs rest n h
  unfold Scan.integer at h
  split at h
  case h_1 cs =>
    dsimp only at h
    split at h
    case isTrue => cases h
    case isFalse hne =>
      split at h
      case isTrue hle =>
        cases h
        refine ⟨'-' :: cs.takeWhile Char.isDigit,
          congrArg _ List.takeWhile_append_dropWhile.symm, .minus (digits_takeWhile hne) ?_⟩
        change _ ≤ 2147483648 at hle
        exact Int32.toInt_ofInt_of_le (by omega) (by omega)
      case isFalse => cases h
  case h_2 cs _ =>
    dsimp only at h
    split at h
    case isTrue hdigits =>
      cases h
      refine ⟨_, List.takeWhile_append_dropWhile.symm, .plain (digits_takeWhile hdigits.1) ?_⟩
      have hlt := hdigits.2
      change _ < 2147483648 at hlt
      exact Int32.toInt_ofInt_of_le (by omega) (by omega)
    case isFalse => cases h

/-! ## Rows -/

/-- **What a repeated scanner takes** is a row. -/
theorem Takes.manyUpTo (h : Takes s writes) :
    ∀ n cs, ∃ front, cs = front ++ (Scan.manyUpTo s n cs).2
      ∧ Row writes front (Scan.manyUpTo s n cs).1
  | 0, cs => ⟨[], rfl, .nil⟩
  | n + 1, cs => by
    rw [Scan.manyUpTo]
    split
    case h_1 a rest hs =>
      obtain ⟨front, rfl, hfront⟩ := h hs
      obtain ⟨more, hmore, hrow⟩ := h.manyUpTo n rest
      refine ⟨front ++ more, ?_, .cons hfront hrow⟩
      rw [List.append_assoc, ← hmore]
    case h_2 => exact ⟨[], rfl, .nil⟩

/-- **A row that stops only where nothing can be read** has every other row at the front of the
same characters at its own front, if nothing that follows changes how a thing is read. -/
theorem Reads.row_atFront (hreads : ∀ {cs a}, writes cs a → Reads s cs a Anything)
    (hstops : ∃ e, s rest = .error e) {xs : List α} (h : Row writes cs xs) :
    ∀ {other more ys}, Row writes other ys → other ++ more = cs ++ rest → other <+: cs := by
  induction h with
  | nil =>
    intro other more ys hother hsame
    cases hother with
    | nil => exact List.nil_prefix
    | cons hy hys =>
      obtain ⟨e, he⟩ := hstops
      rw [List.append_assoc, List.nil_append] at hsame
      rw [← hsame, hreads hy _ trivial] at he
      cases he
  | @cons front behind x xs hx hxs ih =>
    intro other more ys hother hsame
    cases hother with
    | nil => exact List.nil_prefix
    | @cons otherFront otherBehind y ys hy hys =>
      rw [List.append_assoc, List.append_assoc] at hsame
      -- the first things are read from the same characters, so they are the same
      have hread := hreads hy (otherBehind ++ more) trivial
      rw [hsame, hreads hx (behind ++ rest) trivial] at hread
      have hbehind : behind ++ rest = otherBehind ++ more := congrArg Prod.snd (Except.ok.inj hread)
      rw [← hbehind] at hsame
      obtain rfl := List.append_cancel_right hsame
      exact (List.prefix_append_right_inj otherFront).mpr (ih hys hbehind.symm)

/-- **A repeated scanner stops only where it fails**: something is taken each time, so there are
never more things than characters. -/
theorem Takes.manyUpTo_stops (h : Takes s writes) (hne : ∀ {cs a}, writes cs a → cs ≠ []) :
    ∀ n cs, cs.length ≤ n → ∃ e, s (Scan.manyUpTo s n cs).2 = .error e
  | 0, cs, hn => by
    obtain rfl := List.length_eq_zero_iff.mp (Nat.le_zero.mp hn)
    cases hs : s [] with
    | error e => exact ⟨e, hs⟩
    | ok r =>
      obtain ⟨front, hfront, hwrites⟩ := h hs
      exact absurd (List.append_eq_nil_iff.mp hfront.symm).1 (hne hwrites)
  | n + 1, cs, hn => by
    rw [Scan.manyUpTo]
    split
    case h_1 a rest hs =>
      obtain ⟨front, rfl, hfront⟩ := h hs
      have hpos : 0 < front.length := List.length_pos_iff.mpr (hne hfront)
      rw [List.length_append] at hn
      exact h.manyUpTo_stops hne n rest (by omega)
    case h_2 e hs => exact ⟨e, hs⟩

/-- **A repeated scanner takes the longest row**, if it takes only what is written, reads all of
it, and nothing that follows changes how. -/
theorem many_longest (hreads : ∀ {cs a}, writes cs a → Reads s cs a Anything)
    (htakes : Takes s writes) (hne : ∀ {cs a}, writes cs a → cs ≠ []) (cs : List Char) :
    ∃ front rest xs, cs = front ++ rest ∧ Scan.many s cs = .ok (xs, rest)
      ∧ Row writes front xs ∧ IsLongestRow writes front cs := by
  obtain ⟨front, hfront, hrow⟩ := htakes.manyUpTo cs.length cs
  have hstops := htakes.manyUpTo_stops hne cs.length cs le_rfl
  refine ⟨front, _, _, hfront, rfl, hrow, ⟨⟨_, hfront.symm⟩, ⟨_, hrow⟩, ?_⟩⟩
  rintro other ys ⟨more, hmore⟩ hother
  exact Reads.row_atFront hreads hstops hrow hother (hmore.trans hfront)

end Scan

end AnnotationPlan.Location
