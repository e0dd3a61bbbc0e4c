import AnnotationPlan.Proofs.Location.Takes
import AnnotationPlan.Proofs.Text.Trim

/-!
# Which texts are paths in the syntax tree

A text is the empty path if it is blank, and otherwise a path exactly if it is, without the
blanks around it, entries with commas between them (`AstPath.parse_written`).

What may come behind an entry is not a matter of one character. Blanks behind a selector belong
to an argument if a number follows, and to the comma if a comma follows; if anything else
follows, the text is no path. So an entry is read where behind some blanks there is a comma or
nothing (`AstPath.EndsEntry`), and every row of further entries begins like that.
-/

namespace AnnotationPlan

open Location Location.Scan

/-- The name of a kind is a run of letters. -/
theorem TreeKind.name_isAlpha (k : TreeKind) :
    k.name.toList ≠ [] ∧ ∀ c ∈ k.name.toList, c.isAlpha = true := by
  have hall : names.all (fun name => !name.toList.isEmpty && name.toList.all Char.isAlpha) = true :=
    by decide +kernel
  have hname := (Bool.and_eq_true _ _).mp (List.all_eq_true.mp hall k.name k.known)
  exact ⟨by simpa using hname.1, List.all_eq_true.mp hname.2⟩

/-- A kind is known by its name. -/
theorem TreeKind.name_of_ofName? {s : String} {k : TreeKind} (h : ofName? s = some k) :
    k.name = s := by
  rw [ofName?] at h
  split at h
  case isTrue =>
    cases h
    rfl
  case isFalse => cases h

namespace AstPath

variable {cs rest : List Char} {e : AstEntry} {argument : Option Int32}

/-! ## Characters -/

/-- The characters of a selector are no blanks. -/
theorem isBlank_of_isSelectorChar {c : Char} (h : isSelectorChar c = true) :
    Text.isBlank c = false := by
  have hrange : c.toNat = 95 ∨ (48 ≤ c.toNat ∧ c.toNat ≤ 57) ∨ (65 ≤ c.toNat ∧ c.toNat ≤ 122) := by
    rcases (Bool.or_eq_true _ _).mp h with h | h
    · change (decide (c.val ≥ 65 ∧ c.val ≤ 90)
        || (decide (c.val ≥ 97) && decide (c.val ≤ 122))
        || (decide (c.val ≥ 48) && decide (c.val ≤ 57))) = true at h
      simp only [Bool.or_eq_true, Bool.and_eq_true, decide_eq_true_eq, ge_iff_le,
        UInt32.le_iff_toNat_le, UInt32.reduceToNat] at h
      have hval : c.toNat = c.val.toNat := rfl
      omega
    · obtain rfl := beq_iff_eq.mp h
      exact .inl rfl
  simp only [Text.isBlank, Bool.or_eq_false_iff, Bool.and_eq_false_iff, decide_eq_false_iff_not,
    beq_eq_false_iff_ne]
  omega

/-- The blanks around commas are blanks. -/
theorem isBlank_of_isSeparatorBlank {c : Char} (h : isSeparatorBlank c = true) :
    Text.isBlank c = true := by
  simp only [isSeparatorBlank, Bool.or_eq_true, beq_iff_eq] at h
  rcases h with ((rfl | rfl) | rfl) | rfl <;> rfl

theorem isSeparatorBlank_of_isBlank_eq_false {c : Char} (h : Text.isBlank c = false) :
    isSeparatorBlank c = false := by
  by_contra hblank
  rw [isBlank_of_isSeparatorBlank (Bool.not_eq_false _ ▸ hblank)] at h
  cases h

theorem isSeparatorBlank_of_isSelectorChar {c : Char} (h : isSelectorChar c = true) :
    isSeparatorBlank c = false :=
  isSeparatorBlank_of_isBlank_eq_false (isBlank_of_isSelectorChar h)

theorem isSelectorChar_of_isSeparatorBlank {c : Char} (h : isSeparatorBlank c = true) :
    isSelectorChar c = false := by
  by_contra hselector
  rw [isSeparatorBlank_of_isSelectorChar (Bool.not_eq_false _ ▸ hselector)] at h
  cases h

theorem isSelectorChar_of_isAlpha {c : Char} (h : c.isAlpha = true) : isSelectorChar c = true := by
  rw [isSelectorChar, Char.isAlphanum, h]
  rfl

theorem isSelectorChar_of_isDigit {c : Char} (h : c.isDigit = true) : isSelectorChar c = true := by
  rw [isSelectorChar, Char.isAlphanum, h, Bool.or_true]
  rfl

/-- A number begins with no blank. -/
theorem decimal_stops {n : Int32} (h : Decimal cs n) : Stops isSeparatorBlank cs :=
  h.stops (fun _ hc => isSeparatorBlank_of_isSelectorChar (isSelectorChar_of_isDigit hc)) rfl

/-! ## What may follow an entry -/

/-- **An entry ends where behind some blanks there is a comma or nothing.** -/
def EndsEntry (rest : List Char) : Prop :=
  ∀ c ∈ (rest.dropWhile isSeparatorBlank).head?, c = ','

/-- The selector of an entry does not go on there. -/
theorem EndsEntry.stops (h : EndsEntry rest) : Stops isSelectorChar rest := by
  cases rest with
  | nil => exact .nil _
  | cons c rest =>
    by_cases hc : isSeparatorBlank c = true
    · exact .cons (isSelectorChar_of_isSeparatorBlank hc) rest
    · rw [EndsEntry, List.dropWhile_cons_of_neg hc] at h
      obtain rfl := h c rfl
      exact .cons (by decide) rest

/-- The number of an entry does not go on there. -/
theorem EndsEntry.stops_digits (h : EndsEntry rest) : Stops Char.isDigit rest :=
  h.stops.mono (fun c hc => by
    by_contra hdigit
    rw [isSelectorChar_of_isDigit (Bool.not_eq_false _ ▸ hdigit)] at hc
    cases hc)

/-- There is no number there, with blanks before it or without. -/
theorem EndsEntry.scanArgument_error (h : EndsEntry rest) : ∃ e, scanArgument rest = .error e := by
  by_cases hblanks : rest.takeWhile isSeparatorBlank = []
  · exact bind_error ⟨rest, if_pos hblanks⟩
  · have hrun : run isSeparatorBlank rest
        = .ok (rest.takeWhile isSeparatorBlank, rest.dropWhile isSeparatorBlank) := if_neg hblanks
    show ∃ e, (run isSeparatorBlank rest >>= fun r => integer r.2) = .error e
    rw [hrun]
    show ∃ e, integer (rest.dropWhile isSeparatorBlank) = .error e
    cases hdrop : rest.dropWhile isSeparatorBlank with
    | nil => exact ⟨_, rfl⟩
    | cons c more =>
      obtain rfl : c = ',' := h c (by rw [hdrop]; rfl)
      exact ⟨_, rfl⟩

/-- **Further entries** may follow an entry. -/
theorem EndsEntry.of_row {es : List AstEntry} (h : Row AstEntry.FurtherWritten cs es) :
    EndsEntry cs := by
  cases h with
  | nil => exact fun _ hc => by cases hc
  | cons first more =>
    cases first with
    | mk blanksBefore blanksAfter written =>
      rw [EndsEntry, List.append_assoc, List.cons_append,
        List.dropWhile_append_of_pos blanksBefore, List.dropWhile_cons_of_neg (by decide)]
      exact fun c hc => (Option.some.inj hc).symm

/-! ## Reading -/

/-- A kind is read back. -/
theorem kind_reads (k : TreeKind) : Reads scanKind k.name.toList k (Stops Char.isAlpha) := by
  intro rest hrest
  obtain ⟨hne, hall⟩ := k.name_isAlpha
  rw [scanKind, Reads.run hne hall rest hrest]
  dsimp only
  rw [String.ofList_toList, TreeKind.ofName?_name]

/-- **An argument is read**, or that there is none. -/
theorem argument_reads (h : AstEntry.ArgumentWritten cs argument) :
    Reads (optional scanArgument) cs argument EndsEntry := by
  cases h with
  | none => exact Reads.optional_none (fun rest hrest => hrest.scanArgument_error)
  | some nonempty areBlanks number =>
    refine Reads.optional_some ?_
    unfold scanArgument
    exact (Reads.run nonempty areBlanks).bind
      ((Reads.decimal number).mono (fun rest hrest => hrest.stops_digits))
      (fun rest _ => (decimal_stops number).append number.ne_nil rest)

/-- An argument does not go on with the selector before it. -/
theorem argument_stops (h : AstEntry.ArgumentWritten cs argument) (hrest : EndsEntry rest) :
    Stops isSelectorChar (cs ++ rest) := by
  cases h with
  | none => exact hrest.stops
  | @some blanks _ _ nonempty areBlanks number =>
    obtain ⟨c, blanks, rfl⟩ := List.exists_cons_of_ne_nil nonempty
    exact .cons (isSelectorChar_of_isSeparatorBlank (areBlanks c List.mem_cons_self)) _

/-- **An entry is read** from whatever is written for it. -/
theorem entry_reads (h : e.Written cs) : Reads scanEntry cs e EndsEntry := by
  cases h with
  | mk kind nonempty isSelector written =>
    unfold scanEntry
    refine (kind_reads kind).bind ?_ (fun rest _ => .cons rfl _)
    refine (Reads.char '.').bind ?_ (fun _ _ => trivial)
    refine (Reads.run nonempty isSelector).bind ?_ (fun rest hrest => argument_stops written hrest)
    exact (argument_reads written).map _

/-- An entry begins with a letter, which is no blank. -/
theorem entry_starts (h : e.Written cs) : cs ≠ [] ∧ Stops Text.isBlank cs := by
  cases h with
  | mk kind =>
    obtain ⟨hne, hall⟩ := kind.name_isAlpha
    have hname : Stops Text.isBlank kind.name.toList := fun c hc =>
      isBlank_of_isSelectorChar (isSelectorChar_of_isAlpha (hall c (List.mem_of_mem_head? hc)))
    exact ⟨List.append_ne_nil_of_left_ne_nil hne _, hname.append hne _⟩

/-- A number ends with a digit. -/
theorem decimal_ends {n : Int32} (h : Decimal cs n) : Stops Text.isBlank cs.reverse := by
  have hdigits : ∀ {ds : List Char} {m : Nat}, Digits ds m → Stops Text.isBlank ds.reverse :=
    fun digits c hc => isBlank_of_isSelectorChar (isSelectorChar_of_isDigit
      (digits.isDigit c (List.mem_reverse.mp (List.mem_of_mem_head? hc))))
  cases h with
  | plain digits => exact hdigits digits
  | minus digits =>
    rw [List.reverse_cons]
    exact (hdigits digits).append (List.reverse_ne_nil_iff.mpr digits.ne_nil) _

/-- **An entry ends** with a digit or a character of its selector, which are no blanks. -/
theorem entry_ends (h : e.Written cs) : Stops Text.isBlank cs.reverse := by
  cases h with
  | @mk selector cs kind argument nonempty isSelector written =>
    have hselector : Stops Text.isBlank selector.reverse := fun c hc =>
      isBlank_of_isSelectorChar
        (isSelector c (List.mem_reverse.mp (List.mem_of_mem_head? hc)))
    rw [List.reverse_append, List.reverse_cons, List.reverse_append, List.append_assoc,
      List.append_assoc]
    cases written with
    | none => exact hselector.append (List.reverse_ne_nil_iff.mpr nonempty) _
    | some _ _ number =>
      rw [List.reverse_append, List.append_assoc]
      exact (decimal_ends number).append (List.reverse_ne_nil_iff.mpr number.ne_nil) _

/-- **A further entry is read** with the comma before it. -/
theorem further_reads (h : e.FurtherWritten cs) : Reads scanNext cs e EndsEntry := by
  cases h with
  | mk blanksBefore blanksAfter written =>
    obtain ⟨hne, hstops⟩ := entry_starts written
    have hentry := hstops.mono (fun c hc => isSeparatorBlank_of_isBlank_eq_false hc)
    unfold scanNext
    refine (Reads.skip blanksBefore).bind ?_ (fun _ _ => .cons rfl _)
    refine (Reads.char ',').bind ?_ (fun _ _ => trivial)
    exact (Reads.skip blanksAfter).bind (entry_reads written) (fun rest _ => hentry.append hne rest)

theorem further_ne_nil (h : e.FurtherWritten cs) : cs ≠ [] := by
  cases h with
  | mk => exact List.append_ne_nil_of_right_ne_nil _ (List.cons_ne_nil _ _)

/-- **A path is read** from whatever is written for it. -/
theorem scan_written {p : AstPath} (h : p.Written cs) : scan cs = .ok (p, []) := by
  cases h with
  | mk written further =>
    exact (entry_reads written).before_end (.of_row further)
      (Reads.many (t := scanNext) ⟨_, rfl⟩ further_reads further_ne_nil .of_row further _)

/-- Further entries end without a blank, if what is before them does. -/
theorem further_ends {es : List AstEntry} (h : Row AstEntry.FurtherWritten cs es) :
    ∀ {front : List Char}, Stops Text.isBlank front.reverse →
      Stops Text.isBlank (front ++ cs).reverse := by
  induction h with
  | nil =>
    intro front hfront
    rwa [List.append_nil]
  | @cons cs ds e es first more ih =>
    intro front _
    rw [← List.append_assoc]
    refine ih ?_
    cases first with
    | mk _ _ written =>
      simp only [List.reverse_append, List.reverse_cons, List.append_assoc]
      exact (entry_ends written).append (List.reverse_ne_nil_iff.mpr (entry_starts written).1) _

/-- **What is written for a path** neither begins nor ends with a blank. -/
theorem Written.isTrimmed {p : AstPath} (h : p.Written cs) : Text.IsTrimmed cs := by
  cases h with
  | mk written further =>
    obtain ⟨hne, hstarts⟩ := entry_starts written
    refine ⟨hstarts.append hne _, ?_⟩
    rw [← List.head?_reverse]
    exact further_ends further (entry_ends written)

theorem Written.ne_nil {p : AstPath} (h : p.Written cs) : cs ≠ [] := by
  cases h with
  | mk written => exact List.append_ne_nil_of_left_ne_nil (entry_starts written).1 _

/-! ## Taking -/

/-- The name of a kind is taken for it. -/
theorem scanKind_takes : Takes scanKind (fun cs k => cs = k.name.toList) := by
  intro cs rest k h
  rw [scanKind] at h
  split at h
  case h_1 => cases h
  case h_2 letters more hrun =>
    split at h
    case h_1 kind hkind =>
      cases h
      refine ⟨letters, (run_eq_ok hrun).1, ?_⟩
      show letters = k.name.toList
      rw [TreeKind.name_of_ofName? hkind, String.toList_ofList]
    case h_2 => cases h

/-- **Only what is written for an argument** is taken for it. -/
theorem argument_takes : Takes (optional scanArgument) AstEntry.ArgumentWritten := by
  intro cs rest argument h
  rcases optional_eq_ok h with ⟨n, rfl, hn⟩ | ⟨rfl, rfl⟩
  · obtain ⟨blanks, more, hblanks, hnumber⟩ := sequence_eq_ok hn
    obtain ⟨rfl, hne, hall⟩ := run_eq_ok hblanks
    obtain ⟨number, rfl, hdecimal⟩ := integer_takes hnumber
    exact ⟨blanks ++ number, (List.append_assoc _ _ _).symm, .some hne hall hdecimal⟩
  · exact ⟨[], rfl, .none⟩

/-- **Only what is written for an entry** is taken for it. -/
theorem entry_takes : Takes scanEntry (fun cs e => AstEntry.Written cs e) := by
  intro cs rest e h
  obtain ⟨kind, afterKind, hkind, hentry⟩ := sequence_eq_ok h
  obtain ⟨_, afterDot, hdot, hselection⟩ := sequence_eq_ok hentry
  obtain ⟨selector, afterSelector, hselector, hend⟩ := sequence_eq_ok hselection
  obtain ⟨argument, afterArgument, hargument, hpure⟩ := sequence_eq_ok hend
  obtain ⟨_, rfl, rfl⟩ := scanKind_takes hkind
  obtain rfl := char_eq_ok hdot
  obtain ⟨rfl, hne, hall⟩ := run_eq_ok hselector
  obtain ⟨written, rfl, hwritten⟩ := argument_takes hargument
  cases hpure
  exact ⟨_, by simp, .mk kind hne hall hwritten⟩

/-- **Only what is written for a further entry** is taken for it. -/
theorem further_takes : Takes scanNext (fun cs e => AstEntry.FurtherWritten cs e) := by
  intro cs rest e h
  obtain ⟨_, afterBefore, hbefore, hnext⟩ := sequence_eq_ok h
  obtain ⟨_, afterComma, hcomma, hblanks⟩ := sequence_eq_ok hnext
  obtain ⟨_, afterAfter, hafter, hentry⟩ := sequence_eq_ok hblanks
  obtain ⟨before, rfl, hbeforeAll⟩ := skip_eq_ok hbefore
  obtain rfl := char_eq_ok hcomma
  obtain ⟨after, rfl, hafterAll⟩ := skip_eq_ok hafter
  obtain ⟨written, rfl, hwritten⟩ := entry_takes hentry
  exact ⟨_, by simp, .mk hbeforeAll hafterAll hwritten⟩

/-- **Only what is written for a path** is taken for it. -/
theorem scan_takes : Takes scan (fun cs p => AstPath.Written cs p) := by
  intro cs rest p h
  obtain ⟨first, afterFirst, hfirst, hentries⟩ := sequence_eq_ok h
  obtain ⟨es, afterMany, hmany, hpure⟩ := sequence_eq_ok hentries
  obtain ⟨front, rfl, hwritten⟩ := entry_takes hfirst
  obtain ⟨further, hsplit, hrow⟩ := further_takes.manyUpTo afterFirst.length afterFirst
  rw [show scanNext.manyUpTo afterFirst.length afterFirst = (es, afterMany) from
    Except.ok.inj hmany] at hsplit hrow
  cases hpure
  refine ⟨front ++ further, ?_, .mk hwritten hrow⟩
  rw [List.append_assoc, ← hsplit]

/-! ## The texts -/

/-- **The paths in the syntax tree** are read from blank texts and from entries with commas
between them. A text is read as a path exactly if it is blank and the path is empty, or if it
is, without the blanks around it, what is written for the path. -/
theorem parse_written (s : String) (p : AstPath) :
    AstPath.parse s = .ok p
      ↔ (Text.trim s = "" ∧ p.entries = []) ∨ p.Written (Text.trim s).toList := by
  have hblank : Text.trim s = "" ↔ Text.trimChars s.toList = [] := String.ofList_eq_empty_iff
  rw [hblank, Text.toList_trim, AstPath.parse]
  split
  case isTrue hnil =>
    refine ⟨fun h => ?_, fun h => ?_⟩
    · cases h
      exact .inl ⟨hnil, rfl⟩
    · rcases h with ⟨-, hempty⟩ | h
      · obtain ⟨_⟩ := p
        obtain rfl : _ = [] := hempty
        rfl
      · exact absurd hnil h.ne_nil
  case isFalse hne =>
    rw [parse_eq_ok_iff]
    refine ⟨fun h => ?_, fun h => ?_⟩
    · obtain ⟨front, hfront, hwritten⟩ := scan_takes h
      rw [hfront, List.append_nil]
      exact .inr hwritten
    · rcases h with ⟨hnil, -⟩ | h
      · exact absurd hnil hne
      · exact scan_written h

/-- Zeros before a number and blanks around a comma are read over. -/
example : AstPath.parse "\u3000Block.statement\t-0012\n,Return.expression "
    = .ok ⟨[⟨{ name := "Block" }, "statement", some (-12)⟩,
      ⟨{ name := "Return" }, "expression", none⟩]⟩ := by
  decide +kernel

end AstPath

end AnnotationPlan
