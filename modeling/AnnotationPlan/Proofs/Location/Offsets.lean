import AnnotationPlan.Proofs.Location.AstPaths
import AnnotationPlan.Proofs.Location.TypePaths

/-!
# Where the reading of a path stops

A text that is no location is reported with the number of bytes before the place where reading
stopped. A scanner only ever goes forward: wherever it stops, what is left is an end of the
characters that it was given (`Scan.Stays`). So the number is that of the bytes of what was read
(`Scan.Stays.parse_eq_error`).

A path in the syntax tree is read without the blanks around its text, and the number counts from
the first character that is none. But the message shows the text with its blanks. So more blanks in
front of a text that is no path change the text that is shown and not the number, and the place
where reading stopped is as many bytes behind the number as there are bytes of blanks at the front
(`AstPath.parse_behind_blanks`).
-/

namespace AnnotationPlan

namespace Location

variable {α β : Type} {cs rest : List Char} {a : α} {s : Scan α}

namespace Scan

/-- **Where a scanner stops**: the characters that it leaves over, or those at which it cannot go
on. -/
def stop (s : Scan α) (cs : List Char) : List Char :=
  match s cs with
  | .ok (_, rest) => rest
  | .error rest => rest

theorem stop_of_ok (h : s cs = .ok (a, rest)) : stop s cs = rest := by
  rw [stop, h]

theorem stop_of_error (h : s cs = .error rest) : stop s cs = rest := by
  rw [stop, h]

/-- **A scanner only goes forward**: wherever it stops, what is left is an end of what it was
given. -/
def Stays (s : Scan α) : Prop := ∀ cs, stop s cs <:+ cs

/-- **One scanner after another** goes forward if both do. -/
theorem Stays.bind {f : α → Scan β} (hs : Stays s) (hf : ∀ a, Stays (f a)) : Stays (s >>= f) := by
  intro cs
  have hfirst := hs cs
  show (match (s cs >>= fun r => f r.1 r.2) with
    | .ok (_, rest) => rest
    | .error rest => rest) <:+ cs
  cases h : s cs with
  | error rest => exact stop_of_error h ▸ hfirst
  | ok r => exact (hf r.1 r.2).trans (stop_of_ok h ▸ hfirst)

/-- What is made of what was read takes nothing more. -/
theorem stays_pure (a : α) : Stays (Pure.pure a : Scan α) := fun _ => List.suffix_rfl

theorem stays_char (c : Char) : Stays (Scan.char c)
  | [] => List.suffix_rfl
  | d :: cs => by
    by_cases h : d = c
    · rw [stop_of_ok (if_pos h : Scan.char c (d :: cs) = _)]
      exact List.suffix_cons d cs
    · exact ⟨[], stop_of_error (if_neg h : Scan.char c (d :: cs) = _)⟩

theorem stays_run (p : Char → Bool) : Stays (Scan.run p) := by
  intro cs
  unfold stop Scan.run
  split
  case h_1 h =>
    split at h <;> cases h
    exact List.dropWhile_suffix p
  case h_2 h =>
    split at h <;> cases h
    exact List.suffix_rfl

theorem stays_skip (p : Char → Bool) : Stays (Scan.skip p) := fun _ => List.dropWhile_suffix p

/-- What may be left out starts again where it began. -/
theorem Stays.optional (hs : Stays s) : Stays (Scan.optional s) := by
  intro cs
  cases h : s cs with
  | ok r =>
    have hread : Scan.optional s cs = .ok (some r.1, r.2) := by rw [Scan.optional, h]
    rw [stop_of_ok hread, ← stop_of_ok h]
    exact hs cs
  | error rest =>
    have hskip : Scan.optional s cs = .ok (none, cs) := by rw [Scan.optional, h]
    exact ⟨[], stop_of_ok hskip⟩

theorem Stays.manyUpTo (hs : Stays s) : ∀ n cs, (Scan.manyUpTo s n cs).2 <:+ cs
  | 0, _ => List.suffix_rfl
  | n + 1, cs => by
    rw [Scan.manyUpTo]
    split
    case h_1 h => exact (hs.manyUpTo n _).trans (stop_of_ok h ▸ hs cs)
    case h_2 => exact List.suffix_rfl

theorem Stays.many (hs : Stays s) : Stays (Scan.many s) := fun cs => hs.manyUpTo cs.length cs

theorem stays_integer : Stays Scan.integer := by
  intro cs
  unfold stop Scan.integer
  split
  case h_1 h =>
    -- a number was read
    split at h
    · dsimp only at h
      split at h
      · cases h
      · split at h <;> cases h
        exact (List.dropWhile_suffix _).trans (List.suffix_cons _ _)
    · dsimp only at h
      split at h <;> cases h
      exact List.dropWhile_suffix _
  case h_2 h =>
    -- none was, and at most a minus was read
    split at h
    · dsimp only at h
      split at h
      · cases h
        exact List.suffix_cons _ _
      · split at h <;> cases h
        exact List.suffix_rfl
    · dsimp only at h
      split at h <;> cases h
      exact List.suffix_rfl

/-- **An error names the number of bytes that were read**, if the scanner only goes forward. -/
theorem Stays.parse_eq_error (hs : Stays s) {kind : Kind} {input : String} {e : ParseError}
    (h : Scan.parse kind s input cs = .error e) :
    ∃ front, cs = front ++ stop s cs ∧ e = ⟨kind, input, byteLength front⟩ := by
  obtain ⟨front, hfront⟩ := hs cs
  have hbytes : byteLength front + byteLength (stop s cs) = byteLength cs := by
    rw [← byteLength_append, hfront]
  refine ⟨front, hfront.symm, ?_⟩
  rw [← Nat.add_sub_cancel (n := byteLength front) (m := byteLength (stop s cs)), hbytes]
  rw [Scan.parse] at h
  split at h
  case h_1 => cases h
  case h_2 hread =>
    rw [stop_of_ok hread]
    exact (Except.error.inj h).symm
  case h_3 hread =>
    rw [stop_of_error hread]
    exact (Except.error.inj h).symm

/-- The text that is shown has no part in where reading stops. -/
theorem parse_input {kind : Kind} {input : String} {e : ParseError}
    (h : Scan.parse kind s input cs = .error e) (shown : String) :
    Scan.parse kind s shown cs = .error { e with input := shown } := by
  rw [Scan.parse] at h ⊢
  split at h
  case h_1 => cases h
  case h_2 =>
    obtain rfl := Except.error.inj h
    rfl
  case h_3 =>
    obtain rfl := Except.error.inj h
    rfl

end Scan

end Location

open Location Location.Scan

namespace AstPath

theorem stays_scanKind : Stays scanKind := by
  intro cs
  cases hrun : run Char.isAlpha cs with
  | error rest =>
    have h : scanKind cs = .error rest := by rw [scanKind, hrun]
    rw [stop_of_error h, ← stop_of_error hrun]
    exact stays_run _ cs
  | ok r =>
    -- whether the kind is known or not, its name was read
    have h : stop scanKind cs = r.2 := by
      rw [stop, scanKind, hrun]
      dsimp only
      cases TreeKind.ofName? (String.ofList r.1) <;> rfl
    rw [h, ← stop_of_ok hrun]
    exact stays_run _ cs

theorem stays_scanArgument : Stays scanArgument := by
  unfold scanArgument
  exact (stays_run _).bind (fun _ => stays_integer)

theorem stays_scanEntry : Stays scanEntry := by
  unfold scanEntry
  exact stays_scanKind.bind (fun _ => (stays_char '.').bind (fun _ => (stays_run _).bind (fun _ =>
    stays_scanArgument.optional.bind (fun _ => stays_pure _))))

theorem stays_scanNext : Stays scanNext := by
  unfold scanNext
  exact (stays_skip _).bind (fun _ => (stays_char ',').bind (fun _ => (stays_skip _).bind (fun _ =>
    stays_scanEntry)))

/-- **The scanner of a path** only goes forward. -/
theorem stays_scan : Stays scan := by
  unfold scan
  exact stays_scanEntry.bind (fun _ => stays_scanNext.many.bind (fun _ => stays_pure _))

/-- A text that is no path is not blank, and read without the blanks around it. -/
theorem parse_eq_error {s : String} {e : ParseError} (h : AstPath.parse s = .error e) :
    Text.trimChars s.toList ≠ []
      ∧ Scan.parse .astPath scan s (Text.trimChars s.toList) = .error e := by
  rw [AstPath.parse] at h
  split at h
  case isTrue => cases h
  case isFalse hne => exact ⟨hne, h⟩

/-- **Blanks in front of a text that is no path** are shown and not counted. The text is no path
with them either, and the message shows it with them, but names the same number as without them –
which is that number and the bytes of the blanks only if there are none. The number is that of the
bytes that were read behind all blanks at the front; so the place where reading stopped, as the
text is shown, is further on by the bytes of these blanks. -/
theorem parse_behind_blanks (s w : String) (e : ParseError)
    (hw : ∀ c ∈ w.toList, Text.isBlank c = true) (h : AstPath.parse s = .error e) :
    (∃ e', AstPath.parse (w ++ s) = .error e' ∧ e'.offset = e.offset
        ∧ (e'.offset = e.offset + w.utf8ByteSize ↔ w = "")
        ∧ e'.message = "invalid AST path '" ++ (w ++ s) ++ "': unexpected input at offset "
            ++ e.offset.repr)
      ∧ ∃ before front rest after,
        (w ++ s).toList = w.toList ++ (before ++ (front ++ rest ++ after))
        ∧ (∀ c ∈ before, Text.isBlank c = true) ∧ (∀ c ∈ after, Text.isBlank c = true)
        ∧ Text.IsTrimmed (front ++ rest) ∧ stop scan (front ++ rest) = rest
        ∧ e.offset = byteLength front
        ∧ byteLength (w.toList ++ (before ++ front))
            = w.utf8ByteSize + byteLength before + e.offset := by
  obtain ⟨hne, herror⟩ := parse_eq_error h
  have htrim : Text.trimChars (w ++ s).toList = Text.trimChars s.toList := by
    rw [String.toList_append, Text.trimChars_append hw]
  -- the scanner is given the same characters, and only the text that is shown is another one
  have hshown : AstPath.parse (w ++ s) = .error { e with input := w ++ s } := by
    rw [AstPath.parse, htrim, if_neg hne]
    exact parse_input herror (w ++ s)
  obtain ⟨front, hsplit, rfl⟩ := stays_scan.parse_eq_error herror
  refine ⟨⟨_, hshown, rfl, ?_, rfl⟩, ?_⟩
  · rw [← String.utf8ByteSize_eq_zero_iff]
    show byteLength front = byteLength front + w.utf8ByteSize ↔ _
    omega
  · obtain ⟨before, after, htext, hbefore, hafter⟩ := Text.exists_blanks_trimChars s.toList
    refine ⟨before, front, _, after, ?_, hbefore, hafter, ?_, congrArg _ hsplit.symm, rfl, ?_⟩
    · rw [String.toList_append, ← hsplit, ← htext]
    · rw [← hsplit]
      exact Text.isTrimmed_trimChars _
    · rw [byteLength_append, byteLength_append, byteLength_eq w.toList, String.ofList_toList]
      exact (Nat.add_assoc _ _ _).symm

/-- Blanks of several bytes in front of a kind that is not known. -/
theorem parse_behind_blanks_wide :
    (∀ c ∈ "\u3000\t".toList, Text.isBlank c = true)
      ∧ AstPath.parse " Bogus.type 0" = .error ⟨.astPath, " Bogus.type 0", 5⟩
      ∧ ∃ e', AstPath.parse ("\u3000\t" ++ " Bogus.type 0") = .error e' ∧ e'.offset = 5 := by
  have hblanks : ∀ c ∈ "\u3000\t".toList, Text.isBlank c = true :=
    List.all_eq_true.mp (by decide)
  have hparse : AstPath.parse " Bogus.type 0" = .error ⟨.astPath, " Bogus.type 0", 5⟩ := by
    decide +kernel
  obtain ⟨⟨e', he', hoffset, -⟩, -⟩ :=
    parse_behind_blanks " Bogus.type 0" "\u3000\t" _ hblanks hparse
  exact ⟨hblanks, hparse, e', he', hoffset⟩

/-- **A blank in front is not counted.** -/
theorem blank_not_counted :
    (∀ c ∈ " ".toList, Text.isBlank c = true)
      ∧ AstPath.parse "Bogus.type 0" = .error ⟨.astPath, "Bogus.type 0", 5⟩
      ∧ AstPath.parse (" " ++ "Bogus.type 0") = .error ⟨.astPath, " Bogus.type 0", 5⟩
      ∧ 5 ≠ 5 + " ".utf8ByteSize :=
  ⟨List.all_eq_true.mp (by decide), by decide +kernel, by decide +kernel, by decide⟩

end AstPath

end AnnotationPlan
