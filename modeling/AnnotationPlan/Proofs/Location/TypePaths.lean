import AnnotationPlan.Proofs.Location.Takes

/-!
# Which texts are type paths

A text is a type path exactly if it is a row of steps, and then it is the path with these
steps. If it is none, the error names the number of bytes of the longest row that the text
begins with: behind it no step begins (`TypePath.parse_row`).

A step ends with a sign of its own, so nothing that comes behind it changes how it is read. This
is why the steps that are taken one by one make up the longest row, and why no text is a row of
steps in two ways.
-/

namespace AnnotationPlan

namespace Location

/-- The number of bytes of a text. -/
theorem byteLength_eq (cs : List Char) : byteLength cs = (String.ofList cs).utf8ByteSize := by
  induction cs with
  | nil => rfl
  | cons c cs ih =>
    rw [String.ofList_cons, String.utf8ByteSize_append, String.utf8ByteSize_singleton, ← ih]
    rfl

theorem byteLength_append (cs ds : List Char) :
    byteLength (cs ++ ds) = byteLength cs + byteLength ds := by
  simp only [byteLength_eq, String.ofList_append, String.utf8ByteSize_append]

end Location

open Location Location.Scan

namespace TypePath

variable {cs : List Char} {s : Step}

theorem Step.Written.ne_nil (h : Step.Written cs s) : cs ≠ [] := by
  cases h with
  | array => exact List.cons_ne_nil _ _
  | inner => exact List.cons_ne_nil _ _
  | wildcard => exact List.cons_ne_nil _ _
  | argument => exact List.append_ne_nil_of_right_ne_nil _ (List.cons_ne_nil _ _)

/-- A step that is none of the single characters is an argument. -/
theorem scanStep_of_natural {rest : List Char} {n : UInt32}
    (h : Stops (fun c => !c.isDigit) cs) (hcs : natural cs = .ok (n, ';' :: rest))
    (hn : n.toNat < UInt8.size) : scanStep cs = .ok (.argument n.toUInt8, rest) := by
  unfold scanStep
  split
  case h_1 => cases h '[' rfl
  case h_2 => cases h '.' rfl
  case h_3 => cases h '*' rfl
  case h_4 =>
    rw [hcs]
    exact if_pos hn

/-- **A step is read** from whatever is written for it. -/
theorem scanStep_reads (h : Step.Written cs s) : Reads scanStep cs s Anything := by
  intro rest _
  cases h with
  | array => rfl
  | inner => rfl
  | wildcard => rfl
  | @argument cs i digits =>
    have hvalue : i.toUInt32.toNat = i.toNat := UInt8.toNat_toUInt32 i
    have hnatural := Reads.digits (n := i.toUInt32) (hvalue ▸ digits) (';' :: rest) (.cons rfl rest)
    have hstart : Stops (fun c => !c.isDigit) (cs ++ ';' :: rest) :=
      (digits.stops (fun c hc => by rw [hc]; rfl)).append digits.ne_nil _
    rw [List.append_assoc, List.singleton_append]
    refine (scanStep_of_natural hstart hnatural ?_).trans ?_
    · rw [hvalue]
      exact i.toNat_lt
    · rw [UInt8.toUInt8_toUInt32]

/-- **Only what is written for a step** is taken for it. -/
theorem scanStep_takes : Takes scanStep Step.Written := by
  intro cs rest s h
  unfold scanStep at h
  split at h
  case h_1 =>
    cases h
    exact ⟨['['], rfl, .array⟩
  case h_2 =>
    cases h
    exact ⟨['.'], rfl, .inner⟩
  case h_3 =>
    cases h
    exact ⟨['*'], rfl, .wildcard⟩
  case h_4 =>
    split at h
    case h_1 n more hnatural =>
      split at h
      case isTrue hn =>
        cases h
        obtain ⟨digits, rfl, hdigits⟩ := natural_takes hnatural
        have hvalue : n.toUInt8.toNat = n.toNat := by
          rw [UInt32.toNat_toUInt8]
          exact Nat.mod_eq_of_lt hn
        exact ⟨digits ++ [';'], by simp, .argument (hvalue ▸ hdigits)⟩
      case isFalse => cases h
    case h_2 => cases h

/-- A row of steps is read to its end. -/
theorem scan_row {steps : List Step} (h : Row Step.Written cs steps) :
    scan cs = .ok (⟨steps⟩, []) :=
  Reads.many (t := scanStep) ⟨_, rfl⟩ scanStep_reads Step.Written.ne_nil (fun _ => trivial) h
    TypePath.mk

/-- **The longest row of steps** is taken. -/
theorem scan_longest (cs : List Char) :
    ∃ front rest steps, cs = front ++ rest ∧ scan cs = .ok (⟨steps⟩, rest)
      ∧ Row Step.Written front steps ∧ IsLongestRow Step.Written front cs := by
  obtain ⟨front, rest, steps, hcs, hmany, hrow, hlongest⟩ :=
    many_longest scanStep_reads scanStep_takes Step.Written.ne_nil cs
  refine ⟨front, rest, steps, hcs, ?_, hrow, hlongest⟩
  show (many scanStep cs >>= fun r => (pure ⟨r.1⟩ : Scan TypePath) r.2) = _
  rw [hmany]
  rfl

/-- **Only a row of steps** is taken for a path. -/
theorem scan_takes : Takes scan (fun cs p => Row Step.Written cs p.steps) := by
  intro cs rest p h
  obtain ⟨front, behind, steps, hcs, hscan, hrow, -⟩ := scan_longest cs
  obtain ⟨rfl, rfl⟩ := Prod.mk.inj (Except.ok.inj (hscan.symm.trans h))
  exact ⟨front, hcs, hrow⟩

/-- **The type paths are the rows of steps.** A text is read as a path exactly if it is a row of
its steps. A text that is no row of steps is an error, and the message names the number of bytes
of the longest row of steps at its front. -/
theorem parse_row (s : String) :
    (∀ p, TypePath.parse s = .ok p ↔ Row Step.Written s.toList p.steps)
      ∧ ((∀ steps, ¬ Row Step.Written s.toList steps) →
          ∃ front e, IsLongestRow Step.Written front s.toList ∧ TypePath.parse s = .error e
            ∧ e.message = "invalid type path '" ++ s ++ "': unexpected input at offset "
              ++ (String.ofList front).utf8ByteSize.repr) := by
  obtain ⟨front, rest, steps, hcs, hscan, hrow, hlongest⟩ := scan_longest s.toList
  refine ⟨fun p => parse_eq_ok_iff.trans ⟨fun h => ?_, scan_row⟩, fun hnone => ?_⟩
  · obtain ⟨rfl, rfl⟩ := Prod.mk.inj (Except.ok.inj (hscan.symm.trans h))
    rw [hcs, List.append_nil]
    exact hrow
  · have hrest : rest ≠ [] := by
      rintro rfl
      rw [List.append_nil] at hcs
      exact hnone steps (hcs ▸ hrow)
    obtain ⟨c, rest, rfl⟩ := List.exists_cons_of_ne_nil hrest
    refine ⟨front, ⟨.typePath, s, byteLength front⟩, hlongest, ?_, ?_⟩
    · rw [TypePath.parse, Scan.parse, hscan]
      dsimp only
      rw [hcs, byteLength_append, Nat.add_sub_cancel]
    · rw [← byteLength_eq]
      rfl

/-- A number that is too large ends the path before it, where the bytes are counted and not the
characters behind. -/
theorem parse_row_tooLarge :
    (∀ steps, ¬ Row Step.Written "007;[*256;é".toList steps)
      ∧ ∃ front e, IsLongestRow Step.Written front "007;[*256;é".toList
        ∧ TypePath.parse "007;[*256;é" = .error e
        ∧ e.message = "invalid type path '" ++ "007;[*256;é"
          ++ "': unexpected input at offset " ++ (String.ofList front).utf8ByteSize.repr := by
  have hnone : ∀ steps, ¬ Row Step.Written "007;[*256;é".toList steps := by
    intro steps h
    have hok := ((parse_row "007;[*256;é").1 ⟨steps⟩).mpr h
    have herror : TypePath.parse "007;[*256;é" = .error ⟨.typePath, "007;[*256;é", 6⟩ := by
      decide +kernel
    rw [herror] at hok
    cases hok
  exact ⟨hnone, (parse_row "007;[*256;é").2 hnone⟩

end TypePath

end AnnotationPlan
