import AnnotationPlan.Proofs.Location.Takes

/-!
# Which texts are places, bounds, supertypes and local variables

The places of expressions, bounds, supertypes and local variables are put together from numbers and
signs that stand between them; only a local variable may have a name in front. Each number takes all
the digits there are, and no sign is a digit or part of a name, so the parts of a text are found one
after another in one way only. The texts that are read as such a location are the ones that the
grammar has for it (`RelativeLocation.parse_eq_ok_iff`, `BoundLocation.parse_eq_ok_iff`,
`SupertypeLocation.parse_eq_ok_iff`, `LocalLocation.parse_eq_ok_iff`).
-/

namespace AnnotationPlan

open Location Location.Scan

variable {cs : List Char}

/-! ## Places of expressions -/

namespace RelativeLocation

variable {l : RelativeLocation} {a : RelativeAnchor} {n : UInt32}

/-- **An anchor is read** from whatever is written for it. -/
theorem anchor_reads (h : a.Written cs) :
    Reads (orElse scanOffset scanIndex) cs a (Stops Char.isDigit) := by
  cases h with
  | offset digits =>
    refine Reads.orElse_left ?_ scanIndex
    unfold scanOffset
    exact (Reads.char '#').bind ((Reads.digits digits).map _) (fun _ _ => trivial)
  | index digits =>
    refine Reads.orElse_right ?_ (fun _ => ⟨_, rfl⟩)
    unfold scanIndex
    exact (Reads.char '*').bind ((Reads.digits digits).map _) (fun _ _ => trivial)

/-- **Only what is written for an anchor** is taken for it. -/
theorem anchor_takes : Takes (orElse scanOffset scanIndex) (fun cs a => a.Written cs) := by
  refine Takes.orElse (fun h => ?_) (fun h => ?_)
  · obtain ⟨digits, n, _, rfl, hdigits, hpure⟩ := signed_eq_ok h
    cases hpure
    exact ⟨'#' :: digits, rfl, .offset hdigits⟩
  · obtain ⟨digits, n, _, rfl, hdigits, hpure⟩ := signed_eq_ok h
    cases hpure
    exact ⟨'*' :: digits, rfl, .index hdigits⟩

/-- The number of a type is read with the comma before it. -/
theorem typeIndex_reads (digits : Digits cs n.toNat) :
    Reads scanTypeIndex (',' :: cs) n (Stops Char.isDigit) := by
  unfold scanTypeIndex
  exact (Reads.char ',').bind (Reads.digits digits) (fun _ _ => trivial)

/-- The number of a type is taken with the comma before it. -/
theorem typeIndex_takes :
    Takes scanTypeIndex (fun cs n => ∃ ds, cs = ',' :: ds ∧ Digits ds n.toNat) := by
  intro cs rest n h
  obtain ⟨_, _, hcomma, hn⟩ := sequence_eq_ok h
  obtain rfl := char_eq_ok hcomma
  obtain ⟨digits, rfl, hdigits⟩ := natural_takes hn
  exact ⟨',' :: digits, rfl, digits, rfl, hdigits⟩

/-- The place of an expression is read from whatever is written for it. -/
theorem scan_written (h : l.Written cs) : scan cs = .ok (l, []) := by
  unfold scan
  cases h with
  | plain anchor =>
    rw [← List.append_nil cs]
    exact (anchor_reads anchor).before_end (.nil _) rfl
  | typeIndex anchor digits =>
    exact (anchor_reads anchor).before_end (.cons rfl _)
      (((typeIndex_reads digits).optional_some.map _).at_end (.nil _))

/-- Only what is written for the place of an expression is taken for it. -/
theorem scan_takes : Takes scan (fun cs l => RelativeLocation.Written cs l) := by
  intro cs rest l h
  obtain ⟨a, _, ha, hnumber⟩ := sequence_eq_ok h
  obtain ⟨n, _, hn, hpure⟩ := sequence_eq_ok hnumber
  obtain ⟨anchor, rfl, hanchor⟩ := anchor_takes ha
  cases hpure
  rcases optional_eq_ok hn with ⟨n, rfl, hindex⟩ | ⟨rfl, rfl⟩
  · obtain ⟨_, rfl, digits, rfl, hdigits⟩ := typeIndex_takes hindex
    exact ⟨anchor ++ ',' :: digits, by simp, .typeIndex hanchor hdigits⟩
  · exact ⟨anchor, rfl, .plain hanchor⟩

/-- **The texts of the places of expressions.** -/
theorem parse_eq_ok_iff {s : String} {l : RelativeLocation} :
    RelativeLocation.parse s = .ok l ↔ l.Written s.toList :=
  scan_takes.parse_eq_ok_iff scan_written

end RelativeLocation

/-! ## Bounds and supertypes -/

namespace BoundLocation

/-- A bound is read from whatever is written for it. -/
theorem scan_written {l : BoundLocation} (h : l.Written cs) : scan cs = .ok (l, []) := by
  unfold scan
  cases h with
  | mk digits number =>
    refine (Reads.digits digits).before_end (.cons rfl _) ?_
    exact (Reads.char '&').before_end trivial (((Reads.decimal number).map _).at_end (.nil _))

/-- Only what is written for a bound is taken for it. -/
theorem scan_takes : Takes scan (fun cs l => BoundLocation.Written cs l) := by
  intro cs rest l h
  obtain ⟨parameter, _, hparameter, h⟩ := sequence_eq_ok h
  obtain ⟨_, _, hsign, h⟩ := sequence_eq_ok h
  obtain ⟨bound, _, hbound, hpure⟩ := sequence_eq_ok h
  obtain ⟨digits, rfl, hdigits⟩ := natural_takes hparameter
  obtain rfl := char_eq_ok hsign
  obtain ⟨number, rfl, hnumber⟩ := integer_takes hbound
  cases hpure
  exact ⟨digits ++ '&' :: number, by simp, .mk hdigits hnumber⟩

/-- **The texts of bounds.** -/
theorem parse_eq_ok_iff {s : String} {l : BoundLocation} :
    BoundLocation.parse s = .ok l ↔ l.Written s.toList :=
  scan_takes.parse_eq_ok_iff scan_written

end BoundLocation

namespace SupertypeLocation

/-- A supertype is read from whatever is written for it. -/
theorem scan_written {l : SupertypeLocation} (h : l.Written cs) : scan cs = .ok (l, []) := by
  unfold scan
  cases h with
  | mk number => exact ((Reads.decimal number).map _).at_end (.nil _)

/-- Only what is written for a supertype is taken for it. -/
theorem scan_takes : Takes scan (fun cs l => SupertypeLocation.Written cs l) := by
  intro cs rest l h
  obtain ⟨index, _, hindex, hpure⟩ := sequence_eq_ok h
  obtain ⟨number, rfl, hnumber⟩ := integer_takes hindex
  cases hpure
  exact ⟨number, rfl, .mk hnumber⟩

/-- **The texts of supertypes.** -/
theorem parse_eq_ok_iff {s : String} {l : SupertypeLocation} :
    SupertypeLocation.parse s = .ok l ↔ l.Written s.toList :=
  scan_takes.parse_eq_ok_iff scan_written

end SupertypeLocation

/-! ## Local variables -/

namespace LocalLocation

variable {l : LocalLocation}

/-- A name does not begin with the sign of a slot. -/
theorem scanScoped_error {rest : List Char} (hne : cs ≠ [])
    (hname : ∀ c ∈ cs, isNameChar c = true) : ∃ e, scanScoped (cs ++ rest) = .error e := by
  have hstops : Stops (· == '#') cs := fun c hc => by
    rw [beq_eq_false_iff_ne]
    rintro rfl
    exact absurd (hname '#' (List.mem_of_mem_head? hc)) (by decide)
  exact bind_error (char_error (hstops.append hne rest))

/-- A local variable is read from whatever is written for it. -/
theorem scan_written (h : l.Written cs) : orElse scanScoped scanNamed cs = .ok (l, []) := by
  cases h with
  | @«scoped» cs ds es index start length slot first size =>
    have hread : scanScoped ('#' :: (cs ++ '#' :: (ds ++ '+' :: es)))
        = .ok (.scoped index start length, []) := by
      unfold scanScoped
      refine (Reads.char '#').before_end trivial ?_
      refine (Reads.digits slot).before_end (.cons rfl _) ?_
      refine (Reads.char '#').before_end trivial ?_
      refine (Reads.digits first).before_end (.cons rfl _) ?_
      refine (Reads.char '+').before_end trivial ?_
      exact ((Reads.digits size).map _).at_end (.nil _)
    rw [orElse, hread]
  | named nonempty isName digits =>
    obtain ⟨e, he⟩ := scanScoped_error nonempty isName
    rw [orElse, he]
    unfold scanNamed
    refine (Reads.run nonempty isName).before_end (.cons (by decide) _) ?_
    exact (Reads.char '*').before_end trivial (((Reads.digits digits).map _).at_end (.nil _))

/-- Only what is written for a local variable is taken for it. -/
theorem scan_takes :
    Takes (orElse scanScoped scanNamed) (fun cs l => LocalLocation.Written cs l) := by
  refine Takes.orElse (fun h => ?_) (fun h => ?_)
  · obtain ⟨slot, index, _, rfl, hslot, h⟩ := signed_eq_ok h
    obtain ⟨first, start, _, rfl, hfirst, h⟩ := signed_eq_ok h
    obtain ⟨size, length, _, rfl, hsize, hpure⟩ := signed_eq_ok h
    cases hpure
    exact ⟨_, by simp, .scoped hslot hfirst hsize⟩
  · obtain ⟨name, _, hname, hnumber⟩ := sequence_eq_ok h
    obtain ⟨rfl, hne, hall⟩ := run_eq_ok hname
    obtain ⟨digits, ordinal, _, rfl, hdigits, hpure⟩ := signed_eq_ok hnumber
    cases hpure
    exact ⟨name ++ '*' :: digits, by simp, .named hne hall hdigits⟩

/-- **The texts of local variables.** -/
theorem parse_eq_ok_iff {s : String} {l : LocalLocation} :
    LocalLocation.parse s = .ok l ↔ l.Written s.toList :=
  scan_takes.parse_eq_ok_iff scan_written

end LocalLocation

end AnnotationPlan
