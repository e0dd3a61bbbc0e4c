import AnnotationPlan.Proofs.AnnotationUse.Sameness
import AnnotationPlan.Synthesis.Draft
import Mathlib.Data.List.Perm.Basic

/-!
# The order of the annotations on a position

The annotations on a position are written one after another, and one that is there already
is not written a second time. Which of several that are the same is kept depends on their
order, and so does the order of those that are kept. But how many are kept does not, nor on
how many of them stand on types only (`Formatter.exists_notes_of_perm`): two annotations of
which one stands for the other are of one definition, and they stand for the same others.

This takes a sameness that is symmetric, so the annotations have to set each field once.
It need not be reflexive. An annotation with a value that differs from itself is not the
same as any other one, and is written as often as it is there.

The first annotation that is written is the first one on the position, whatever follows.
-/

namespace AnnotationPlan

namespace Note

/-- **One note stands for another**: it is of the same use, with the same text. -/
def covers (m n : Note) : Bool := m.text == n.text && m.use.same n.use

/-- Put a note behind others, unless one of them stands for it. -/
def addTo (notes : List Note) (n : Note) : List Note :=
  if notes.any (·.covers n) then notes else notes ++ [n]

theorem covers_trans {m n k : Note} (hmn : m.covers n = true) (hnk : n.covers k = true) :
    m.covers k = true := by
  simp only [covers, Bool.and_eq_true, beq_iff_eq] at hmn hnk ⊢
  exact ⟨hmn.1.trans hnk.1, FieldValue.same_trans (x := .nested m.use) (y := .nested n.use)
    (z := .nested k.use) hmn.2 hnk.2⟩

/-- **A note that is well-formed**: its use sets each field once, and whether it stands on
types only is a matter of its definition. -/
structure IsOf (typeOnly : String → Bool) (n : Note) : Prop where
  isDistinct : (FieldValue.nested n.use).IsDistinct
  typeOnly_eq : n.typeOnly = typeOnly n.use.definition

section Covering

variable {typeOnly : String → Bool} {m n : Note}

theorem covers_symm (hm : m.IsOf typeOnly) (hn : n.IsOf typeOnly) (h : m.covers n = true) :
    n.covers m = true := by
  simp only [covers, Bool.and_eq_true, beq_iff_eq] at h ⊢
  exact ⟨h.1.symm, FieldValue.same_symm hm.isDistinct hn.isDistinct h.2⟩

theorem typeOnly_of_covers (hm : m.IsOf typeOnly) (hn : n.IsOf typeOnly)
    (h : m.covers n = true) : m.typeOnly = n.typeOnly := by
  simp only [covers, Bool.and_eq_true] at h
  rw [hm.typeOnly_eq, hn.typeOnly_eq]
  obtain ⟨_, _, _, ⟨name, values⟩⟩ := m
  obtain ⟨_, _, _, ⟨name', values'⟩⟩ := n
  exact congrArg typeOnly (AnnotationUse.same_iff.mp h.2).1

end Covering

/-- **What counts of a note among others**: whether it stands on types only, and for which of
the others it stands. -/
def profile (all : List Note) (n : Note) : Bool × List Bool := (n.typeOnly, all.map n.covers)

section Profiles

variable {all notes notes' ns ns' : List Note} {n : Note}

/-- Whether a note is stood for is told by the profiles. -/
theorem any_covers_of_perm (h : (notes.map (profile all)).Perm (notes'.map (profile all)))
    (hn : n ∈ all) : notes.any (·.covers n) = notes'.any (·.covers n) := by
  have hone : ∀ {notes notes' : List Note},
      (notes.map (profile all)).Perm (notes'.map (profile all)) →
      notes.any (·.covers n) = true → notes'.any (·.covers n) = true := by
    intro notes notes' h hany
    obtain ⟨m, hm, hcovers⟩ := List.any_eq_true.mp hany
    obtain ⟨k, hk, hprofile⟩ := List.mem_map.mp (h.mem_iff.mp (List.mem_map_of_mem hm))
    have hrow := List.map_inj_left.mp (congrArg Prod.snd hprofile) n hn
    exact List.any_eq_true.mpr ⟨k, hk, hrow.trans hcovers⟩
  exact Bool.eq_iff_iff.mpr ⟨hone h, hone h.symm⟩

theorem addTo_perm (h : (notes.map (profile all)).Perm (notes'.map (profile all)))
    (hn : n ∈ all) :
    ((addTo notes n).map (profile all)).Perm ((addTo notes' n).map (profile all)) := by
  unfold addTo
  rw [any_covers_of_perm h hn]
  split
  · exact h
  · rw [List.map_append, List.map_append]
    exact h.append_right _

theorem foldl_addTo_perm (h : (notes.map (profile all)).Perm (notes'.map (profile all)))
    (hns : ns ⊆ all) :
    ((ns.foldl addTo notes).map (profile all)).Perm
      ((ns.foldl addTo notes').map (profile all)) := by
  induction ns generalizing notes notes' with
  | nil => exact h
  | cons n rest ih =>
    obtain ⟨hn, hrest⟩ := List.cons_subset.mp hns
    exact ih (addTo_perm h hn) hrest

/-- Two notes of which one stands for the other count the same. -/
theorem profile_eq_of_covers {typeOnly : String → Bool} (hall : ∀ n ∈ all, n.IsOf typeOnly)
    {m n : Note} (hm : m ∈ all) (hn : n ∈ all) (h : m.covers n = true) :
    m.profile all = n.profile all := by
  have hback := covers_symm (hall m hm) (hall n hn) h
  refine Prod.ext (typeOnly_of_covers (hall m hm) (hall n hn) h) ?_
  refine List.map_congr_left (fun k _ => Bool.eq_iff_iff.mpr ⟨fun hk => ?_, fun hk => ?_⟩)
  · exact covers_trans hback hk
  · exact covers_trans h hk

/-- **Two notes put behind others** in either order. -/
theorem addTo_addTo_perm {typeOnly : String → Bool} (hall : ∀ n ∈ all, n.IsOf typeOnly)
    {m n : Note} (hm : m ∈ all) (hn : n ∈ all) (notes : List Note) :
    ((addTo (addTo notes m) n).map (profile all)).Perm
      ((addTo (addTo notes n) m).map (profile all)) := by
  have hsymm : m.covers n = n.covers m := Bool.eq_iff_iff.mpr
    ⟨covers_symm (hall m hm) (hall n hn), covers_symm (hall n hn) (hall m hm)⟩
  cases hkeeps : notes.any (·.covers m) with
  | true => cases hkeeps' : notes.any (·.covers n) <;> simp [addTo, hkeeps, hkeeps']
  | false =>
    cases hkeeps' : notes.any (·.covers n) with
    | true => simp [addTo, hkeeps, hkeeps']
    | false =>
      cases hcovers : m.covers n with
      | true =>
        -- only the first of the two is kept, and it counts the same as the other one
        have hprofile := profile_eq_of_covers hall hm hn hcovers
        simp [addTo, hkeeps, hkeeps', hcovers, ← hsymm, hprofile]
      | false =>
        simp only [addTo, hkeeps, hkeeps', hcovers, ← hsymm, List.any_append, List.any_cons,
          List.any_nil, Bool.or_false, Bool.false_eq_true, if_false, List.map_append,
          List.append_assoc]
        exact (List.Perm.swap _ _ _).append_left _

/-- **What is kept of notes in another order counts the same.** -/
theorem perm_foldl_addTo {typeOnly : String → Bool} (hall : ∀ n ∈ all, n.IsOf typeOnly)
    (h : ns.Perm ns') (hns : ns ⊆ all) (notes : List Note) :
    ((ns.foldl addTo notes).map (profile all)).Perm
      ((ns'.foldl addTo notes).map (profile all)) := by
  induction h generalizing notes with
  | nil => exact .refl _
  | cons n _ ih => exact ih (List.cons_subset.mp hns).2 (addTo notes n)
  | swap m n rest =>
    obtain ⟨hn, hns⟩ := List.cons_subset.mp hns
    obtain ⟨hm, hrest⟩ := List.cons_subset.mp hns
    exact foldl_addTo_perm (addTo_addTo_perm hall hn hm notes) hrest
  | trans hperm _ ih ih' =>
    exact (ih hns notes).trans (ih' (List.Subset.trans hperm.symm.subset hns) notes)

/-- The first note is kept. -/
theorem head?_foldl_addTo (ns : List Note) : (ns.foldl addTo []).head? = ns.head? := by
  have hprefix : ∀ (ns : List Note) (n : Note) (rest : List Note),
      (ns.foldl addTo (n :: rest)).head? = some n := by
    intro ns
    induction ns with
    | nil => exact fun n rest => rfl
    | cons m more ih =>
      intro n rest
      rw [List.foldl_cons, addTo]
      split
      · exact ih n rest
      · exact ih n (rest ++ [m])
  cases ns with
  | nil => rfl
  | cons n rest => exact hprefix rest n []

end Profiles

end Note

namespace Formatter

variable {f : Formatter} {place : CriteriaList} {uses uses' : List AnnotationUse}
  {notes notes' : List Note}

/-- The note of an annotation use. -/
def note (f : Formatter) (u : AnnotationUse) : Except PlanError Note := do
  let written ← f.format u
  let d ← f.definition u
  pure ⟨written.text, written.imports, d.isTypeOnly, u⟩

theorem addNote_eq (f : Formatter) (notes : List Note) (u : AnnotationUse) :
    f.addNote notes u = (f.note u).map (Note.addTo notes) := by
  unfold addNote note
  cases f.format u with
  | error e => rfl
  | ok written =>
    cases f.definition u with
    | error e => rfl
    | ok d =>
      show (if notes.any (fun n => n.text == written.text && n.use.same u) then _ else _)
        = Except.ok (Note.addTo notes ⟨written.text, written.imports, d.isTypeOnly, u⟩)
      unfold Note.addTo
      split
      case isTrue h => exact congrArg Except.ok (if_pos h).symm
      case isFalse h => exact congrArg Except.ok (if_neg h).symm

/-- The notes of those of several annotation uses that can be written. -/
def candidates (f : Formatter) (uses : List AnnotationUse) : List Note :=
  uses.filterMap (fun u => (f.note u).toOption)

theorem foldlM_addNote_eq_ok : uses.foldlM f.addNote notes = .ok notes' ↔
    (∀ u ∈ uses, ∃ n, f.note u = .ok n) ∧ notes' = (f.candidates uses).foldl Note.addTo notes := by
  induction uses generalizing notes with
  | nil => simp [candidates, pure, Except.pure, eq_comm]
  | cons u rest ih =>
    rw [List.foldlM_cons, addNote_eq, List.forall_mem_cons]
    cases hu : f.note u with
    | error e =>
      refine ⟨fun h => (by cases h), fun h => ?_⟩
      obtain ⟨n, hn⟩ := h.1.1
      cases hn
    | ok n =>
      have hcandidates : f.candidates (u :: rest) = n :: f.candidates rest := by
        simp [candidates, hu, Except.toOption]
      rw [hcandidates, List.foldl_cons]
      show rest.foldlM f.addNote (Note.addTo notes n) = .ok notes' ↔ _
      rw [ih]
      exact and_congr_left (fun _ => ⟨fun h => ⟨⟨n, rfl⟩, h⟩, fun h => h.2⟩)

/-- **The annotations on a position can be written** if each of them can, and then those that
no earlier one stands for are. -/
theorem notes_eq_ok : f.notes place uses = .ok notes ↔
    (∀ u ∈ uses, ∃ n, f.note u = .ok n) ∧ notes = (f.candidates uses).foldl Note.addTo [] := by
  rw [← foldlM_addNote_eq_ok]
  unfold Formatter.notes
  cases uses.foldlM f.addNote [] with
  | ok all => rfl
  | error e => exact ⟨fun h => (by cases h), fun h => (by cases h)⟩

/-- Whether the annotations of a definition stand on types only. -/
def isTypeOnly (f : Formatter) (name : String) : Bool :=
  ((f.definitions.get? name).map Definition.isTypeOnly).getD false

/-- **Whether the first of several annotations stands on types only**, if there is one. -/
def firstTypeOnly? (f : Formatter) (uses : List AnnotationUse) : Option Bool :=
  uses.head?.map (fun u => f.isTypeOnly u.definition)

/-- A note is that of its use. -/
theorem note_spec {u : AnnotationUse} {n : Note} (h : f.note u = .ok n) :
    n.use = u ∧ n.typeOnly = f.isTypeOnly u.definition := by
  unfold note at h
  obtain ⟨written, -, h⟩ := bind_eq_ok.mp h
  obtain ⟨d, hd, h⟩ := bind_eq_ok.mp h
  cases h
  refine ⟨rfl, ?_⟩
  unfold definition at hd
  unfold isTypeOnly
  cases hget : f.definitions.get? u.definition with
  | none =>
    rw [hget] at hd
    cases hd
  | some d' =>
    rw [hget] at hd
    cases hd
    rfl

/-- The first note is that of the first annotation. -/
theorem head?_notes (h : f.notes place uses = .ok notes) :
    notes.head?.map Note.typeOnly = f.firstTypeOnly? uses := by
  obtain ⟨hall, rfl⟩ := notes_eq_ok.mp h
  rw [Note.head?_foldl_addTo]
  cases uses with
  | nil => rfl
  | cons u rest =>
    obtain ⟨n, hn⟩ := hall u List.mem_cons_self
    simp [candidates, firstTypeOnly?, hn, Except.toOption, (note_spec hn).2]

/-- **The annotations on a position in another order** can be written as well, and there are
as many that stand on types only, and as many others. -/
theorem exists_notes_of_perm (h : f.notes place uses = .ok notes) (hperm : uses.Perm uses')
    (hdistinct : ∀ u ∈ uses, (FieldValue.nested u).IsDistinct) :
    ∃ notes', f.notes place uses' = .ok notes'
      ∧ (notes.map Note.typeOnly).Perm (notes'.map Note.typeOnly) := by
  obtain ⟨hall, rfl⟩ := notes_eq_ok.mp h
  refine ⟨_, notes_eq_ok.mpr ⟨fun u hu => hall u (hperm.mem_iff.mpr hu), rfl⟩, ?_⟩
  have hof : ∀ n ∈ f.candidates uses, n.IsOf f.isTypeOnly := by
    intro n hn
    obtain ⟨u, hu, hnote⟩ := List.mem_filterMap.mp hn
    obtain ⟨m, hm⟩ := hall u hu
    rw [hm] at hnote
    obtain rfl : m = n := Option.some.inj hnote
    obtain ⟨rfl, htypeOnly⟩ := note_spec hm
    exact ⟨hdistinct _ hu, htypeOnly⟩
  have hprofiles := Note.perm_foldl_addTo hof
    (hperm.filterMap (fun u => (f.note u).toOption)) (List.Subset.refl _) []
  have hflags := hprofiles.map Prod.fst
  rwa [List.map_map, List.map_map] at hflags

end Formatter

end AnnotationPlan
