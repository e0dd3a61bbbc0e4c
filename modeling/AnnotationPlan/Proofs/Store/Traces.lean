import AnnotationPlan.Proofs.AnnotationUse.Sameness
import AnnotationPlan.Proofs.Store.Append
import AnnotationPlan.Proofs.Store.Wiring
import Mathlib.Data.Set.Insert

/-!
# The texts of sources

Where an insertion comes from is recorded as annotation uses, and what it says is a text.
Both are kept without repeats, but not in the same way: a use is left out if it is the same
as one that is there, a text if it is equal to one. For uses without floating-point numbers
(`AnnotationUse.IsExact`) this makes no difference. A use that is left out is written as the
one that is there, so recording a use adds its text to those that the sources are written
as, be the use left out or not (`Sources.texts_put`).

An insertion is **traced** by its sources (`Insertion.IsTracedBy`) if what it says is what
these are written as.
-/

namespace AnnotationPlan

/-- **A use without floating-point numbers**, with annotations that set each field once. -/
structure AnnotationUse.IsExact (u : AnnotationUse) : Prop where
  /-- No value in it is a floating-point number. -/
  floatFree : (FieldValue.nested u).IsFloatFree
  /-- No annotation in it sets a field twice. -/
  distinct : (FieldValue.nested u).IsDistinct

namespace Formatter

/-- **A use is written as a text.** -/
def WritesAs (f : Formatter) (u : AnnotationUse) (t : String) : Prop :=
  ∃ imports, f.format u = .ok ⟨t, imports⟩

theorem WritesAs.unique {f : Formatter} {u : AnnotationUse} {t t' : String}
    (h : f.WritesAs u t) (h' : f.WritesAs u t') : t = t' := by
  obtain ⟨imports, h⟩ := h
  obtain ⟨imports', h'⟩ := h'
  exact congrArg Formatted.text (Except.ok.inj (h.symm.trans h'))

/-- **A source as runs on exact uses record them**: it is exact and can be written. -/
def IsSource (f : Formatter) (u : AnnotationUse) : Prop :=
  u.IsExact ∧ ∃ t, f.WritesAs u t

/-- **The texts that uses are written as.** -/
def textsOf (f : Formatter) (uses : List AnnotationUse) : Set String :=
  {t | ∃ u ∈ uses, f.WritesAs u t}

variable {f : Formatter} {uses : List AnnotationUse} {u : AnnotationUse} {t : String}

@[simp] theorem textsOf_nil (f : Formatter) : f.textsOf [] = ∅ :=
  Set.eq_empty_of_forall_notMem (fun _ ⟨_, hu, _⟩ => absurd hu List.not_mem_nil)

/-- One more use adds its text. -/
theorem textsOf_concat (uses : List AnnotationUse) (hu : f.WritesAs u t) :
    f.textsOf (uses ++ [u]) = insert t (f.textsOf uses) := by
  ext t'
  constructor
  · rintro ⟨v, hv, hwrites⟩
    rcases List.mem_append.mp hv with hv | hv
    · exact .inr ⟨v, hv, hwrites⟩
    · obtain rfl := List.mem_singleton.mp hv
      exact .inl (hwrites.unique hu)
  · rintro (rfl | ⟨v, hv, hwrites⟩)
    · exact ⟨u, List.mem_append_right _ List.mem_cons_self, hu⟩
    · exact ⟨v, List.mem_append_left _ hv, hwrites⟩

/-- **A use that is left out is written as one that is there.** -/
theorem textsOf_addTo (huses : ∀ v ∈ uses, f.IsSource v) (hu : f.WritesAs u t) :
    f.textsOf (AnnotationUse.addTo uses u) = insert t (f.textsOf uses) := by
  unfold AnnotationUse.addTo
  split
  case isTrue hany =>
    obtain ⟨v, hv, hsame⟩ := List.any_eq_true.mp hany
    obtain ⟨hexact, t', imports, hformat⟩ := huses v hv
    have hwrites : f.WritesAs u t' :=
      ⟨imports, format_of_same hexact.floatFree hexact.distinct hsame hformat⟩
    obtain rfl := hu.unique hwrites
    have ht : t ∈ f.textsOf uses := ⟨v, hv, imports, hformat⟩
    exact (Set.insert_eq_of_mem ht).symm
  case isFalse => exact textsOf_concat uses hu

/-- Where there is no text there is no use. -/
theorem eq_nil_of_textsOf (huses : ∀ v ∈ uses, f.IsSource v) (h : f.textsOf uses = ∅) :
    uses = [] := by
  refine List.eq_nil_iff_forall_not_mem.mpr (fun u hu => ?_)
  obtain ⟨-, t, ht⟩ := huses u hu
  exact Set.notMem_empty t (h ▸ ⟨u, hu, ht⟩)

end Formatter

namespace Sources

variable {f : Formatter} {s : Sources} {n : Nat} {id j : InsertionId} {u : AnnotationUse}
  {t : String}

theorem get_put_self (s : Sources) (id : InsertionId) (u : AnnotationUse) :
    (s.put id u).get id = AnnotationUse.addTo (s.get id) u := by
  unfold get put
  rw [OrderedMap.find?_alter_self, Option.getD_some]

theorem get_put_of_ne (s : Sources) (h : j ≠ id) (u : AnnotationUse) :
    (s.put id u).get j = s.get j := by
  unfold get put
  rw [OrderedMap.find?_alter_of_ne _ h]

/-- Insertions that are yet to be made have no sources. -/
theorem Below.get_eq_nil (h : s.Below n) (hid : n ≤ id) : s.get id = [] := by
  unfold get
  cases hfind : s.byInsertion.find? id with
  | none => rfl
  | some uses =>
    have hkey : id ∈ s.byInsertion.keys := by
      refine (Entries.isSome_find?_iff id s.byInsertion.entries).mp ?_
      rw [show Entries.find? id s.byInsertion.entries = some uses from hfind]
      rfl
    exact absurd (h id hkey) (Nat.not_lt.mpr hid)

/-- **The texts of an insertion's sources.** -/
def texts (f : Formatter) (s : Sources) (id : InsertionId) : Set String := f.textsOf (s.get id)

/-- **All sources are as runs on exact uses record them.** -/
def AllSources (f : Formatter) (s : Sources) : Prop := ∀ id, ∀ u ∈ s.get id, f.IsSource u

theorem AllSources.put (h : s.AllSources f) (id : InsertionId) (hu : f.IsSource u) :
    (s.put id u).AllSources f := by
  intro j v hv
  by_cases hj : j = id
  · subst hj
    rw [get_put_self, AnnotationUse.addTo] at hv
    split at hv
    · exact h j v hv
    · rcases List.mem_append.mp hv with hv | hv
      · exact h j v hv
      · exact List.mem_singleton.mp hv ▸ hu
  · exact h j v (get_put_of_ne s hj u ▸ hv)

/-- **Recording a use** adds its text to those of the insertion. -/
theorem texts_put (h : s.AllSources f) (hu : f.WritesAs u t) (id j : InsertionId) :
    (s.put id u).texts f j = if j = id then insert t (s.texts f j) else s.texts f j := by
  unfold texts
  split
  case isTrue hj =>
    rw [hj, get_put_self]
    exact Formatter.textsOf_addTo (h id) hu
  case isFalse hj => rw [get_put_of_ne s hj]

/-- **Recording several uses.** All sources remain as they should be, and the texts of the
uses are added. -/
theorem texts_puts (id : InsertionId) :
    ∀ {uses : List AnnotationUse} {s : Sources}, s.AllSources f → (∀ u ∈ uses, f.IsSource u) →
      (uses.foldl (Sources.put · id) s).AllSources f
      ∧ ∀ j, (uses.foldl (Sources.put · id) s).texts f j
          = if j = id then s.texts f j ∪ f.textsOf uses else s.texts f j
  | [], s, h, _ => by
    refine ⟨h, fun j => ?_⟩
    rw [Formatter.textsOf_nil, Set.union_empty, ite_self]
    rfl
  | u :: rest, s, h, huses => by
    obtain ⟨hu, hrest⟩ := List.forall_mem_cons.mp huses
    obtain ⟨t, ht⟩ := hu.2
    obtain ⟨hall, htexts⟩ := texts_puts id (h.put id hu) hrest
    refine ⟨hall, fun j => ?_⟩
    rw [List.foldl_cons, htexts, texts_put h ht]
    split
    case isTrue =>
      ext t'
      constructor
      · rintro ((rfl | ht') | ⟨v, hv, hwrites⟩)
        · exact .inr ⟨u, List.mem_cons_self, ht⟩
        · exact .inl ht'
        · exact .inr ⟨v, List.mem_cons_of_mem u hv, hwrites⟩
      · rintro (ht' | ⟨v, hv, hwrites⟩)
        · exact .inl (.inr ht')
        · rcases List.mem_cons.mp hv with rfl | hv
          · exact .inl (.inl (hwrites.unique ht))
          · exact .inr ⟨v, hv, hwrites⟩
    case isFalse => rfl

end Sources

namespace Insertion

/-- **What an insertion says is what its sources are written as**: a single annotation is
that one text, and the type of a receiver or of a created object has these annotations and
no others. A closing parenthesis and a constructor have no sources. Of a cast nothing is
said. -/
def IsTracedBy (texts : Set String) : Insertion → Prop
  | single text _ _ => texts = {text}
  | receiver _ type _ => texts = {t | t ∈ type.annotations}
  | new _ type _ => texts = {t | t ∈ type.annotations}
  | closeParenthesis _ _ => texts = ∅
  | constructor _ _ _ _ => texts = ∅
  | cast _ _ _ => True

/-- An insertion that gathers annotations on its type. -/
def IsGathering : Insertion → Prop
  | cast .. => True
  | receiver .. => True
  | new .. => True
  | _ => False

theorem Grows.isGathering {i j : Insertion} (h : i.Grows j) (hi : i.IsGathering) :
    j.IsGathering := by
  cases h <;> exact hi

/-- One more annotation on the type goes with one more source. -/
theorem IsTracedBy.annotate {texts : Set String} {i : Insertion} (h : i.IsTracedBy texts)
    (hi : i.IsGathering) (t : String) :
    (i.mapType (JavaType.annotate t)).IsTracedBy (insert t texts) := by
  have hannotations : ∀ type : JavaType, texts = {t | t ∈ type.annotations} →
      insert t texts = {t' | t' ∈ (type.annotate t).annotations} := by
    rintro type rfl
    ext t'
    simp [or_comm]
  cases i with
  | cast criteria type separateLine => trivial
  | receiver criteria type inner => exact hannotations type h
  | new criteria type inner => exact hannotations type h
  | _ => exact hi.elim

/-- An annotation on the name of a constructor has its source elsewhere. -/
theorem IsTracedBy.annotate_constructor {texts : Set String} {i : Insertion}
    (h : i.IsTracedBy texts) (hi : i.IsConstructor) (t : String) :
    (i.mapType (JavaType.annotate t)).IsTracedBy texts := by
  cases i with
  | constructor criteria type receiver declarations => exact h
  | _ => exact hi.elim

end Insertion

end AnnotationPlan
