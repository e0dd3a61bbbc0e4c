import AnnotationPlan.Proofs.Criteria.Composition
import AnnotationPlan.Proofs.Draft.Notes
import AnnotationPlan.Proofs.Schema.Lookup
import AnnotationPlan.Proofs.Store.Operations
import AnnotationPlan.Synthesis.Plan

/-!
# One annotation under several names

A definition that is registered under a qualified name is found under its simple name as well,
so one annotation may be given twice on a position, once by either name. The two set the same
values and are written as the same text, but they are not the same use: uses are compared by
the names that they give, and not by the definitions that these stand for. The same goes for the
annotations within their values.

What is kept of the uses that repeat one another (`Formatter.repeats`) is therefore one for
each name that they give, in the order in which these first occur
(`Formatter.names_of_repeats`). There are two such names at most, the one under which the
definition was registered and its simple name, and an annotation is written twice exactly if it
is given by both (`Formatter.notes_repeats`).
-/

namespace AnnotationPlan

/-! ## The same values -/

namespace FieldValue

/-- **A value without floating-point numbers is the same as itself**, if its annotations set
each field once. -/
theorem same_self {v : FieldValue} (hfloat : v.IsFloatFree) (hdistinct : v.IsDistinct) :
    v.same v = true := by
  induction v using FieldValue.induct with
  | bool b => exact beq_self_eq_true b
  | int n => exact beq_self_eq_true n
  | float x => exact absurd .here (hfloat x)
  | text s => exact beq_self_eq_true s
  | array items ih =>
    rw [same, sameItems_iff]
    exact List.forall₂_same.mpr (fun v hv => ih v hv (hfloat.item hv) (hdistinct.item hv))
  | nested name values ih =>
    refine AnnotationUse.same_iff.mpr ⟨rfl, rfl, fun v hv => ⟨v.2, ?_, ?_⟩⟩
    · exact Entries.find?_of_mem (hdistinct name values .here) hv
    · exact ih v hv (hfloat.field hv) (hdistinct.field hv)

end FieldValue

namespace AnnotationUse

variable {u v w : AnnotationUse}

/-- **Whether two uses set the same values**, whatever definitions they name. -/
def sameValues (u v : AnnotationUse) : Bool :=
  u.values.length == v.values.length && FieldValue.sameIn u.values v.values

/-- A use of another definition with the same values. -/
def renamed (u : AnnotationUse) (name : String) : AnnotationUse := ⟨name, u.values⟩

/-- Uses are the same if they name the same definition and set the same values. -/
theorem same_eq (u v : AnnotationUse) :
    u.same v = (u.definition == v.definition && u.sameValues v) := by
  obtain ⟨name, values⟩ := u
  rw [same, Bool.and_assoc]
  rfl

/-- Values are compared as under any one name. -/
theorem sameValues_eq (u v : AnnotationUse) (name : String) :
    u.sameValues v = (u.renamed name).same (v.renamed name) := by
  rw [same_eq, renamed, renamed, beq_self_eq_true, Bool.true_and]
  rfl

theorem isDistinct_renamed (h : (FieldValue.nested u).IsDistinct) (name : String) :
    (FieldValue.nested (u.renamed name)).IsDistinct := by
  obtain ⟨name', values⟩ := u
  exact FieldValue.isDistinct_nested (h name' values .here) (fun _ hv => h.field hv)

theorem isFloatFree_renamed (h : (FieldValue.nested u).IsFloatFree) (name : String) :
    (FieldValue.nested (u.renamed name)).IsFloatFree := by
  obtain ⟨name', values⟩ := u
  intro x hwithin
  cases hwithin with
  | field hmem hwithin => exact h x (.field hmem hwithin)

theorem sameValues_self (hfloat : (FieldValue.nested u).IsFloatFree)
    (hdistinct : (FieldValue.nested u).IsDistinct) : u.sameValues u = true := by
  rw [sameValues_eq u u ""]
  exact FieldValue.same_self (isFloatFree_renamed hfloat "") (isDistinct_renamed hdistinct "")

theorem sameValues_trans (h : u.sameValues v = true) (h' : v.sameValues w = true) :
    u.sameValues w = true := by
  rw [sameValues_eq _ _ ""] at h h' ⊢
  exact FieldValue.same_trans (x := .nested (u.renamed "")) (y := .nested (v.renamed ""))
    (z := .nested (w.renamed "")) h h'

theorem sameValues_symm (hu : (FieldValue.nested u).IsDistinct)
    (hv : (FieldValue.nested v).IsDistinct) (h : u.sameValues v = true) :
    v.sameValues u = true := by
  rw [sameValues_eq _ _ ""] at h ⊢
  exact FieldValue.same_symm (isDistinct_renamed hu "") (isDistinct_renamed hv "") h

end AnnotationUse

/-! ## What is kept of some of the notes -/

namespace Note

variable {ns : List Note}

theorem addTo_of_any {notes : List Note} {n : Note} (h : notes.any (·.covers n) = true) :
    addTo notes n = notes := if_pos h

theorem addTo_of_not_any {notes : List Note} {n : Note} (h : ¬ notes.any (·.covers n) = true) :
    addTo notes n = notes ++ [n] := if_neg h

/-- A note that is left out changes nothing. -/
theorem filter_addTo_of_eq_false {p : Note → Bool} {n : Note} (hp : p n = false)
    (notes : List Note) : (addTo notes n).filter p = notes.filter p := by
  unfold addTo
  split
  · rfl
  · rw [List.filter_append, List.filter_cons_of_neg (Bool.eq_false_iff.mp hp), List.filter_nil,
      List.append_nil]

/-- One more note behind others. -/
theorem foldl_addTo_snoc (ns : List Note) (n : Note) :
    (ns ++ [n]).foldl addTo [] = addTo (ns.foldl addTo []) n := by
  rw [List.foldl_append]
  rfl

/-- No notes are kept but those that were put there. -/
theorem foldl_addTo_subset (ns : List Note) : ns.foldl addTo [] ⊆ ns := by
  induction ns using List.reverseRecOn with
  | nil => exact List.Subset.refl _
  | append_singleton ns n ih =>
    rw [foldl_addTo_snoc, addTo]
    split
    · exact List.Subset.trans ih (List.subset_append_left _ _)
    · exact List.append_subset.mpr
        ⟨List.Subset.trans ih (List.subset_append_left _ _), List.subset_append_right _ _⟩

/-- **What is kept of notes for which only those with the same key stand** is one for each key,
in order of first occurrence. -/
theorem map_filter_foldl_addTo (p : Note → Bool) (key : Note → String)
    (h : ∀ m ∈ ns, ∀ n ∈ ns, p n = true → (m.covers n = true ↔ p m = true ∧ key m = key n)) :
    ((ns.foldl addTo []).filter p).map key = ((ns.filter p).map key).eraseDups := by
  induction ns using List.reverseRecOn with
  | nil => rfl
  | append_singleton ns n ih =>
    have hn : n ∈ ns ++ [n] := List.mem_append_right _ List.mem_cons_self
    have hkept := ih (fun m hm n hn =>
      h m (List.mem_append_left _ hm) n (List.mem_append_left _ hn))
    rw [foldl_addTo_snoc, List.filter_append, List.map_append]
    cases hp : p n with
    | false =>
      rw [filter_addTo_of_eq_false hp, hkept, List.filter_cons_of_neg (Bool.eq_false_iff.mp hp),
        List.filter_nil, List.map_nil, List.append_nil]
    | true =>
      have hany : (ns.foldl addTo []).any (·.covers n) = true
          ↔ key n ∈ (ns.filter p).map key := by
        rw [← List.mem_eraseDups, ← hkept, List.any_eq_true, List.mem_map]
        refine exists_congr (fun m => ?_)
        rw [List.mem_filter, and_assoc]
        exact and_congr_right (fun hm =>
          h m (List.mem_append_left _ (foldl_addTo_subset ns hm)) n hn hp)
      rw [List.filter_cons_of_pos hp, List.filter_nil, List.map_singleton,
        CriteriaList.eraseDups_snoc, ← hkept]
      by_cases hmem : key n ∈ (ns.filter p).map key
      · rw [if_pos hmem, addTo_of_any (hany.mpr hmem)]
      · rw [if_neg hmem, addTo_of_not_any (mt hany.mp hmem), List.filter_append,
          List.filter_cons_of_pos hp, List.filter_nil, List.map_append, List.map_singleton]

end Note

namespace DefinitionTable

/-- **The names of one definition**: the one that it was registered under, and its simple
name. -/
theorem name_of_get?_ofList {ds : List Definition} {name : String} {d : Definition}
    (h : (ofList ds).get? name = some d) :
    name = d.name ∨ name = Name.simple d.name := by
  have hlast : ∀ {name}, last? ds name = some d → d.name = name := by
    intro name hd
    have hmem := List.mem_of_getLast? hd
    exact of_decide_eq_true (List.mem_filter.mp hmem).2
  rw [get?_eq_resolve, resolve] at h
  split at h
  case h_1 c hc =>
    obtain rfl := Option.some.inj h
    exact .inl (hlast hc).symm
  case h_2 =>
    split at h
    case isTrue => cases h
    case isFalse =>
      obtain ⟨q, hq, hd⟩ := Option.bind_eq_some_iff.mp h
      obtain ⟨⟨-, -, hsimple⟩, -⟩ := soleBearer?_eq_some_iff.mp hq
      exact .inr (hlast hd ▸ hsimple.symm)

end DefinitionTable

/-! ## Repeated annotations -/

namespace Formatter

variable {f : Formatter} {place : CriteriaList} {uses : List AnnotationUse} {notes : List Note}
  {u v w : AnnotationUse}

/-- **Whether a use repeats another one**: their names stand for the same definition, and they
set the same values. -/
def repeats (f : Formatter) (u v : AnnotationUse) : Bool :=
  (f.definitions.get? v.definition).isSome
    && f.definitions.get? u.definition == f.definitions.get? v.definition && u.sameValues v

theorem repeats_iff : f.repeats u v = true
    ↔ ∃ d, f.definitions.get? u.definition = some d ∧ f.definitions.get? v.definition = some d
      ∧ u.sameValues v = true := by
  rw [repeats, Bool.and_eq_true, Bool.and_eq_true, beq_iff_eq, Option.isSome_iff_exists]
  constructor
  · rintro ⟨⟨⟨d, hd⟩, heq⟩, hvalues⟩
    exact ⟨d, heq.trans hd, hd, hvalues⟩
  · rintro ⟨d, hu, hv, hvalues⟩
    exact ⟨⟨⟨d, hv⟩, hu.trans hv.symm⟩, hvalues⟩

theorem repeats_trans (h : f.repeats u v = true) (h' : f.repeats v w = true) :
    f.repeats u w = true := by
  obtain ⟨d, hu, hv, hvalues⟩ := repeats_iff.mp h
  obtain ⟨d', hv', hw, hvalues'⟩ := repeats_iff.mp h'
  obtain rfl : d = d' := Option.some.inj (hv.symm.trans hv')
  exact repeats_iff.mpr ⟨d, hu, hw, AnnotationUse.sameValues_trans hvalues hvalues'⟩

theorem repeats_symm (hu : (FieldValue.nested u).IsDistinct)
    (hv : (FieldValue.nested v).IsDistinct) (h : f.repeats u v = true) :
    f.repeats v u = true := by
  obtain ⟨d, hdu, hdv, hvalues⟩ := repeats_iff.mp h
  exact repeats_iff.mpr ⟨d, hdv, hdu, AnnotationUse.sameValues_symm hu hv hvalues⟩

theorem repeats_self (hfloat : (FieldValue.nested u).IsFloatFree)
    (hdistinct : (FieldValue.nested u).IsDistinct) {d : Definition}
    (h : f.definitions.get? u.definition = some d) : f.repeats u u = true :=
  repeats_iff.mpr ⟨d, h, h, AnnotationUse.sameValues_self hfloat hdistinct⟩

/-- Of uses that name definitions alike, those that repeat one another are the same. -/
theorem same_of_repeats (h : f.repeats u v = true) (hname : u.definition = v.definition) :
    u.same v = true := by
  obtain ⟨-, -, -, hvalues⟩ := repeats_iff.mp h
  rw [AnnotationUse.same_eq, hname, hvalues, beq_self_eq_true]
  rfl

/-- A use that is the same as another one repeats what that one repeats. -/
theorem repeats_of_same (h : u.same v = true) (hvw : f.repeats v w = true) :
    u.definition = v.definition ∧ f.repeats u w = true := by
  rw [AnnotationUse.same_eq, Bool.and_eq_true, beq_iff_eq] at h
  obtain ⟨d, hv, -⟩ := repeats_iff.mp hvw
  exact ⟨h.1, repeats_trans (repeats_iff.mpr ⟨d, h.1 ▸ hv, hv, h.2⟩) hvw⟩

/-- A use of another name that stands for the same definition is written the same. -/
theorem format_renamed {name : String} {t : Formatted}
    (h : f.definitions.get? u.definition = f.definitions.get? name) (ht : f.format u = .ok t) :
    f.format (u.renamed name) = .ok t := by
  obtain ⟨name', values⟩ := u
  obtain ⟨d, parts, hd, hwritten⟩ := format_ok_iff.mp ht
  exact format_ok_iff.mpr ⟨d, parts, h.symm.trans hd, hwritten⟩

/-- **A repeated annotation is written the same.** -/
theorem format_of_repeats {t : Formatted} (hfloat : (FieldValue.nested u).IsFloatFree)
    (hdistinct : (FieldValue.nested u).IsDistinct) (h : f.repeats u v = true)
    (ht : f.format u = .ok t) : f.format v = .ok t := by
  obtain ⟨d, hu, hv, hvalues⟩ := repeats_iff.mp h
  rw [AnnotationUse.sameValues_eq u v v.definition] at hvalues
  obtain ⟨name, values⟩ := v
  exact format_of_same (AnnotationUse.isFloatFree_renamed hfloat _)
    (AnnotationUse.isDistinct_renamed hdistinct _) hvalues (format_renamed (hu.trans hv.symm) ht)

/-! ## The annotations on a position -/

/-- The notes of annotations that can be written are those of one after another. -/
theorem map_use_candidates (h : ∀ u ∈ uses, ∃ n, f.note u = .ok n) :
    (f.candidates uses).map Note.use = uses := by
  induction uses with
  | nil => rfl
  | cons u rest ih =>
    obtain ⟨⟨n, hn⟩, hrest⟩ := List.forall_mem_cons.mp h
    have hcandidates : f.candidates (u :: rest) = n :: f.candidates rest := by
      rw [candidates, List.filterMap_cons, hn]
      rfl
    rw [hcandidates, List.map_cons, ih hrest, (note_spec hn).1]

/-- A note that can be written is that of its use. -/
theorem note_of_mem_candidates {n : Note} (hn : n ∈ f.candidates uses) :
    n.use ∈ uses ∧ f.note n.use = .ok n := by
  obtain ⟨u, hu, hnote⟩ := List.mem_filterMap.mp hn
  cases hm : f.note u with
  | error e =>
    rw [hm] at hnote
    cases hnote
  | ok m =>
    rw [hm] at hnote
    obtain rfl : m = n := Option.some.inj hnote
    rw [(note_spec hm).1]
    exact ⟨hu, hm⟩

/-- A note has the text of its use. -/
theorem text_of_note {n : Note} (h : f.note u = .ok n) :
    ∃ t, f.format u = .ok t ∧ n.text = t.text := by
  obtain ⟨t, ht, h⟩ := bind_eq_ok.mp h
  obtain ⟨d, -, h⟩ := bind_eq_ok.mp h
  cases h
  exact ⟨t, ht, rfl⟩

/-- A note is of a use whose definition is known. -/
theorem exists_definition_of_note {n : Note} (h : f.note u = .ok n) :
    ∃ d, f.definitions.get? u.definition = some d := by
  obtain ⟨t, -, h⟩ := bind_eq_ok.mp h
  obtain ⟨d, hd, -⟩ := bind_eq_ok.mp h
  exact ⟨d, get?_of_definition hd⟩

/-- **A note stands for those of the same use**: their texts are the same then. -/
theorem covers_iff_same {m n : Note} (hm : f.note m.use = .ok m) (hn : f.note n.use = .ok n)
    (hfloat : (FieldValue.nested m.use).IsFloatFree)
    (hdistinct : (FieldValue.nested m.use).IsDistinct) :
    m.covers n = true ↔ m.use.same n.use = true := by
  rw [Note.covers, Bool.and_eq_true, beq_iff_eq]
  refine and_iff_right_of_imp (fun hsame => ?_)
  obtain ⟨t, ht, htext⟩ := text_of_note hm
  obtain ⟨t', ht', htext'⟩ := text_of_note hn
  obtain rfl : t = t' := Except.ok.inj ((format_of_same hfloat hdistinct hsame ht).symm.trans ht')
  exact htext.trans htext'.symm

section Position

variable (h : f.notes place uses = .ok notes)
include h

/-- What is kept is of the annotations on the position. -/
theorem note_of_mem_notes {n : Note} (hn : n ∈ notes) : n.use ∈ uses ∧ f.note n.use = .ok n := by
  obtain ⟨-, rfl⟩ := notes_eq_ok.mp h
  exact note_of_mem_candidates (Note.foldl_addTo_subset _ hn)

variable (hdistinct : ∀ u ∈ uses, (FieldValue.nested u).IsDistinct)
  (hfloat : ∀ u ∈ uses, (FieldValue.nested u).IsFloatFree)
include hdistinct hfloat

/-- An annotation that can be written repeats itself. -/
theorem repeats_self_of_mem (hu : u ∈ uses) : f.repeats u u = true := by
  obtain ⟨n, hn⟩ := (notes_eq_ok.mp h).1 u hu
  obtain ⟨d, hd⟩ := exists_definition_of_note hn
  exact repeats_self (hfloat u hu) (hdistinct u hu) hd

/-- **Of annotations that repeat one another** one is kept for each name by which they are
given, in order of first occurrence. -/
theorem names_of_repeats (hu : u ∈ uses) :
    (notes.filter (fun n => f.repeats n.use u)).map (fun n => n.use.definition)
      = ((uses.filter (fun v => f.repeats v u)).map AnnotationUse.definition).eraseDups := by
  obtain ⟨hall, rfl⟩ := notes_eq_ok.mp h
  have hcovers : ∀ m ∈ f.candidates uses, ∀ n ∈ f.candidates uses, f.repeats n.use u = true →
      (m.covers n = true
        ↔ f.repeats m.use u = true ∧ m.use.definition = n.use.definition) := by
    intro m hm n hn hnu
    obtain ⟨hm, hmnote⟩ := note_of_mem_candidates hm
    obtain ⟨hn, hnnote⟩ := note_of_mem_candidates hn
    rw [covers_iff_same hmnote hnnote (hfloat _ hm) (hdistinct _ hm)]
    refine ⟨fun hsame => (repeats_of_same hsame hnu).symm, fun ⟨hmu, hname⟩ => ?_⟩
    exact same_of_repeats
      (repeats_trans hmu (repeats_symm (hdistinct _ hn) (hdistinct _ hu) hnu)) hname
  have hnames := List.filter_map (f := Note.use) (p := fun v => f.repeats v u)
    (l := f.candidates uses)
  rw [map_use_candidates hall] at hnames
  rw [Note.map_filter_foldl_addTo _ _ hcovers, hnames, List.map_map]
  rfl

theorem nodup_names_of_repeats (hu : u ∈ uses) :
    ((notes.filter (fun n => f.repeats n.use u)).map (fun n => n.use.definition)).Nodup := by
  rw [names_of_repeats h hdistinct hfloat hu, ← List.nil_append (List.map _ _),
    ← Store.addMissing_eq_eraseDups _ List.nodup_nil]
  exact Store.nodup_addMissing List.nodup_nil

/-- **No two of the annotations that are kept repeat one another** exactly if those on the
position that do are given by one name. -/
theorem pairwise_not_repeats_iff :
    notes.Pairwise (fun m n => f.repeats m.use n.use = false)
      ↔ ∀ u ∈ uses, ∀ v ∈ uses, f.repeats u v = true → u.definition = v.definition := by
  have hself : ∀ {u}, u ∈ uses → f.repeats u u = true :=
    repeats_self_of_mem h hdistinct hfloat
  have huse : ∀ {n}, n ∈ notes → n.use ∈ uses := fun hn => (note_of_mem_notes h hn).1
  constructor
  · intro hpairwise u hu v hv huv
    have hnames := names_of_repeats h hdistinct hfloat hv
    have hmem : ∀ {w}, w ∈ uses → f.repeats w v = true → w.definition
        ∈ (notes.filter (fun n => f.repeats n.use v)).map (fun n => n.use.definition) := by
      intro w hw hwv
      rw [hnames, List.mem_eraseDups]
      exact List.mem_map_of_mem (List.mem_filter.mpr ⟨hw, hwv⟩)
    have hleft := hmem hu huv
    have hright := hmem hv (hself hv)
    -- all notes that repeat `v` repeat one another, so there is only one of them
    match hkept : notes.filter (fun n => f.repeats n.use v) with
    | [] =>
      rw [hkept] at hleft
      cases hleft
    | [n] =>
      rw [hkept, List.map_singleton, List.mem_singleton] at hleft hright
      exact hleft.trans hright.symm
    | m :: n :: rest =>
      have hof : ∀ {k}, k ∈ m :: n :: rest → k ∈ notes ∧ f.repeats k.use v = true :=
        fun hk => List.mem_filter.mp (hkept ▸ hk)
      obtain ⟨-, hm⟩ := hof List.mem_cons_self
      obtain ⟨hnotes, hn⟩ := hof (List.mem_cons_of_mem _ List.mem_cons_self)
      have hmn := repeats_trans hm (repeats_symm (hdistinct _ (huse hnotes)) (hdistinct v hv) hn)
      have hnot := List.rel_of_pairwise_cons (hkept ▸ hpairwise.filter _) List.mem_cons_self
      rw [hmn] at hnot
      cases hnot
  · intro hone
    refine List.pairwise_iff_forall_sublist.mpr (fun {m n} hsublist => ?_)
    refine Bool.eq_false_iff.mpr (fun hmn => ?_)
    have hm : m.use ∈ uses := huse (hsublist.subset List.mem_cons_self)
    have hn : n.use ∈ uses := huse (hsublist.subset (List.mem_cons_of_mem _ List.mem_cons_self))
    have hboth : [m, n].filter (fun k => f.repeats k.use n.use) = [m, n] := by
      refine List.filter_eq_self.mpr (List.forall_mem_cons.mpr ⟨hmn, fun k hk => ?_⟩)
      obtain rfl := List.mem_singleton.mp hk
      exact hself hn
    have hnames := (hsublist.filter (fun k => f.repeats k.use n.use)).map
      (fun k => k.use.definition)
    rw [hboth] at hnames
    have hnodup := (nodup_names_of_repeats h hdistinct hfloat hn).sublist hnames
    exact (List.nodup_cons.mp hnodup).1 (List.mem_singleton.mpr (hone _ hm _ hn hmn))

/-- **Repeated annotations.** Annotations repeat one another if their names stand for the same
definition and they set the same values. Take a position on which all annotations can be
written, and whose values hold no floating-point number. Of those that repeat one of them – it
does so itself – one is kept for each name by which they are given, in order of first
occurrence, and all of these are written as the same text. In a table of registered definitions
there are two such names at most, the one that the definition was registered under and its
simple name. So no two of the annotations that are kept repeat one another exactly if all of
those on the position that do are given by one name. -/
theorem notes_repeats :
    (∀ u ∈ uses, ∃ d t, f.definition u = .ok d ∧ f.format u = .ok t
        ∧ f.repeats u u = true
        ∧ (notes.filter (fun n => f.repeats n.use u)).map (fun n => n.use.definition)
            = ((uses.filter (fun v => f.repeats v u)).map AnnotationUse.definition).eraseDups
        ∧ (∀ n ∈ notes, f.repeats n.use u = true → n.text = t.text)
        ∧ ∀ ds, f.definitions = .ofList ds →
          (∀ n ∈ notes, f.repeats n.use u = true →
            n.use.definition = d.name ∨ n.use.definition = Name.simple d.name)
          ∧ (notes.filter (fun n => f.repeats n.use u)).length ≤ 2)
    ∧ (notes.Pairwise (fun m n => f.repeats m.use n.use = false)
        ↔ ∀ u ∈ uses, ∀ v ∈ uses, f.repeats u v = true → u.definition = v.definition) := by
  refine ⟨fun u hu => ?_, pairwise_not_repeats_iff h hdistinct hfloat⟩
  obtain ⟨hall, hnotes⟩ := notes_eq_ok.mp h
  obtain ⟨m, hm⟩ := hall u hu
  obtain ⟨d, hd⟩ := exists_definition_of_note hm
  obtain ⟨t, ht, -⟩ := text_of_note hm
  refine ⟨d, t, definition_of_get? hd, ht, repeats_self_of_mem h hdistinct hfloat hu,
    names_of_repeats h hdistinct hfloat hu, fun n hn hnu => ?_, fun ds hds => ?_⟩
  · obtain ⟨hn, hnote⟩ := note_of_mem_notes h hn
    obtain ⟨t', ht', htext⟩ := text_of_note hnote
    have hsame := format_of_repeats (hfloat _ hn) (hdistinct _ hn) hnu ht'
    exact Except.ok.inj (hsame.symm.trans ht) ▸ htext
  · have hname : ∀ n ∈ notes, f.repeats n.use u = true →
        n.use.definition = d.name ∨ n.use.definition = Name.simple d.name := by
      intro n _ hnu
      obtain ⟨d', hn, hd', -⟩ := repeats_iff.mp hnu
      obtain rfl : d' = d := Option.some.inj (hd'.symm.trans hd)
      exact DefinitionTable.name_of_get?_ofList (hds ▸ hn)
    refine ⟨hname, ?_⟩
    have hsubset : (notes.filter (fun n => f.repeats n.use u)).map (fun n => n.use.definition)
        ⊆ [d.name, Name.simple d.name] := by
      intro name hmem
      obtain ⟨n, hn, rfl⟩ := List.mem_map.mp hmem
      obtain ⟨hn, hnu⟩ := List.mem_filter.mp hn
      rw [List.mem_cons, List.mem_singleton]
      exact hname n hn hnu
    have hsubperm :=
      List.subperm_of_subset (nodup_names_of_repeats h hdistinct hfloat hu) hsubset
    have hlength := hsubperm.length_le
    rwa [List.length_map] at hlength

end Position

/-- An annotation by its qualified name, by its simple name, with another value, and by both
names once more. -/
def aliased : List AnnotationUse :=
  [⟨"a.A", [("value", .text "x")]⟩, ⟨"A", [("value", .text "x")]⟩,
    ⟨"A", [("value", .text "y")]⟩, ⟨"a.A", [("value", .text "x")]⟩,
    ⟨"A", [("value", .text "x")]⟩]

/-- Two of the five annotations repeat the second one and are kept, one for each name. -/
theorem notes_aliased :
    ∃ f : Formatter, f.definitions
        = .ofList [{ name := "a.A", fields := .ofList [("value", .scalar .string)] }]
      ∧ ∃ notes, f.notes .empty aliased = .ok notes
        ∧ (∀ u ∈ aliased, (FieldValue.nested u).IsDistinct)
        ∧ (∀ u ∈ aliased, (FieldValue.nested u).IsFloatFree)
        ∧ (notes.filter (fun n => f.repeats n.use ⟨"A", [("value", .text "x")]⟩)).map
            (fun n => n.use.definition) = ["a.A", "A"]
        ∧ (notes.filter (fun n => f.repeats n.use ⟨"A", [("value", .text "x")]⟩)).length ≤ 2
        ∧ ¬ notes.Pairwise (fun m n => f.repeats m.use n.use = false) := by
  have hvalues : ∀ u ∈ aliased, ∃ name s, u = ⟨name, [("value", .text s)]⟩ := by
    simp [aliased]
  have hdistinct : ∀ u ∈ aliased, (FieldValue.nested u).IsDistinct := by
    intro u hu
    obtain ⟨name, s, rfl⟩ := hvalues u hu
    refine FieldValue.isDistinct_nested (List.nodup_singleton _) (fun v hv => ?_)
    obtain rfl := List.mem_singleton.mp hv
    exact FieldValue.isDistinct_of_scalar nofun
  have hfloat : ∀ u ∈ aliased, (FieldValue.nested u).IsFloatFree := by
    intro u hu x hwithin
    obtain ⟨name, s, rfl⟩ := hvalues u hu
    cases hwithin with
    | field hmem hwithin =>
      obtain rfl := List.mem_singleton.mp hmem
      cases hwithin
  obtain ⟨notes, hnotes⟩ : ∃ notes, Formatter.notes
      ⟨.ofList [{ name := "a.A", fields := .ofList [("value", .scalar .string)] }], ⟨[]⟩⟩
      .empty aliased = .ok notes := ⟨_, rfl⟩
  obtain ⟨hkept, hpairwise⟩ := notes_repeats hnotes hdistinct hfloat
  obtain ⟨d, t, -, -, -, hnames, -, hregistered⟩ :=
    hkept ⟨"A", [("value", .text "x")]⟩ (List.mem_cons_of_mem _ List.mem_cons_self)
  refine ⟨_, rfl, notes, hnotes, hdistinct, hfloat, hnames.trans ?_, (hregistered _ rfl).2,
    fun h => ?_⟩
  · decide +kernel
  · have hname := hpairwise.mp h ⟨"a.A", [("value", .text "x")]⟩ List.mem_cons_self
      ⟨"A", [("value", .text "x")]⟩ (List.mem_cons_of_mem _ List.mem_cons_self)
      (by decide +kernel)
    exact absurd hname (by decide)

end Formatter

/-- **A class with one annotation under two names.** -/
def Scene.aliased : Scene where
  definitions := .ofList [{ name := "a.A" }]
  packages := .empty
  classes := .ofList [("a.C", { (default : ClassElement) with
    annotations := [.ofName "a.A", .ofName "A"] })]

/-- **An annotation is written twice** if it is given by its qualified name and by its simple
name. -/
theorem Formatter.alias_written_twice :
    (∃ notes, Formatter.notes ⟨Scene.aliased.definitions, ⟨[]⟩⟩ .empty [.ofName "a.A", .ofName "A"]
          = .ok notes
        ∧ notes.map (fun n => (n.use.definition, n.text)) = [("a.A", "@A"), ("A", "@A")]
        ∧ ¬ notes.Pairwise (fun m n =>
            Formatter.repeats ⟨Scene.aliased.definitions, ⟨[]⟩⟩ m.use n.use = false))
    ∧ ∃ plan, Plan.ofScene Scene.aliased .nothing {} = .ok plan
      ∧ plan.rendered = .ok ["@A", "@A"] := by
  refine ⟨⟨_, rfl, rfl, ?_⟩, _, rfl, ?_⟩
  · decide +kernel
  · decide +kernel

end AnnotationPlan
