import AnnotationPlan.Proofs.AnnotationUse.Known
import AnnotationPlan.Proofs.Store.Operations

/-!
# Imports are exact

A written use relies on an import for every definition whose name it writes short, unless the
name needs none. Its imports are put together from those of its parts, and on the way to a part
a name is looked up, compared with the name policy and perhaps found among those that are there
already.

What comes of all this can be read off the use itself. It uses its own definition, then those
of the annotations in its values, field by field in the order of its definition
(`AnnotationUse.used`); these are the definitions of all annotations within it
(`FieldValue.exists_of_mem_used`, `Formatter.mem_used_of_holds`). Of these definitions some
need an import (`Formatter.NeedsImport`). The imports are the names of these in the same order,
with repeats dropped (`Formatter.imports_exact`).
-/

namespace AnnotationPlan

open Name (isQualified simple source)

/-! ## Definitions that are used -/

mutual

/-- **The definitions that a use makes use of**, in the order in which it does: first its own,
then those of its values, in the order in which the definition declares their fields. -/
def AnnotationUse.used (definitions : DefinitionTable) : AnnotationUse → List Definition
  | ⟨name, values⟩ =>
    match definitions.get? name with
    | none => []
    | some d =>
      d :: (d.fields.keys.filterMap (fun k =>
        Entries.find? k (FieldValue.usedInFields definitions values))).flatten
termination_by structural u => u

/-- The definitions that a value makes use of: those of an annotation, or those of the items of
an array one after another. -/
def FieldValue.used (definitions : DefinitionTable) : FieldValue → List Definition
  | .nested u => u.used definitions
  | .array items => (FieldValue.usedInItems definitions items).flatten
  | _ => []
termination_by structural v => v

/-- The definitions that each of several items makes use of. -/
def FieldValue.usedInItems (definitions : DefinitionTable) :
    List FieldValue → List (List Definition)
  | [] => []
  | v :: rest => v.used definitions :: FieldValue.usedInItems definitions rest
termination_by structural vs => vs

/-- The definitions that the value of each field makes use of. -/
def FieldValue.usedInFields (definitions : DefinitionTable) :
    List (String × FieldValue) → List (String × List Definition)
  | [] => []
  | (k, v) :: rest => (k, v.used definitions) :: FieldValue.usedInFields definitions rest
termination_by structural vs => vs

end

variable {t : DefinitionTable} {name : String} {values : List (String × FieldValue)}

theorem FieldValue.usedInItems_eq_map (items : List FieldValue) :
    usedInItems t items = items.map (used t) := by
  induction items with
  | nil => rfl
  | cons v rest ih => rw [usedInItems, ih, List.map_cons]

theorem FieldValue.find?_usedInFields {k : String} (values : List (String × FieldValue)) :
    Entries.find? k (usedInFields t values) = (Entries.find? k values).map (used t) := by
  induction values with
  | nil => rfl
  | cons value rest ih =>
    rw [usedInFields, Entries.find?, Entries.find?, ih]
    split <;> rfl

/-- A use of a known definition uses that, and what its values use. -/
theorem AnnotationUse.used_eq {d : Definition} (hd : t.get? name = some d) :
    AnnotationUse.used t ⟨name, values⟩ = d :: (d.fields.keys.filterMap (fun k =>
      (Entries.find? k values).map (FieldValue.used t))).flatten := by
  simp only [used, hd, FieldValue.find?_usedInFields]

/-- An array uses what its items use. -/
theorem FieldValue.used_array (items : List FieldValue) :
    (FieldValue.array items).used t = items.flatMap (used t) := by
  rw [used, usedInItems_eq_map, List.flatMap_def]

mutual

/-- **What a value makes use of** is the definition of an annotation within it. -/
theorem FieldValue.exists_of_mem_used : ∀ (v : FieldValue) {d : Definition}, d ∈ v.used t →
    ∃ u, v.Holds u ∧ t.get? u.definition = some d
  | .nested ⟨name, values⟩, d, h => by
    rw [used] at h
    cases hd : t.get? name with
    | none =>
      rw [AnnotationUse.used, hd] at h
      cases h
    | some c =>
      rw [AnnotationUse.used_eq hd] at h
      rcases List.mem_cons.mp h with rfl | h
      · exact ⟨_, .here, hd⟩
      · obtain ⟨used, hused, hmem⟩ := List.mem_flatten.mp h
        obtain ⟨k, -, hk⟩ := List.mem_filterMap.mp hused
        obtain ⟨v, hv, rfl⟩ := Option.map_eq_some_iff.mp hk
        obtain ⟨u, hu, hget⟩ := exists_of_mem_usedInFields values (k, v)
          (Entries.mem_of_find? hv) hmem
        exact ⟨u, .field hv hu, hget⟩
  | .array items, d, h => by
    rw [used_array] at h
    obtain ⟨v, hv, hmem⟩ := List.mem_flatMap.mp h
    obtain ⟨u, hu, hget⟩ := exists_of_mem_usedInItems items v hv hmem
    exact ⟨u, .item hv hu, hget⟩
  | .bool _, _, h | .int _, _, h | .float _, _, h | .text _, _, h => absurd h List.not_mem_nil

theorem FieldValue.exists_of_mem_usedInItems : ∀ items : List FieldValue, ∀ v ∈ items,
    ∀ {d : Definition}, d ∈ v.used t → ∃ u, v.Holds u ∧ t.get? u.definition = some d
  | [] => fun _ hv => absurd hv List.not_mem_nil
  | v :: rest => List.forall_mem_cons.mpr
    ⟨exists_of_mem_used v, exists_of_mem_usedInItems rest⟩

theorem FieldValue.exists_of_mem_usedInFields : ∀ values : List (String × FieldValue),
    ∀ v ∈ values, ∀ {d : Definition}, d ∈ v.2.used t →
      ∃ u, v.2.Holds u ∧ t.get? u.definition = some d
  | [] => fun _ hv => absurd hv List.not_mem_nil
  | (_, v) :: rest => List.forall_mem_cons.mpr
    ⟨exists_of_mem_used v, exists_of_mem_usedInFields rest⟩

end

/-- **A value that can be written** makes use of the definitions of all annotations within
it. -/
theorem Formatter.mem_used_of_holds {f : Formatter} {v : FieldValue} {u : AnnotationUse}
    (hu : v.Holds u) (h : f.Written v) {d : Definition}
    (hd : f.definitions.get? u.definition = some d) : d ∈ v.used f.definitions := by
  induction hu with
  | here =>
    obtain ⟨name, values⟩ := u
    rw [FieldValue.used, AnnotationUse.used_eq hd]
    exact List.mem_cons_self
  | @field name values k x hfind _ ih =>
    obtain ⟨w, hw⟩ := h
    obtain ⟨c, hc, hdeclared, -⟩ := format_eq_ok hw
    have hx := ih ((Written.nested ⟨w, hw⟩).2 _ _ hfind)
    rw [FieldValue.used, AnnotationUse.used_eq hc]
    refine List.mem_cons_of_mem _ (List.mem_flatten.mpr ⟨_, List.mem_filterMap.mpr ?_, hx⟩)
    exact ⟨k, hdeclared (k, x) (Entries.mem_of_find? hfind), by rw [hfind]; rfl⟩
  | item hmem _ ih =>
    rw [FieldValue.used_array]
    exact List.mem_flatMap.mpr ⟨_, hmem, ih (h.item hmem)⟩

/-! ## Names that have to be imported -/

/-- **A name lies directly in `java.lang`.** -/
def Name.LiesInJavaLang (name : String) : Prop :=
  ∃ member : String, name = "java.lang." ++ member ∧ '.' ∉ member.toList

namespace Formatter

variable {f : Formatter}

theorem isImplicitlyImported_iff {name : String} :
    isImplicitlyImported name = true ↔ Name.LiesInJavaLang name := by
  unfold isImplicitlyImported
  split
  case h_1 rest hrest =>
    have hname : "java.lang.".toList ++ rest = name.toList :=
      List.isPrefixOf?_eq_some_iff_append_eq.mp hrest
    rw [Bool.not_eq_true', List.contains_eq_mem, decide_eq_false_iff_not]
    constructor
    · intro h
      refine ⟨.ofList rest, ?_, by rwa [String.toList_ofList]⟩
      rw [← String.toList_inj, String.toList_append, hname.symm, String.toList_ofList (l := rest)]
    · rintro ⟨member, rfl, h⟩
      rw [String.toList_append] at hname
      exact List.append_cancel_left hname ▸ h
  case h_2 hnone =>
    refine iff_of_false Bool.false_ne_true ?_
    rintro ⟨member, rfl, -⟩
    rw [String.toList_append] at hnone
    have hsome := List.isPrefixOf?_eq_some_iff_append_eq.mpr
      (rfl : "java.lang.".toList ++ member.toList = _)
    rw [hsome] at hnone
    cases hnone

instance : DecidablePred Name.LiesInJavaLang := fun _ =>
  decidable_of_iff _ isImplicitlyImported_iff

/-- **A definition whose name relies on an import**: it is qualified and written short, and does
not lie in `java.lang`. -/
structure NeedsImport (f : Formatter) (d : Definition) : Prop where
  qualified : isQualified d.name = true
  short : f.policy.isAmbiguous (simple d.name) = false
  elsewhere : ¬ Name.LiesInJavaLang (source d.name)

theorem needsImport_iff {d : Definition} : f.NeedsImport d ↔ isQualified d.name = true
    ∧ f.policy.isAmbiguous (simple d.name) = false ∧ ¬ Name.LiesInJavaLang (source d.name) :=
  ⟨fun h => ⟨h.qualified, h.short, h.elsewhere⟩, fun h => ⟨h.1, h.2.1, h.2.2⟩⟩

instance : DecidablePred f.NeedsImport := fun _ => decidable_of_iff _ needsImport_iff.symm

/-- The names of those of several definitions that rely on an import. -/
def importNames (f : Formatter) (ds : List Definition) : List String :=
  (ds.filter (f.NeedsImport ·)).map (source ·.name)

theorem importNames_append (ds ds' : List Definition) :
    f.importNames (ds ++ ds') = f.importNames ds ++ f.importNames ds' := by
  rw [importNames, List.filter_append, List.map_append]
  rfl

/-! ## Imports of the parts -/

/-- **The imports of what makes use of several definitions.** -/
def importsFor (f : Formatter) (ds : List Definition) : List String :=
  mergeImports [] (f.importNames ds)

/-- The import of a definition is its name, if it relies on one. -/
theorem importOf_eq (d : Definition) : f.importOf d.name = f.importsFor [d] := by
  have hcond : (isQualified d.name && !f.policy.isAmbiguous (simple d.name)
      && !isImplicitlyImported (source d.name)) = decide (f.NeedsImport d) := by
    rw [Bool.eq_iff_iff, decide_eq_true_iff, needsImport_iff, ← isImplicitlyImported_iff]
    simp only [Bool.and_eq_true, Bool.not_eq_true', Bool.not_eq_true, and_assoc]
  unfold importOf importsFor importNames
  rw [hcond, List.filter_singleton]
  cases decide (f.NeedsImport d) <;> rfl

/-- What makes use of further definitions has further imports. -/
theorem importsFor_append (ds ds' : List Definition) :
    f.importsFor (ds ++ ds') = mergeImports (f.importsFor ds) (f.importNames ds') := by
  rw [importsFor, importNames_append]
  exact List.foldl_append ..

/-- Merging with what was merged is merging with all of it. -/
theorem mergeImports_importsFor (start : List String) (ds : List Definition) :
    mergeImports start (f.importsFor ds) = mergeImports start (f.importNames ds) :=
  (Store.addMissing_assoc (f.importNames ds) start []).symm

/-- **The imports of several parts** are those for everything that the parts make use of. -/
theorem importsOf_eq {parts : List Formatted} {used : List (List Definition)}
    (h : List.Forall₂ (fun part ds => part.imports = f.importsFor ds) parts used) :
    ∀ start : List String,
      importsOf start parts = mergeImports start (f.importNames used.flatten) := by
  induction h with
  | nil => exact fun _ => rfl
  | cons hpart _ ih =>
    intro start
    rw [importsOf, List.foldl_cons, ← importsOf, ih, hpart, mergeImports_importsFor,
      List.flatten_cons, importNames_append]
    exact (List.foldl_append ..).symm

/-- **A value with exact imports**: whatever type it is written as, its imports are those for
what it makes use of. -/
def HasExactImports (f : Formatter) (v : FieldValue) : Prop :=
  ∀ site type w, formatValue f site type v = .ok w →
    w.imports = f.importsFor (v.used f.definitions)

/-- **The imports of a use** are those for its definition and its values. -/
theorem imports_of_values {name : String} {values : List (String × FieldValue)} {w : Formatted}
    (hvalues : ∀ v ∈ values, f.HasExactImports v.2) (h : f.format ⟨name, values⟩ = .ok w) :
    w.imports = f.importsFor (AnnotationUse.used f.definitions ⟨name, values⟩) := by
  obtain ⟨d, parts, hd, -, hfields, hparts, rfl⟩ := exists_parts h
  have hused : List.Forall₂ (fun part ds => part.imports = f.importsFor ds) (parts.map Prod.snd)
      (d.fields.keys.filterMap (fun k =>
        (Entries.find? k values).map (FieldValue.used f.definitions))) := by
    rw [List.forall₂_map_left_iff]
    refine forall₂_filterMap (hfields.trans (List.filter_congr (fun k _ => ?_))) ?_
    · rw [Option.isSome_map, Bool.eq_iff_iff, decide_eq_true_iff, ← Entries.isSome_find?_iff]
    · intro part hpart ds hds
      obtain ⟨v, type, hv, -, hw⟩ := hparts part hpart
      rw [hv] at hds
      obtain rfl := Option.some.inj hds
      exact hvalues _ (Entries.mem_of_find? hv) _ _ _ hw
  show importsOf (f.importOf d.name) (parts.map Prod.snd) = _
  rw [importsOf_eq hused, AnnotationUse.used_eq hd, importOf_eq, ← importsFor_append,
    List.singleton_append]

/-- A literal needs no imports. -/
theorem imports_of_formatLiteral {site : FieldSite} {t : ScalarType} {v : FieldValue}
    {w : Formatted} (h : formatLiteral site t v = .ok w) : w.imports = [] := by
  unfold formatLiteral at h
  split at h
  · exact Except.ok.inj h ▸ rfl
  · cases h

/-- **The imports of an array** are those for its items. -/
theorem imports_of_array {site : FieldSite} {element : ScalarType} {items : List FieldValue}
    {w : Formatted}
    (hitems : ∀ v ∈ items, f.HasExactImports v)
    (h : formatValue f site (.array (some element)) (.array items) = .ok w) :
    w.imports = f.importsFor ((FieldValue.array items).used f.definitions) := by
  rw [formatValue] at h
  obtain ⟨parts, hparts, h⟩ := bind_eq_ok.mp h
  obtain rfl := Except.ok.inj h
  have hused : List.Forall₂ (fun part ds => part.imports = f.importsFor ds) parts
      (items.map (FieldValue.used f.definitions)) := by
    have hboth := (List.forall₂_and_left _ _).mpr ⟨hitems, formatItems_ok_iff.mp hparts⟩
    rw [List.forall₂_map_right_iff]
    exact .flip (hboth.imp (fun _ _ h => h.1 _ _ _ h.2))
  show importsOf [] parts = _
  rw [importsOf_eq hused, FieldValue.used_array, List.flatMap_def]
  rfl

mutual

/-- **The imports of a use** are those for the definitions that it makes use of. -/
theorem imports_of_format (f : Formatter) : ∀ (u : AnnotationUse) {w : Formatted},
    f.format u = .ok w → w.imports = f.importsFor (u.used f.definitions)
  | ⟨_, values⟩, _, h => imports_of_values (hasExactImports_fields f values) h

/-- **All values have exact imports.** -/
theorem hasExactImports (f : Formatter) : ∀ v : FieldValue, f.HasExactImports v
  | .nested u => by
    intro site type w h
    cases type with
    | scalar t => exact imports_of_format f u (nestedValue_eq_ok h)
    | array element => cases element <;> cases h
  | .array items => by
    intro site type w h
    cases type with
    | scalar t => cases t <;> cases h
    | array element =>
      cases element with
      | some element => exact imports_of_array (hasExactImports_items f items) h
      | none =>
        cases items with
        | nil => exact Except.ok.inj h ▸ rfl
        | cons _ _ => cases h
  | .bool _ | .int _ | .float _ | .text _ => by
    intro site type w h
    cases type with
    | scalar t => exact imports_of_formatLiteral h
    | array element => cases element <;> cases h

theorem hasExactImports_items (f : Formatter) :
    ∀ items : List FieldValue, ∀ v ∈ items, f.HasExactImports v
  | [] => fun _ hv => absurd hv List.not_mem_nil
  | v :: rest => List.forall_mem_cons.mpr ⟨hasExactImports f v, hasExactImports_items f rest⟩

theorem hasExactImports_fields (f : Formatter) :
    ∀ values : List (String × FieldValue), ∀ v ∈ values, f.HasExactImports v.2
  | [] => fun _ hv => absurd hv List.not_mem_nil
  | (_, v) :: rest => List.forall_mem_cons.mpr ⟨hasExactImports f v, hasExactImports_fields f rest⟩

end

/-- **Imports are exact.** The imports of a use that is written are the names of those
definitions that it makes use of and that rely on an import, in the order in which it makes use
of them and each once. It makes use of the definitions of the annotations within it, itself
included, and of no others. -/
theorem imports_exact (f : Formatter) {u : AnnotationUse} {w : Formatted}
    (h : f.format u = .ok w) :
    w.imports = (((u.used f.definitions).filter (f.NeedsImport ·)).map
      (fun d => source d.name)).eraseDups
    ∧ w.imports.Nodup
    ∧ ∀ d, d ∈ u.used f.definitions
        ↔ ∃ v, (FieldValue.nested u).Holds v ∧ f.definitions.get? v.definition = some d := by
  rw [imports_of_format f u h]
  refine ⟨Store.addMissing_eq_eraseDups _ List.nodup_nil, Store.nodup_addMissing List.nodup_nil,
    fun d => ⟨fun hd => ?_, fun ⟨v, hv, hget⟩ => ?_⟩⟩
  · exact FieldValue.exists_of_mem_used (.nested u) hd
  · exact mem_used_of_holds hv ⟨w, h⟩ hget

/-- Definitions in several packages, two of which have their simple name in common. -/
def importSample : List Definition :=
  [{ name := "p.Page"
     fields := (((OrderedMap.empty.insert "spans" (.array (some (.nested "q.Line$Span")))).insert
       "old" (.scalar (.nested "java.lang.Old"))).insert
       "mark" (.scalar (.nested "p.Mark"))).insert "whole" (.scalar (.nested "q.Line")) },
   { name := "q.Line$Span" }, { name := "java.lang.Old" }, { name := "p.Mark" },
   { name := "q.Mark" }, { name := "q.Line" }]

/-- An annotation of the first one that makes use of most of the others, by their qualified
and by their simple names, in an order of its own and of one of them twice. -/
def importingSample : AnnotationUse :=
  ⟨"Page", [("whole", .nested ⟨"Line", []⟩), ("mark", .nested ⟨"p.Mark", []⟩),
    ("old", .nested ⟨"Old", []⟩),
    ("spans", .array [.nested ⟨"q.Line$Span", []⟩, .nested ⟨"Span", []⟩])]⟩

/-- The nested class is imported once, then the class around it. -/
theorem imports_importingSample :
    format ⟨.ofList importSample, .ofTable (.ofList importSample)⟩ importingSample
      = .ok ⟨"@Page(spans=\x7b@Span,@Span\x7d, old=@Old, mark=@p.Mark, whole=@Line)",
        ["p.Page", "q.Line.Span", "q.Line"]⟩
    ∧ (((importingSample.used (.ofList importSample)).filter
        (NeedsImport ⟨.ofList importSample, .ofTable (.ofList importSample)⟩ ·)).map
        (fun d => source d.name)).eraseDups = ["p.Page", "q.Line.Span", "q.Line"] := by
  have hwritten : format ⟨.ofList importSample, .ofTable (.ofList importSample)⟩ importingSample
      = .ok ⟨"@Page(spans=\x7b@Span,@Span\x7d, old=@Old, mark=@p.Mark, whole=@Line)",
        ["p.Page", "q.Line.Span", "q.Line"]⟩ := by decide +kernel
  exact ⟨hwritten, (imports_exact _ hwritten).1.symm⟩

end Formatter

end AnnotationPlan
