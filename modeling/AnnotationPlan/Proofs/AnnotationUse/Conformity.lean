import AnnotationPlan.Proofs.AnnotationUse.Known
import AnnotationPlan.Proofs.Schema.Table

/-!
# What can be written conforms

An annotation use **conforms** if its definition is known and declares every field that is
set, and every value fits the type of its field (`AnnotationUse.Conforms`). Which annotations
fit a field that holds annotations is a parameter of the definition. A field of a known
annotation type takes the annotations of that type; for a field whose type is not known
there are two answers, that it takes nothing (`DefinitionTable.Names`) and that it takes
everything (`DefinitionTable.NamesOrKnowsNot`).

What can be written is what conforms under the second answer, whatever the definitions and
whatever the name policy. It is the same as what conforms under the first one as long as no
annotation is set in a field of an unknown type (`FieldValue.Stray`), and an annotation that
is set there conforms under the second answer alone (`Formatter.formats_iff_conforms`).
-/

namespace AnnotationPlan

/-! ## Conformity -/

/-- **A value without annotations fits a scalar type.** -/
inductive FieldValue.IsLiteral : ScalarType → FieldValue → Prop where
  | boolean (b : Bool) : IsLiteral .boolean (.bool b)
  | byte {n : Int64} (range : -128 ≤ n.toInt ∧ n.toInt ≤ 127) : IsLiteral .byte (.int n)
  | short {n : Int64} (range : -32768 ≤ n.toInt ∧ n.toInt ≤ 32767) : IsLiteral .short (.int n)
  | int {n : Int64} (range : -2147483648 ≤ n.toInt ∧ n.toInt ≤ 2147483647) :
    IsLiteral .int (.int n)
  | long (n : Int64) : IsLiteral .long (.int n)
  | float (x : Float) : IsLiteral .float (.float x)
  | floatOfInt (n : Int64) : IsLiteral .float (.int n)
  | double (x : Float) : IsLiteral .double (.float x)
  | doubleOfInt (n : Int64) : IsLiteral .double (.int n)
  | char {s : String} {c : Char} (single : s.toList = [c]) : IsLiteral .char (.text s)
  | string (s : String) : IsLiteral .string (.text s)
  | classLiteral (name : String) : IsLiteral .classLiteral (.text name)
  | enumeration (typeName constant : String) :
    IsLiteral (.enumeration typeName) (.text constant)

mutual

/-- **An annotation use conforms to its definition**, where `takes` says which annotations
fit a field that holds annotations of a name. -/
inductive AnnotationUse.Conforms (t : DefinitionTable) (takes : String → Definition → Prop) :
    AnnotationUse → Prop where
  | intro {name : String} {values : List (String × FieldValue)} {d : Definition}
    (known : t.get? name = some d) (declared : ∀ v ∈ values, v.1 ∈ d.fields.keys)
    (fits : ∀ k v type, Entries.find? k values = some v → d.fields.find? k = some type →
      FieldValue.Fits t takes type v) :
    AnnotationUse.Conforms t takes ⟨name, values⟩

/-- **A value fits a type.** -/
inductive FieldValue.Fits (t : DefinitionTable) (takes : String → Definition → Prop) :
    FieldType → FieldValue → Prop where
  | literal {type : ScalarType} {v : FieldValue} (h : v.IsLiteral type) :
    FieldValue.Fits t takes (.scalar type) v
  | nested {declared : String} {u : AnnotationUse} {d : Definition}
    (conforms : u.Conforms t takes) (known : t.get? u.definition = some d)
    (taken : takes declared d) : FieldValue.Fits t takes (.scalar (.nested declared)) (.nested u)
  | array {element : ScalarType} {items : List FieldValue}
    (fits : ∀ v ∈ items, FieldValue.Fits t takes (.scalar element) v) :
    FieldValue.Fits t takes (.array (some element)) (.array items)
  | empty : FieldValue.Fits t takes (.array none) (.array [])

end

/-- **A name names a definition** in a table. -/
def DefinitionTable.Names (t : DefinitionTable) (name : String) (d : Definition) : Prop :=
  t.get? name = some d

/-- A name does not name another definition. -/
def DefinitionTable.NamesOrKnowsNot (t : DefinitionTable) (name : String) (d : Definition) :
    Prop :=
  t.get? name = none ∨ t.Names name d

/-- **An annotation is set within a value for a type that is not known.** -/
inductive FieldValue.Stray (t : DefinitionTable) : FieldType → FieldValue → Prop where
  | here {declared : String} (u : AnnotationUse) (unknown : t.get? declared = none) :
    Stray t (.scalar (.nested declared)) (.nested u)
  | field {outer : ScalarType} {u : AnnotationUse} {d : Definition} {k : String}
    {v : FieldValue} {type : FieldType} (known : t.get? u.definition = some d)
    (value : Entries.find? k u.values = some v) (declared : d.fields.find? k = some type)
    (h : Stray t type v) : Stray t (.scalar outer) (.nested u)
  | item {element : ScalarType} {items : List FieldValue} {v : FieldValue} (mem : v ∈ items)
    (h : Stray t (.scalar element) v) : Stray t (.array (some element)) (.array items)

/-- An annotation is set within a use for a type that is not known. -/
def AnnotationUse.HasStray (t : DefinitionTable) (u : AnnotationUse) : Prop :=
  ∃ d k v type, t.get? u.definition = some d ∧ Entries.find? k u.values = some v
    ∧ d.fields.find? k = some type ∧ v.Stray t type

namespace DefinitionTable

variable {ds : List Definition} {d e : Definition} {name other : String}

/-- What a name stands for is registered under its own name. -/
theorem find?_name_of_get? (h : (ofList ds).get? name = some d) :
    (ofList ds).entries.find? d.name = some (.declared d) := by
  have hdeclared : ∀ n, (ofList ds).entries.find? n = some (.declared d) →
      (ofList ds).entries.find? d.name = some (.declared d) := by
    intro n hn
    have hstands := stands_ofList ds n
    rw [hn] at hstands
    rwa [hstands.2]
  unfold get? at h
  split at h
  case h_1 c hc =>
    obtain rfl := Option.some.inj h
    exact hdeclared name hc
  case h_2 q _ =>
    split at h
    case h_1 c hc =>
      obtain rfl := Option.some.inj h
      exact hdeclared q hc
    case h_2 => cases h
  case h_3 => cases h

/-- **Names that stand for definitions of one name** stand for the same definition. -/
theorem eq_of_name_eq (h : (ofList ds).get? name = some d) (h' : (ofList ds).get? other = some e)
    (hname : d.name = e.name) : d = e := by
  have hfind := find?_name_of_get? h
  rw [hname, find?_name_of_get? h'] at hfind
  exact (DefinitionEntry.declared.inj (Option.some.inj hfind)).symm

end DefinitionTable

namespace Formatter

variable {f : Formatter}

/-! ## Scalars -/

/-- An integer is written if it is within the range of the number of bits. -/
theorem isSome_ofInt?_iff {bits : Nat} {n : Int64} :
    (Literal.ofInt? bits n).isSome
      ↔ -(Nat.pow 2 (bits - 1) : Int) ≤ n.toInt ∧ n.toInt < Nat.pow 2 (bits - 1) := by
  unfold Literal.ofInt?
  split
  case isTrue h => exact iff_of_true rfl h
  case isFalse h => exact iff_of_false Bool.false_ne_true h

/-- **Literals are written exactly for the values that fit.** -/
theorem isSome_literal?_iff (t : ScalarType) (v : FieldValue) :
    (literal? t v).isSome ↔ v.IsLiteral t := by
  constructor
  · intro h
    cases t <;> cases v
    case boolean.bool b => exact .boolean b
    case byte.int n =>
      obtain ⟨hleast, hmost⟩ := isSome_ofInt?_iff.mp h
      exact .byte ⟨hleast, Int.le_of_lt_add_one hmost⟩
    case short.int n =>
      obtain ⟨hleast, hmost⟩ := isSome_ofInt?_iff.mp h
      exact .short ⟨hleast, Int.le_of_lt_add_one hmost⟩
    case int.int n =>
      obtain ⟨hleast, hmost⟩ := isSome_ofInt?_iff.mp h
      exact .int ⟨hleast, Int.le_of_lt_add_one hmost⟩
    case long.int n => exact .long n
    case float.float x => exact .float x
    case float.int n => exact .floatOfInt n
    case double.float x => exact .double x
    case double.int n => exact .doubleOfInt n
    case char.text s =>
      rw [literal?] at h
      split at h
      case h_1 c hc => exact .char hc
      case h_2 => cases h
    case string.text s => exact .string s
    case classLiteral.text name => exact .classLiteral name
    case enumeration.text typeName constant => exact .enumeration typeName constant
    all_goals cases h
  · intro h
    cases h with
    | byte range => exact isSome_ofInt?_iff.mpr ⟨range.1, Int.lt_add_one_of_le range.2⟩
    | short range => exact isSome_ofInt?_iff.mpr ⟨range.1, Int.lt_add_one_of_le range.2⟩
    | int range => exact isSome_ofInt?_iff.mpr ⟨range.1, Int.lt_add_one_of_le range.2⟩
    | char single =>
      rw [literal?, single]
      rfl
    | _ => rfl

/-- A value without annotations is written as a scalar if it fits. -/
theorem formatLiteral_ok_iff {site : FieldSite} {t : ScalarType} {v : FieldValue} :
    (∃ w, formatLiteral site t v = .ok w) ↔ v.IsLiteral t := by
  rw [← isSome_literal?_iff]
  unfold formatLiteral
  cases literal? t v with
  | some s => exact iff_of_true ⟨_, rfl⟩ rfl
  | none => exact iff_of_false (fun ⟨_, h⟩ => by cases h) Bool.false_ne_true

/-! ## What is written conforms -/

section Written

variable {ds : List Definition} {p : NamePolicy}

/-- An annotation use is written as a scalar if it is written and the type takes it. -/
theorem nestedValue_ok_iff {site : FieldSite} {t : ScalarType} {u : AnnotationUse}
    {written : Except PlanError Formatted} :
    (∃ w, nestedValue ⟨.ofList ds, p⟩ site t u written = .ok w)
      ↔ ∃ declared d, t = .nested declared
        ∧ (DefinitionTable.ofList ds).get? u.definition = some d
        ∧ (DefinitionTable.ofList ds).NamesOrKnowsNot declared d ∧ ∃ w, written = .ok w := by
  constructor
  · rintro ⟨w, h⟩
    cases t with
    | nested declared =>
      obtain ⟨d, hd, h⟩ := bind_eq_ok.mp h
      have hget := get?_of_definition hd
      refine ⟨declared, d, rfl, hget, ?_⟩
      dsimp only at h
      split at h
      case h_1 hnone => exact ⟨.inl hnone, w, h⟩
      case h_2 expected hexpected =>
        split at h
        case isTrue hname =>
          obtain rfl := DefinitionTable.eq_of_name_eq hexpected hget hname
          exact ⟨.inr hexpected, w, h⟩
        case isFalse => cases h
    | _ => cases h
  · rintro ⟨declared, d, rfl, hget, htaken, w, rfl⟩
    refine ⟨w, bind_eq_ok.mpr ⟨d, definition_of_get? hget, ?_⟩⟩
    rcases htaken with hnone | hsome
    · dsimp only
      rw [hnone]
    · dsimp only
      rw [show (DefinitionTable.ofList ds).get? declared = some d from hsome]
      exact if_pos rfl

mutual

/-- **A use that is written conforms.** -/
theorem conforms_of_format :
    ∀ (u : AnnotationUse) {w : Formatted}, format ⟨.ofList ds, p⟩ u = .ok w →
      u.Conforms (.ofList ds) (DefinitionTable.ofList ds).NamesOrKnowsNot
  | ⟨name, values⟩, w, h => by
    obtain ⟨d, hd, hdeclared, hvalues, -⟩ := format_eq_ok h
    refine .intro hd hdeclared (fun k v type hv ht => ?_)
    have hmem := Entries.mem_of_find? hv
    obtain ⟨w, hw⟩ := hvalues k (hdeclared (k, v) hmem) v hv type ht
    exact fits_of_fields values (k, v) hmem hw

/-- The values of a use that are written fit. -/
theorem fits_of_fields :
    ∀ values : List (String × FieldValue), ∀ v ∈ values,
      ∀ {site : FieldSite} {type : FieldType} {w : Formatted},
        formatValue ⟨.ofList ds, p⟩ site type v.2 = .ok w →
        v.2.Fits (.ofList ds) (DefinitionTable.ofList ds).NamesOrKnowsNot type
  | [] => fun _ hv => absurd hv List.not_mem_nil
  | (_, x) :: rest =>
    List.forall_mem_cons.mpr ⟨fun h => fits_of_formatValue x h, fits_of_fields rest⟩

/-- **A value that is written fits.** -/
theorem fits_of_formatValue :
    ∀ (v : FieldValue) {site : FieldSite} {type : FieldType} {w : Formatted},
      formatValue ⟨.ofList ds, p⟩ site type v = .ok w →
      v.Fits (.ofList ds) (DefinitionTable.ofList ds).NamesOrKnowsNot type
  | .nested u, site, .scalar t, w, h => by
    rw [formatValue] at h
    obtain ⟨declared, d, rfl, hget, htaken, w, hw⟩ := nestedValue_ok_iff.mp ⟨w, h⟩
    exact .nested (conforms_of_format u hw) hget htaken
  | .array items, site, .array (some element), w, h =>
    .array (fun v hv => by
      obtain ⟨w, hw⟩ := (formatArray_eq_ok h).1 v hv
      exact fits_of_items items v hv hw)
  | .array [], _, .array none, _, _ => .empty
  | .array (_ :: _), _, .array none, _, h => by cases h
  | .bool b, site, .scalar t, w, h => .literal (formatLiteral_ok_iff.mp ⟨w, h⟩)
  | .int n, site, .scalar t, w, h => .literal (formatLiteral_ok_iff.mp ⟨w, h⟩)
  | .float x, site, .scalar t, w, h => .literal (formatLiteral_ok_iff.mp ⟨w, h⟩)
  | .text s, site, .scalar t, w, h => .literal (formatLiteral_ok_iff.mp ⟨w, h⟩)
  | .array items, site, .scalar t, w, h => .literal (formatLiteral_ok_iff.mp ⟨w, h⟩)
  | .bool _, _, .array t, _, h | .int _, _, .array t, _, h | .float _, _, .array t, _, h
  | .text _, _, .array t, _, h | .nested _, _, .array t, _, h => by cases t <;> cases h

/-- The items of an array that are written fit. -/
theorem fits_of_items :
    ∀ items : List FieldValue, ∀ v ∈ items,
      ∀ {site : FieldSite} {type : FieldType} {w : Formatted},
        formatValue ⟨.ofList ds, p⟩ site type v = .ok w →
        v.Fits (.ofList ds) (DefinitionTable.ofList ds).NamesOrKnowsNot type
  | [] => fun _ hv => absurd hv List.not_mem_nil
  | x :: rest =>
    List.forall_mem_cons.mpr ⟨fun h => fits_of_formatValue x h, fits_of_items rest⟩

end

end Written

/-! ## What conforms is written -/

/-- Values that are all written can be put in order. -/
theorem exists_inOrder_ok {values : List (String × Except PlanError Formatted)} :
    ∀ {fields : List String},
      (∀ k ∈ fields, ∀ r, Entries.find? k values = some r → ∃ w, r = .ok w) →
      ∃ parts, inOrder fields values = .ok parts
  | [], _ => ⟨[], rfl⟩
  | k :: rest, h => by
    obtain ⟨hk, hrest⟩ := List.forall_mem_cons.mp h
    obtain ⟨parts, hparts⟩ := exists_inOrder_ok hrest
    rw [inOrder, List.foldr_cons]
    cases hfind : Entries.find? k values with
    | none => exact ⟨parts, hparts⟩
    | some r =>
      obtain ⟨w, rfl⟩ := hk r hfind
      exact ⟨(k, w) :: parts, bind_eq_ok.mpr ⟨w, rfl, bind_eq_ok.mpr ⟨parts, hparts, rfl⟩⟩⟩

/-- Items that are all written make an array. -/
theorem exists_formatItems_ok {site : FieldSite} {element : ScalarType} :
    ∀ {items : List FieldValue},
      (∀ v ∈ items, ∃ w, formatValue f site (.scalar element) v = .ok w) →
      ∃ parts, formatItems f site element items = .ok parts
  | [], _ => ⟨[], rfl⟩
  | v :: rest, h => by
    obtain ⟨⟨w, hw⟩, hrest⟩ := List.forall_mem_cons.mp h
    obtain ⟨parts, hparts⟩ := exists_formatItems_ok hrest
    exact ⟨w :: parts, formatItems_ok_iff.mpr (.cons hw (formatItems_ok_iff.mp hparts))⟩

/-- **A use is written** if its definition is known and declares the fields, and their
values are written. -/
theorem exists_format_ok {name : String} {values : List (String × FieldValue)} {d : Definition}
    (hd : f.definitions.get? name = some d) (hdeclared : ∀ v ∈ values, v.1 ∈ d.fields.keys)
    (hvalues : ∀ k v type, Entries.find? k values = some v → d.fields.find? k = some type →
      ∃ w, formatValue f ⟨d.name, k, type⟩ type v = .ok w) :
    ∃ w, format f ⟨name, values⟩ = .ok w := by
  have hwritten : ∀ k ∈ d.fields.keys, ∀ r, Entries.find? k (formatFields f d values) = some r →
      ∃ w, r = .ok w := by
    intro k _ r hr
    rw [find?_formatFields] at hr
    obtain ⟨v, hv, hr⟩ := Option.bind_eq_some_iff.mp hr
    obtain ⟨type, ht, rfl⟩ := Option.map_eq_some_iff.mp hr
    exact hvalues k v type hv ht
  obtain ⟨parts, hparts⟩ := exists_inOrder_ok hwritten
  exact ⟨_, format_ok_iff.mpr ⟨d, parts, hd, hdeclared, hparts, rfl⟩⟩

section Conforming

variable {ds : List Definition} {p : NamePolicy}

mutual

/-- **A use that conforms is written.** -/
theorem exists_format_of_conforms : ∀ {u : AnnotationUse},
    u.Conforms (.ofList ds) (DefinitionTable.ofList ds).NamesOrKnowsNot →
      ∃ w, format ⟨.ofList ds, p⟩ u = .ok w
  | _, .intro known declared fits =>
    exists_format_ok known declared (fun k v type hv ht =>
      exists_formatValue_of_fits (fits k v type hv ht) _)

/-- **A value that fits is written.** -/
theorem exists_formatValue_of_fits : ∀ {type : FieldType} {v : FieldValue},
    v.Fits (.ofList ds) (DefinitionTable.ofList ds).NamesOrKnowsNot type →
      ∀ site, ∃ w, formatValue ⟨.ofList ds, p⟩ site type v = .ok w
  | _, _, .literal h, site => by
    have hliteral : ∃ w, formatLiteral site _ _ = .ok w := formatLiteral_ok_iff.mpr h
    cases h <;> exact hliteral
  | _, _, .nested conforms known taken, site => by
    simp only [formatValue]
    exact nestedValue_ok_iff.mpr
      ⟨_, _, rfl, known, taken, exists_format_of_conforms conforms⟩
  | _, _, .array fits, site => by
    obtain ⟨parts, hparts⟩ := exists_formatItems_ok (fun v hv =>
      exists_formatValue_of_fits (fits v hv) site)
    rw [formatValue]
    exact ⟨_, bind_eq_ok.mpr ⟨parts, hparts, rfl⟩⟩
  | _, _, .empty, site => ⟨_, rfl⟩

end

end Conforming

end Formatter

/-! ## Fields of unknown types -/

section Stray

variable {t : DefinitionTable}

/-- **Where an annotation is set for an unknown type**, no value fits. -/
theorem FieldValue.Stray.not_fits {type : FieldType} {v : FieldValue} (h : v.Stray t type) :
    ¬ v.Fits t t.Names type := by
  induction h with
  | here u unknown =>
    intro hfits
    cases hfits with
    | literal h => cases h
    | nested conforms known taken => cases unknown.symm.trans taken
  | field known value declared h ih =>
    intro hfits
    cases hfits with
    | literal h => cases h
    | nested conforms _ taken =>
      cases conforms with
      | intro known' _ fits =>
        obtain rfl := Option.some.inj (known.symm.trans known')
        exact ih (fits _ _ _ value declared)
  | item mem h ih =>
    intro hfits
    cases hfits with
    | array fits => exact ih (fits _ mem)

mutual

/-- What conforms under the first answer conforms under the second one. -/
theorem AnnotationUse.Conforms.namesOrKnowsNot : ∀ {u : AnnotationUse},
    u.Conforms t t.Names → u.Conforms t t.NamesOrKnowsNot
  | _, .intro known declared fits =>
    .intro known declared (fun k v type hv ht => (fits k v type hv ht).namesOrKnowsNot)

/-- What fits under the first answer fits under the second one. -/
theorem FieldValue.Fits.namesOrKnowsNot : ∀ {type : FieldType} {v : FieldValue},
    v.Fits t t.Names type → v.Fits t t.NamesOrKnowsNot type
  | _, _, .literal h => .literal h
  | _, _, .nested conforms known taken => .nested conforms.namesOrKnowsNot known (.inr taken)
  | _, _, .array fits => .array (fun v hv => (fits v hv).namesOrKnowsNot)
  | _, _, .empty => .empty

end

mutual

/-- **Without annotations for unknown types** a use that conforms under the second answer
conforms under the first one. -/
theorem AnnotationUse.Conforms.names : ∀ {u : AnnotationUse},
    u.Conforms t t.NamesOrKnowsNot → ¬ u.HasStray t → u.Conforms t t.Names
  | _, .intro known declared fits, hstray =>
    .intro known declared (fun k v type hv ht =>
      (fits k v type hv ht).names (fun h => hstray ⟨_, k, v, type, known, hv, ht, h⟩))

/-- Without annotations for unknown types a value that fits under the second answer fits
under the first one. -/
theorem FieldValue.Fits.names : ∀ {type : FieldType} {v : FieldValue},
    v.Fits t t.NamesOrKnowsNot type → ¬ v.Stray t type → v.Fits t t.Names type
  | _, _, .literal h, _ => .literal h
  | _, _, .nested conforms known taken, hstray =>
    .nested (conforms.names (fun ⟨_, _, _, _, hd, hv, ht, h⟩ => hstray (.field hd hv ht h))) known
      (taken.resolve_left (fun hnone => hstray (.here _ hnone)))
  | _, _, .array fits, hstray =>
    .array (fun v hv => (fits v hv).names (fun h => hstray (.item hv h)))
  | _, _, .empty, _ => .empty

end

/-- **The two answers differ on annotations for unknown types only.** -/
theorem AnnotationUse.conforms_names_iff {u : AnnotationUse} :
    u.Conforms t t.Names ↔ u.Conforms t t.NamesOrKnowsNot ∧ ¬ u.HasStray t := by
  constructor
  · intro h
    refine ⟨h.namesOrKnowsNot, ?_⟩
    rintro ⟨d, k, v, type, hd, hv, ht, hstray⟩
    cases h with
    | intro known _ fits =>
      obtain rfl := Option.some.inj (hd.symm.trans known)
      exact hstray.not_fits (fits k v type hv ht)
  · exact fun ⟨h, hstray⟩ => h.names hstray

end Stray

/-- **What can be written**: exactly what conforms, once fields of an unknown annotation type
take every annotation. Where they take none, exactly what can be written and has no
annotation in such a field conforms. -/
theorem Formatter.formats_iff_conforms (ds : List Definition) (p : NamePolicy)
    (u : AnnotationUse) :
    ((∃ w, Formatter.format ⟨.ofList ds, p⟩ u = .ok w)
        ↔ u.Conforms (.ofList ds) (DefinitionTable.ofList ds).NamesOrKnowsNot)
      ∧ (u.Conforms (.ofList ds) (DefinitionTable.ofList ds).Names
        ↔ (∃ w, Formatter.format ⟨.ofList ds, p⟩ u = .ok w) ∧ ¬ u.HasStray (.ofList ds)) := by
  have hformats : (∃ w, Formatter.format ⟨.ofList ds, p⟩ u = .ok w)
      ↔ u.Conforms (.ofList ds) (DefinitionTable.ofList ds).NamesOrKnowsNot :=
    ⟨fun ⟨_, h⟩ => Formatter.conforms_of_format u h, Formatter.exists_format_of_conforms⟩
  refine ⟨hformats, ?_⟩
  rw [hformats]
  exact AnnotationUse.conforms_names_iff

/-- Two definitions, the first one with a field for annotations of a third one. -/
def Definition.straySample : List Definition := [
  ⟨"A", .compiled, OrderedMap.empty.insert "value" (.scalar (.nested "X")), none⟩,
  ⟨"B", .compiled, .empty, none⟩]

/-- An annotation of the second one in that field. -/
def AnnotationUse.straySample : AnnotationUse := ⟨"A", [("value", .nested ⟨"B", []⟩)]⟩

/-- **An annotation for an unknown type is written** although it does not conform. -/
theorem AnnotationUse.straySample_formats :
    ¬ ((∃ w, Formatter.format
          ⟨.ofList Definition.straySample, .ofTable (.ofList Definition.straySample)⟩
          AnnotationUse.straySample = .ok w)
      ↔ AnnotationUse.straySample.Conforms (.ofList Definition.straySample)
          (DefinitionTable.ofList Definition.straySample).Names) := by
  intro h
  have hwritten : Formatter.format
      ⟨.ofList Definition.straySample, .ofTable (.ofList Definition.straySample)⟩
      AnnotationUse.straySample = .ok ⟨"@A(@B)", []⟩ := by decide +kernel
  obtain ⟨d, hd, hfield⟩ : ∃ d,
      (DefinitionTable.ofList Definition.straySample).get? "A" = some d
        ∧ d.fields.find? "value" = some (.scalar (.nested "X")) :=
    ⟨⟨"A", .compiled, OrderedMap.empty.insert "value" (.scalar (.nested "X")), none⟩,
      by decide +kernel, by decide +kernel⟩
  have hstray : AnnotationUse.straySample.HasStray (.ofList Definition.straySample) :=
    ⟨d, "value", _, _, hd, rfl, hfield, .here _ (by decide +kernel)⟩
  exact (AnnotationUse.conforms_names_iff.mp (h.mp ⟨_, hwritten⟩)).2 hstray

end AnnotationPlan
