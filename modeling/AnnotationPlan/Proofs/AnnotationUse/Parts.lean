import AnnotationPlan.AnnotationUse.Format
import AnnotationPlan.Proofs.Outcome

/-!
# The parts of a written use

Everything that is shown of written annotation uses starts from what it takes to write one: its
definition is known and declares the fields that are set, and their values can be put in the
order of the definition (`Formatter.format_ok_iff`). What has been written then falls into parts,
one for each field that is set, in the order in which the definition declares them and each with
what is written for its value (`Formatter.exists_parts`).
-/

namespace AnnotationPlan

namespace Formatter

variable {f : Formatter}

/-- What a use is an annotation of. -/
theorem get?_of_definition {u : AnnotationUse} {d : Definition} (h : f.definition u = .ok d) :
    f.definitions.get? u.definition = some d := by
  unfold definition at h
  split at h
  case h_1 c hc => exact hc.trans (congrArg some (Except.ok.inj h))
  case h_2 => cases h

theorem definition_of_get? {u : AnnotationUse} {d : Definition}
    (h : f.definitions.get? u.definition = some d) : f.definition u = .ok d := by
  unfold definition
  rw [h]

/-- An annotation use as a scalar is what it is by itself. -/
theorem nestedValue_eq_ok {f : Formatter} {site : FieldSite} {t : ScalarType} {u : AnnotationUse}
    {written : Except PlanError Formatted} {w : Formatted}
    (h : f.nestedValue site t u written = .ok w) : written = .ok w := by
  cases t with
  | nested declared =>
    obtain ⟨d, -, h⟩ := bind_eq_ok.mp h
    split at h
    · exact h
    · split at h
      · exact h
      · cases h
  | _ => cases h

/-- **The items of an array are written** one by one. -/
theorem formatItems_ok_iff {site : FieldSite} {element : ScalarType} {items : List FieldValue}
    {parts : List Formatted} : formatItems f site element items = .ok parts ↔
      List.Forall₂ (fun v part => formatValue f site (.scalar element) v = .ok part)
        items parts := by
  induction items generalizing parts with
  | nil =>
    rw [List.forall₂_nil_left_iff]
    exact ⟨fun h => (Except.ok.inj h).symm, fun h => congrArg _ h.symm⟩
  | cons v rest ih =>
    rw [formatItems, bind_eq_ok, List.forall₂_cons_left_iff]
    constructor
    · rintro ⟨part, hpart, h⟩
      obtain ⟨more, hmore, h⟩ := bind_eq_ok.mp h
      exact ⟨part, more, hpart, ih.mp hmore, (Except.ok.inj h).symm⟩
    · rintro ⟨part, more, hpart, hmore, rfl⟩
      exact ⟨part, hpart, bind_eq_ok.mpr ⟨more, ih.mpr hmore, rfl⟩⟩

/-- The value written for a field is that given for it, as one of the declared type. -/
theorem find?_formatFields (f : Formatter) (d : Definition) (k : String)
    (values : List (String × FieldValue)) :
    Entries.find? k (formatFields f d values)
      = (Entries.find? k values).bind (fun v =>
          (d.fields.find? k).map (fun t => formatValue f ⟨d.name, k, t⟩ t v)) := by
  induction values with
  | nil => rfl
  | cons value rest ih =>
    obtain ⟨k', v⟩ := value
    rw [formatFields, Entries.find?]
    cases ht : d.fields.find? k' with
    | none =>
      rw [List.nil_append, ih]
      split
      case isTrue h =>
        subst h
        rw [ht]
        cases Entries.find? k' rest <;> rfl
      case isFalse => rfl
    | some t =>
      rw [List.singleton_append, Entries.find?]
      split
      case isTrue h =>
        subst h
        rw [Option.bind_some, ht]
        rfl
      case isFalse => exact ih

/-- **Values that are put in order** are those of the fields that have one. -/
theorem inOrder_spec {values : List (String × Except PlanError Formatted)} :
    ∀ {fields : List String} {parts : List (String × Formatted)},
      inOrder fields values = .ok parts →
      parts.map Prod.fst = fields.filter (fun k => (Entries.find? k values).isSome)
        ∧ ∀ part ∈ parts, Entries.find? part.1 values = some (.ok part.2)
  | [], _, h => by
    obtain rfl := Except.ok.inj h
    exact ⟨rfl, fun _ hpart => absurd hpart List.not_mem_nil⟩
  | k :: rest, parts, h => by
    rw [inOrder, List.foldr_cons] at h
    cases hk : Entries.find? k values with
    | none =>
      rw [hk] at h
      rw [List.filter_cons_of_neg (by rw [hk]; exact Bool.false_ne_true)]
      exact inOrder_spec h
    | some r =>
      rw [hk] at h
      obtain ⟨w, hw, hrest⟩ := bind_eq_ok.mp h
      obtain ⟨parts', hparts', hcons⟩ := bind_eq_ok.mp hrest
      obtain rfl := Except.ok.inj hcons
      obtain ⟨hfields, hvalues⟩ := inOrder_spec hparts'
      rw [List.filter_cons_of_pos (by rw [hk]; rfl), List.map_cons, hfields]
      exact ⟨rfl, List.forall_mem_cons.mpr ⟨hw ▸ hk, hvalues⟩⟩

/-- **When a use is written**, and how: its definition is known and declares the fields, and
their values can be put in order. -/
theorem format_ok_iff {name : String} {values : List (String × FieldValue)} {w : Formatted} :
    format f ⟨name, values⟩ = .ok w ↔
      ∃ d parts, f.definitions.get? name = some d ∧ (∀ v ∈ values, v.1 ∈ d.fields.keys)
        ∧ inOrder d.fields.keys (formatFields f d values) = .ok parts
        ∧ w = ⟨"@" ++ f.displayName d.name ++ argumentText parts,
          importsOf (f.importOf d.name) (parts.map Prod.snd)⟩ := by
  have hdeclared : ∀ d : Definition, values.find? (fun v => !d.fields.contains v.1) = none
      ↔ ∀ v ∈ values, v.1 ∈ d.fields.keys := fun d => by
    rw [List.find?_eq_none]
    refine forall₂_congr (fun v _ => ?_)
    rw [Bool.not_eq_true, Bool.not_eq_false']
    exact Entries.isSome_find?_iff _ _
  rw [format, bind_eq_ok]
  constructor
  · rintro ⟨d, hd, h⟩
    split at h
    case h_1 => cases h
    case h_2 hfind =>
      obtain ⟨parts, hparts, h⟩ := bind_eq_ok.mp h
      exact ⟨d, parts, get?_of_definition hd, (hdeclared d).mp hfind, hparts,
        (Except.ok.inj h).symm⟩
  · rintro ⟨d, parts, hd, hkeys, hparts, rfl⟩
    have hdefinition : f.definition ⟨name, values⟩ = .ok d := definition_of_get? hd
    refine ⟨d, hdefinition, ?_⟩
    rw [(hdeclared d).mpr hkeys]
    exact bind_eq_ok.mpr ⟨parts, hparts, rfl⟩

/-- **The parts of a use that is written**: the fields that it sets, in the order of its
definition, each with what is written for its value. -/
theorem exists_parts {name : String} {values : List (String × FieldValue)} {w : Formatted}
    (h : format f ⟨name, values⟩ = .ok w) :
    ∃ d parts, f.definitions.get? name = some d ∧ (∀ v ∈ values, v.1 ∈ d.fields.keys)
      ∧ parts.map Prod.fst = d.fields.keys.filter (· ∈ values.map Prod.fst)
      ∧ (∀ part ∈ parts, ∃ v type, Entries.find? part.1 values = some v
          ∧ d.fields.find? part.1 = some type
          ∧ formatValue f ⟨d.name, part.1, type⟩ type v = .ok part.2)
      ∧ w = ⟨"@" ++ f.displayName d.name ++ argumentText parts,
          importsOf (f.importOf d.name) (parts.map Prod.snd)⟩ := by
  obtain ⟨d, parts, hd, hdeclared, hparts, hw⟩ := format_ok_iff.mp h
  obtain ⟨hfields, hvalues⟩ := inOrder_spec hparts
  refine ⟨d, parts, hd, hdeclared, hfields.trans ?_, fun part hpart => ?_, hw⟩
  · refine List.filter_congr (fun k hk => ?_)
    obtain ⟨type, ht⟩ := Option.isSome_iff_exists.mp ((Entries.isSome_find?_iff k _).mpr hk)
    have htype : d.fields.find? k = some type := ht
    rw [find?_formatFields, htype, Bool.eq_iff_iff, decide_eq_true_iff,
      ← Entries.isSome_find?_iff]
    cases Entries.find? k values <;> exact Iff.rfl
  · have hfind := hvalues part hpart
    rw [find?_formatFields] at hfind
    obtain ⟨v, hv, hfind⟩ := Option.bind_eq_some_iff.mp hfind
    obtain ⟨type, ht, hwritten⟩ := Option.map_eq_some_iff.mp hfind
    exact ⟨v, type, hv, ht, hwritten⟩

/-- **What is there for some keys corresponds to the parts** that belong to these keys. -/
theorem forall₂_filterMap {α β γ : Type} {g : α → Option γ} {R : α × β → γ → Prop} :
    ∀ {keys : List α} {parts : List (α × β)},
      parts.map Prod.fst = keys.filter (fun k => (g k).isSome) →
      (∀ part ∈ parts, ∀ c, g part.1 = some c → R part c) →
      List.Forall₂ R parts (keys.filterMap g)
  | [], parts, hkeys, _ => by
    obtain rfl := List.map_eq_nil_iff.mp hkeys
    exact .nil
  | k :: keys, parts, hkeys, hset => by
    cases hk : g k with
    | none =>
      rw [List.filter_cons_of_neg (by rw [hk]; exact Bool.false_ne_true)] at hkeys
      rw [List.filterMap_cons_none hk]
      exact forall₂_filterMap hkeys hset
    | some c =>
      rw [List.filter_cons_of_pos (by rw [hk]; rfl)] at hkeys
      obtain ⟨part, parts', rfl, rfl, hkeys'⟩ := List.map_eq_cons_iff.mp hkeys
      obtain ⟨hpart, hset⟩ := List.forall_mem_cons.mp hset
      rw [List.filterMap_cons_some hk]
      exact .cons (hpart c hk) (forall₂_filterMap hkeys' hset)

end Formatter

end AnnotationPlan
