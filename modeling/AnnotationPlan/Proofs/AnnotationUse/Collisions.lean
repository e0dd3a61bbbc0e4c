import AnnotationPlan.Proofs.AnnotationUse.Agreement
import AnnotationPlan.Proofs.AnnotationUse.Arguments
import AnnotationPlan.Proofs.AnnotationUse.Parts

/-!
# Texts coincide under all name policies or under none

Of two uses that are the same only one is written on a position, provided that their texts
are the same too. Uses that are the same may be written differently: their values are
compared as numbers, and the two zeros are the same number. Whether their texts are the
same has nothing to do with how names are spelled (`Formatter.text_eq_iff_of_same`). For
uses that are the same name the same definitions everywhere, so all names in the one text
stand in the other as well, at corresponding places, and what differs is a number or the
presence of a field.
-/

namespace AnnotationPlan

open Literal (isPlain)

namespace Formatter

variable {definitions : DefinitionTable} {p q : NamePolicy}

/-- The text of what was written, if it could be written. -/
def spelled : Except PlanError Formatted → List Char
  | .ok w => w.text.toList
  | .error _ => []

/-- What is written in either way, compared under all policies if it can be written. -/
def Compares (F G : NamePolicy → Except PlanError Formatted) : Prop :=
  (∀ p, ∃ w, F p = .ok w) → (∀ p, ∃ w, G p = .ok w) →
    Compared (fun p => spelled (F p)) (fun p => spelled (G p))

/-! ## Scalars -/

/-- **Scalars that are the same and hold no annotation** differ as numbers do. -/
theorem formatLiteral_compares (site : FieldSite) (t : ScalarType) {v v' : FieldValue}
    (h : v.same v' = true) (hnested : ∀ u, v ≠ .nested u) :
    Compares (fun _ => formatLiteral site t v) (fun _ => formatLiteral site t v') := by
  have hself : ∀ v : FieldValue,
      Compares (fun _ => formatLiteral site t v) (fun _ => formatLiteral site t v) :=
    fun v _ _ => .equal (fun _ => rfl)
  cases v <;> cases v' <;> try exact absurd h Bool.false_ne_true
  case bool.bool a b =>
    obtain rfl : a = b := by simpa [FieldValue.same] using h
    exact hself _
  case int.int a b =>
    obtain rfl : a = b := by simpa [FieldValue.same] using h
    exact hself _
  case text.text a b =>
    obtain rfl : a = b := by simpa [FieldValue.same] using h
    exact hself _
  case nested.nested u _ => exact absurd rfl (hnested u)
  case array.array xs ys =>
    intro hok
    obtain ⟨w, hw⟩ := hok ⟨[]⟩
    cases t <;> cases hw
  case float.float a b =>
    intro hok _
    cases t with
    | float =>
      exact .of_isPlain (Literal.isPlain_of_mem_ofFloat rfl rfl a)
        (Literal.isPlain_of_mem_ofFloat rfl rfl b)
    | double =>
      exact .of_isPlain (Literal.isPlain_of_mem_ofFloat rfl rfl a)
        (Literal.isPlain_of_mem_ofFloat rfl rfl b)
    | _ =>
      obtain ⟨w, hw⟩ := hok ⟨[]⟩
      cases hw

theorem nestedValue_compares (site : FieldSite) (t : ScalarType) {u v : AnnotationUse}
    {F G : NamePolicy → Except PlanError Formatted} (h : Compares F G) :
    Compares (fun p => nestedValue ⟨definitions, p⟩ site t u (F p))
      (fun p => nestedValue ⟨definitions, p⟩ site t v (G p)) := by
  intro hF hG
  choose X hX using hF
  choose Y hY using hG
  have hX' : ∀ p, F p = .ok (X p) := fun p => nestedValue_eq_ok (hX p)
  have hY' : ∀ p, G p = .ok (Y p) := fun p => nestedValue_eq_ok (hY p)
  have hsame := h (fun p => ⟨X p, hX' p⟩) (fun p => ⟨Y p, hY' p⟩)
  simp only [hX', hY'] at hsame
  simp only [hX, hY]
  exact hsame

/-! ## Arrays -/

/-- The items of an array that can be written are written one by one. -/
theorem formatItems_eq_ok {f : Formatter} {site : FieldSite} {element : ScalarType}
    {items : List FieldValue} {parts : List Formatted}
    (h : formatItems f site element items = .ok parts) :
    (∀ v ∈ items, ∃ w, formatValue f site (.scalar element) v = .ok w)
    ∧ parts.map (·.text.toList)
      = items.map (fun v => spelled (formatValue f site (.scalar element) v)) := by
  induction formatItems_ok_iff.mp h with
  | nil => exact ⟨fun _ hv => absurd hv List.not_mem_nil, rfl⟩
  | @cons v part _ _ hpart hrest ih =>
    obtain ⟨hitems, htexts⟩ := ih (formatItems_ok_iff.mpr hrest)
    refine ⟨List.forall_mem_cons.mpr ⟨⟨part, hpart⟩, hitems⟩, ?_⟩
    rw [List.map_cons, List.map_cons, htexts, hpart]
    rfl

/-- What is written in either way as a value of any type. -/
def ComparesValues (definitions : DefinitionTable) (v v' : FieldValue) : Prop :=
  ∀ site t, Compares (fun p => formatValue ⟨definitions, p⟩ site t v)
    (fun p => formatValue ⟨definitions, p⟩ site t v')

/-- How a value is spelled as an item of an array. -/
def itemSpelling (definitions : DefinitionTable) (site : FieldSite) (element : ScalarType)
    (v : FieldValue) : Spelling :=
  fun p => spelled (formatValue ⟨definitions, p⟩ site (.scalar element) v)

/-- Items that can be written compare one by one. -/
theorem itemSpellings_compared {site : FieldSite} {element : ScalarType} :
    ∀ {items items' : List FieldValue},
      List.Forall₂ (ComparesValues definitions) items items' →
      (∀ v ∈ items, ∀ p, ∃ w, formatValue ⟨definitions, p⟩ site (.scalar element) v = .ok w) →
      (∀ v ∈ items', ∀ p, ∃ w, formatValue ⟨definitions, p⟩ site (.scalar element) v = .ok w) →
      List.Forall₂ Compared (items.map (itemSpelling definitions site element))
        (items'.map (itemSpelling definitions site element))
  | _, _, .nil, _, _ => .nil
  | _, _, .cons h hrest, hok, hok' => by
    obtain ⟨hv, hok⟩ := List.forall_mem_cons.mp hok
    obtain ⟨hv', hok'⟩ := List.forall_mem_cons.mp hok'
    exact .cons (h site (.scalar element) hv hv') (itemSpellings_compared hrest hok hok')

/-- **An array that can be written** is written item by item. -/
theorem formatArray_eq_ok {f : Formatter} {site : FieldSite} {element : ScalarType}
    {items : List FieldValue} {w : Formatted}
    (h : formatValue f site (.array (some element)) (.array items) = .ok w) :
    (∀ v ∈ items, ∃ w, formatValue f site (.scalar element) v = .ok w)
    ∧ w.text.toList = ['\x7b'] ++ ([','].intercalate
        (items.map (fun v => spelled (formatValue f site (.scalar element) v))) ++ ['\x7d']) := by
  rw [formatValue] at h
  obtain ⟨parts, hparts, h⟩ := bind_eq_ok.mp h
  obtain rfl := Except.ok.inj h
  obtain ⟨hitems, htexts⟩ := formatItems_eq_ok hparts
  refine ⟨hitems, ?_⟩
  show ("\x7b" ++ String.intercalate "," (parts.map Formatted.text) ++ "\x7d").toList = _
  rw [String.toList_append, String.toList_append, String.toList_intercalate, List.map_map,
    ← htexts, List.append_assoc]
  rfl

/-- **Arrays compare as their items do.** -/
theorem formatArray_compares (site : FieldSite) (element : ScalarType)
    {items items' : List FieldValue}
    (h : List.Forall₂ (ComparesValues definitions) items items') :
    Compares (fun p => formatValue ⟨definitions, p⟩ site (.array (some element)) (.array items))
      (fun p => formatValue ⟨definitions, p⟩ site (.array (some element)) (.array items')) := by
  intro hok hok'
  have hspelled : ∀ items p, (∃ w, formatValue ⟨definitions, p⟩ site (.array (some element))
        (.array items) = .ok w) →
      spelled (formatValue ⟨definitions, p⟩ site (.array (some element)) (.array items))
        = ['\x7b'] ++ ([','].intercalate
          ((items.map (itemSpelling definitions site element)).map (· p)) ++ ['\x7d']) := by
    rintro items p ⟨w, hw⟩
    rw [List.map_map, hw]
    exact (formatArray_eq_ok hw).2
  have hitems : ∀ items, (∀ p, ∃ w, formatValue ⟨definitions, p⟩ site (.array (some element))
        (.array items) = .ok w) →
      ∀ v ∈ items, ∀ p, ∃ w, formatValue ⟨definitions, p⟩ site (.scalar element) v = .ok w :=
    fun items hok v hv p => (formatArray_eq_ok (hok p).choose_spec).1 v hv
  simp only [fun p => hspelled items p (hok p), fun p => hspelled items' p (hok' p)]
  have hall := itemSpellings_compared h (hitems items hok) (hitems items' hok')
  exact ((Compared.intercalate rfl [] hall).append_closing rfl []).prepend (fun _ => ['\x7b'])

/-! ## Uses -/

/-- How the value of a field is spelled, if there is one. -/
def fieldSpelling? (definitions : DefinitionTable) (d : Definition)
    (values : List (String × FieldValue)) (k : String) : Option Spelling :=
  (Entries.find? k values).bind (fun v => (d.fields.find? k).map (fun t p =>
    spelled (formatValue ⟨definitions, p⟩ ⟨d.name, k, t⟩ t v)))

/-- The fields that are set, in the order of the definition, and how their values are
spelled. -/
def fieldSpellings (definitions : DefinitionTable) (d : Definition)
    (values : List (String × FieldValue)) (fields : List String) : List (String × Spelling) :=
  fields.filterMap (fun k => (fieldSpelling? definitions d values k).map (fun s => (k, s)))

/-- **A use that can be written** names a known definition, sets no other fields than those
of the definition, and is written value by value. -/
theorem format_eq_ok {name : String} {values : List (String × FieldValue)} {w : Formatted}
    (h : format ⟨definitions, p⟩ ⟨name, values⟩ = .ok w) :
    ∃ d, definitions.get? name = some d
      ∧ (∀ v ∈ values, v.1 ∈ d.fields.keys)
      ∧ (∀ k ∈ d.fields.keys, ∀ v, Entries.find? k values = some v →
          ∀ t, d.fields.find? k = some t →
            ∃ w, formatValue ⟨definitions, p⟩ ⟨d.name, k, t⟩ t v = .ok w)
      ∧ w.text.toList = ("@" ++ displayName ⟨definitions, p⟩ d.name).toList
          ++ argumentSpelling (fieldSpellings definitions d values d.fields.keys) p := by
  obtain ⟨d, parts, hd, hdeclared, hfields, hparts, rfl⟩ := exists_parts h
  refine ⟨d, hd, hdeclared, fun k hk v hv t ht => ?_, ?_⟩
  · have hmem : k ∈ parts.map Prod.fst := by
      rw [hfields, List.mem_filter, decide_eq_true_iff]
      exact ⟨hk, List.mem_map.mpr ⟨_, Entries.mem_of_find? hv, rfl⟩⟩
    obtain ⟨part, hpart, rfl⟩ := List.mem_map.mp hmem
    obtain ⟨v', t', hv', ht', hw⟩ := hparts part hpart
    obtain rfl := Option.some.inj (hv.symm.trans hv')
    obtain rfl := Option.some.inj (ht.symm.trans ht')
    exact ⟨part.2, hw⟩
  · show ("@" ++ displayName ⟨definitions, p⟩ d.name ++ argumentText parts).toList = _
    rw [String.toList_append, toList_argumentText]
    unfold argumentSpelling fieldSpellings
    rw [List.map_filterMap]
    refine congrArg (fun vs => _ ++ argumentChars vs) ?_
    rw [← List.forall₂_eq_eq_eq, List.forall₂_map_left_iff]
    refine forall₂_filterMap (hfields.trans (List.filter_congr (fun k hk => ?_))) ?_
    · obtain ⟨t, ht⟩ := Option.isSome_iff_exists.mp ((Entries.isSome_find?_iff k _).mpr hk)
      have htype : d.fields.find? k = some t := ht
      rw [fieldSpelling?, htype, Bool.eq_iff_iff, decide_eq_true_iff, ← Entries.isSome_find?_iff]
      cases Entries.find? k values <;> exact Iff.rfl
    · intro part hpart c hc
      obtain ⟨v, t, hv, ht, hw⟩ := hparts part hpart
      rw [fieldSpelling?, hv, Option.bind_some, ht] at hc
      obtain rfl := Option.some.inj hc
      show _ = (part.1, spelled _)
      rw [hw]
      rfl

/-- What is written in either way as an annotation use. -/
def ComparesUses (definitions : DefinitionTable) (u v : AnnotationUse) : Prop :=
  Compares (fun p => format ⟨definitions, p⟩ u) (fun p => format ⟨definitions, p⟩ v)

/-- The values given for the fields of one use are given for the same fields of another one,
where they compare. -/
def ComparesFields (definitions : DefinitionTable) (values values' : List (String × FieldValue)) :
    Prop :=
  ∀ k v, Entries.find? k values = some v →
    ∃ v', Entries.find? k values' = some v' ∧ ComparesValues definitions v v'

/-- The fields that are set are those that a value is given for. -/
theorem fieldSpelling?_eq_some {d : Definition} {values : List (String × FieldValue)} {k : String}
    {s : Spelling} (h : fieldSpelling? definitions d values k = some s) :
    ∃ v t, Entries.find? k values = some v ∧ d.fields.find? k = some t
      ∧ s = fun p => spelled (formatValue ⟨definitions, p⟩ ⟨d.name, k, t⟩ t v) := by
  obtain ⟨v, hv, h⟩ := Option.bind_eq_some_iff.mp h
  obtain ⟨t, ht, h⟩ := Option.map_eq_some_iff.mp h
  exact ⟨v, t, hv, ht, h.symm⟩

theorem fieldSpellings_cons (d : Definition) (values : List (String × FieldValue)) (k : String)
    (rest : List String) :
    fieldSpellings definitions d values (k :: rest)
      = ((fieldSpelling? definitions d values k).map (fun s => (k, s))).toList
        ++ fieldSpellings definitions d values rest := by
  unfold fieldSpellings
  rw [List.filterMap_cons]
  cases fieldSpelling? definitions d values k <;> rfl

/-- A use sets the fields of another one if its values compare with those of the other. -/
theorem fieldSpellings_covered {d : Definition} {values values' : List (String × FieldValue)}
    (h : ComparesFields definitions values values') :
    ∀ fields : List String,
      (∀ vs, vs = values ∨ vs = values' → ∀ k ∈ fields, ∀ v, Entries.find? k vs = some v →
        ∀ t, d.fields.find? k = some t →
          ∀ p, ∃ w, formatValue ⟨definitions, p⟩ ⟨d.name, k, t⟩ t v = .ok w) →
      Covered (fieldSpellings definitions d values fields)
        (fieldSpellings definitions d values' fields)
  | [], _ => .nil
  | k :: rest, hok => by
    have hrest := fieldSpellings_covered h rest
      (fun vs hvs j hj => hok vs hvs j (List.mem_cons_of_mem k hj))
    rw [fieldSpellings_cons, fieldSpellings_cons]
    cases hs : fieldSpelling? definitions d values k with
    | some s =>
      obtain ⟨v, t, hv, ht, rfl⟩ := fieldSpelling?_eq_some hs
      obtain ⟨v', hv', hcompares⟩ := h k v hv
      have hs' : fieldSpelling? definitions d values' k
          = some fun p => spelled (formatValue ⟨definitions, p⟩ ⟨d.name, k, t⟩ t v') := by
        rw [fieldSpelling?, hv', Option.bind_some, ht]
        rfl
      rw [hs']
      refine .both k (hcompares _ t ?_ ?_) hrest
      · exact hok values (.inl rfl) k List.mem_cons_self v hv t ht
      · exact hok values' (.inr rfl) k List.mem_cons_self v' hv' t ht
    | none =>
      cases fieldSpelling? definitions d values' k with
      | none => exact hrest
      | some t => exact .further (k, t) hrest

/-- **Uses of one definition compare as their values do**, if they give as many. -/
theorem format_compares {name : String} {values values' : List (String × FieldValue)}
    (hlength : values.length = values'.length)
    (h : ComparesFields definitions values values') :
    ComparesUses definitions ⟨name, values⟩ ⟨name, values'⟩ := by
  intro hok hok'
  obtain ⟨d, hd, hdeclared, -, -⟩ := format_eq_ok (hok ⟨[]⟩).choose_spec
  have hwritten : ∀ vs, (∀ p, ∃ w, format ⟨definitions, p⟩ ⟨name, vs⟩ = .ok w) → ∀ p,
      (∀ k ∈ d.fields.keys, ∀ v, Entries.find? k vs = some v → ∀ t, d.fields.find? k = some t →
        ∃ w, formatValue ⟨definitions, p⟩ ⟨d.name, k, t⟩ t v = .ok w)
      ∧ spelled (format ⟨definitions, p⟩ ⟨name, vs⟩)
        = ("@" ++ displayName ⟨definitions, p⟩ d.name).toList
          ++ argumentSpelling (fieldSpellings definitions d vs d.fields.keys) p := by
    intro vs hok p
    obtain ⟨w, hw⟩ := hok p
    obtain ⟨c, hc, -, hvalues, htext⟩ := format_eq_ok hw
    obtain rfl : d = c := Option.some.inj (hd.symm.trans hc)
    rw [hw]
    exact ⟨hvalues, htext⟩
  simp only [fun p => (hwritten values hok p).2, fun p => (hwritten values' hok' p).2]
  refine (Covered.compared (fieldSpellings_covered h _ ?_) ?_).prepend _
  · rintro vs (rfl | rfl) k hk v hv t ht p
    · exact (hwritten vs hok p).1 k hk v hv t ht
    · exact (hwritten vs hok' p).1 k hk v hv t ht
  · -- a use with a value has arguments, since the value is that of a declared field
    intro hnil
    cases values with
    | nil =>
      obtain rfl := List.eq_nil_of_length_eq_zero hlength.symm
      exact hnil
    | cons v rest =>
      have hk : v.1 ∈ d.fields.keys := hdeclared v List.mem_cons_self
      obtain ⟨t, ht⟩ := Option.isSome_iff_exists.mp ((Entries.isSome_find?_iff _ _).mpr hk)
      have hnone := List.filterMap_eq_nil_iff.mp hnil v.1 hk
      rw [fieldSpelling?, Entries.find?, if_pos rfl, Option.bind_some,
        show d.fields.find? v.1 = some t from ht] at hnone
      cases hnone

/-- Scalars that are the same compare, unless they hold annotations. -/
theorem comparesValues_of_scalar {v v' : FieldValue} (h : v.same v' = true)
    (hnested : ∀ u, v ≠ .nested u) (harray : ∀ items, v ≠ .array items) :
    ComparesValues definitions v v' := by
  intro site t
  cases t with
  | scalar t =>
    have hliteral := formatLiteral_compares site t h hnested
    cases v <;> cases v' <;> first
      | exact hliteral
      | cases h
      | exact absurd rfl (hnested _)
  | array element =>
    intro hok
    obtain ⟨w, hw⟩ := hok ⟨[]⟩
    cases element <;> cases v <;> first
      | cases hw
      | exact absurd rfl (hnested _)
      | exact absurd rfl (harray _)

mutual

/-- **Values that are the same** compare, whatever type they are written as. -/
theorem comparesValues_of_same (definitions : DefinitionTable) :
    ∀ v v' : FieldValue, v.same v' = true → ComparesValues definitions v v'
  | .nested u, .nested u', h => fun site t => by
    have huses := comparesUses_of_same definitions u u' (by simpa [FieldValue.same] using h)
    cases t with
    | scalar t =>
      simp only [formatValue]
      exact nestedValue_compares site t huses
    | array element =>
      intro hok
      obtain ⟨w, hw⟩ := hok ⟨[]⟩
      cases element <;> cases hw
  | .array items, .array items', h => fun site t => by
    have hitems := comparesItems_of_same definitions items items'
      (by simpa [FieldValue.same] using h)
    cases t with
    | scalar t => exact formatLiteral_compares site t h (fun _ hu => by cases hu)
    | array element =>
      cases element with
      | some element => exact formatArray_compares site element hitems
      | none =>
        intro hok
        cases hitems with
        | nil => exact fun _ => .equal (fun _ => rfl)
        | cons _ _ =>
          obtain ⟨w, hw⟩ := hok ⟨[]⟩
          cases hw
  | .bool _, _, h | .int _, _, h | .float _, _, h | .text _, _, h =>
    comparesValues_of_scalar h (fun _ hu => by cases hu) (fun _ ha => by cases ha)
  | .nested u, .bool _, h | .nested u, .int _, h | .nested u, .float _, h
  | .nested u, .text _, h | .nested u, .array _, h => by cases h
  | .array u, .bool _, h | .array u, .int _, h | .array u, .float _, h
  | .array u, .text _, h | .array u, .nested _, h => by cases h

/-- **Uses that are the same** compare. -/
theorem comparesUses_of_same (definitions : DefinitionTable) :
    ∀ u v : AnnotationUse, u.same v = true → ComparesUses definitions u v
  | ⟨name, values⟩, ⟨name', values'⟩, h => by
    rw [AnnotationUse.same] at h
    simp only [Bool.and_eq_true, beq_iff_eq] at h
    obtain ⟨⟨rfl, hlength⟩, hvalues⟩ := h
    exact format_compares hlength (comparesFields_of_same definitions values values' hvalues)

/-- Items that are the same compare one by one. -/
theorem comparesItems_of_same (definitions : DefinitionTable) :
    ∀ items items' : List FieldValue, FieldValue.sameItems items items' = true →
      List.Forall₂ (ComparesValues definitions) items items'
  | [], [], _ => .nil
  | [], _ :: _, h => by cases h
  | _ :: _, [], h => by cases h
  | v :: rest, v' :: rest', h => by
    rw [FieldValue.sameItems, Bool.and_eq_true] at h
    exact .cons (comparesValues_of_same definitions v v' h.1)
      (comparesItems_of_same definitions rest rest' h.2)

/-- Values of fields that are the same compare. -/
theorem comparesFields_of_same (definitions : DefinitionTable) :
    ∀ values values' : List (String × FieldValue), FieldValue.sameIn values values' = true →
      ComparesFields definitions values values'
  | [], _, _ => fun _ _ hv => by cases hv
  | (k, v) :: rest, values', h => by
    rw [FieldValue.sameIn, Bool.and_eq_true] at h
    obtain ⟨hsame, hrest⟩ := h
    intro j w hw
    rw [Entries.find?] at hw
    split at hw
    case isFalse => exact comparesFields_of_same definitions rest values' hrest j w hw
    case isTrue hk =>
      subst hk
      obtain rfl := Option.some.inj hw
      split at hsame
      case h_1 v' hv' => exact ⟨v', hv', comparesValues_of_same definitions v v' hsame⟩
      case h_2 => cases hsame

end

/-- **Two uses that are the same are written alike under one name policy** exactly if they
are under another one. -/
theorem text_eq_iff_of_same {u v : AnnotationUse} (h : u.same v = true)
    {x y x' y' : Formatted} (hx : format ⟨definitions, p⟩ u = .ok x)
    (hy : format ⟨definitions, p⟩ v = .ok y) (hx' : format ⟨definitions, q⟩ u = .ok x')
    (hy' : format ⟨definitions, q⟩ v = .ok y') : x.text = y.text ↔ x'.text = y'.text := by
  have hok : ∀ {u w}, format ⟨definitions, p⟩ u = .ok w →
      ∀ r, ∃ w, format ⟨definitions, r⟩ u = .ok w := fun hw r => by
    obtain ⟨w', hw', -⟩ := (format_agree definitions p r _).exists_of_ok hw
    exact ⟨w', hw'⟩
  have hcompared := comparesUses_of_same definitions u v h (hok hx) (hok hy)
  have hp : x.text.toList = y.text.toList ↔ x'.text.toList = y'.text.toList := by
    have hspelled := Iff.intro (hcompared.eq_of_eq (p := p) · q) (hcompared.eq_of_eq (p := q) · p)
    simp only [hx, hy, hx', hy'] at hspelled
    exact hspelled
  rwa [String.toList_inj, String.toList_inj] at hp

end Formatter

end AnnotationPlan
