import AnnotationPlan.Proofs.AnnotationUse.Sameness

/-!
# The order of fields is that of the definition

The values of a use stand in the order in which a scene gives them, but they are written in the
order in which the definition declares the fields. What is looked at in the order of the values
is only whether the fields are declared. So a use can be taken apart into the fields that it
sets, in the order of the definition, with what is written for each
(`Formatter.exists_parts`), and from these its text is put together
(`Formatter.Arrangement`).

Nothing else of the order of the values is left. A use and the same use with the values put in
another order – its own values, or those of any annotation within them
(`AnnotationUse.Reordered`) – are written alike or cannot be written, both of them
(`Formatter.format_in_field_order`). A field must not be set twice for that, since the first of
two values would count.
-/

namespace AnnotationPlan

/-! ## Values in another order -/

mutual

/-- **A use with its values in another order**: those of the use itself, or those of annotations
within it, at any depth and any number of times. -/
inductive AnnotationUse.Reordered : AnnotationUse → AnnotationUse → Prop where
  | values {name : String} {values values' : List (String × FieldValue)}
    (perm : values.Perm values') : AnnotationUse.Reordered ⟨name, values⟩ ⟨name, values'⟩
  | value {name k : String} {before after : List (String × FieldValue)} {x y : FieldValue}
    (h : FieldValue.Reordered x y) :
    AnnotationUse.Reordered ⟨name, before ++ (k, x) :: after⟩ ⟨name, before ++ (k, y) :: after⟩
  | trans {u v w : AnnotationUse} (h : AnnotationUse.Reordered u v)
    (h' : AnnotationUse.Reordered v w) : AnnotationUse.Reordered u w

/-- **A value with the values of an annotation within it in another order.** -/
inductive FieldValue.Reordered : FieldValue → FieldValue → Prop where
  | nested {u v : AnnotationUse} (h : AnnotationUse.Reordered u v) :
    FieldValue.Reordered (.nested u) (.nested v)
  | item {before after : List FieldValue} {x y : FieldValue} (h : FieldValue.Reordered x y) :
    FieldValue.Reordered (.array (before ++ x :: after)) (.array (before ++ y :: after))

end

mutual

/-- The values can be put back in their order. -/
theorem AnnotationUse.Reordered.symm : ∀ {u v : AnnotationUse}, u.Reordered v → v.Reordered u
  | _, _, .values perm => .values perm.symm
  | _, _, .value h => .value h.symm
  | _, _, .trans h h' => .trans h'.symm h.symm

theorem FieldValue.Reordered.symm : ∀ {x y : FieldValue}, x.Reordered y → y.Reordered x
  | _, _, .nested h => .nested h.symm
  | _, _, .item h => .item h.symm

end

/-- It is still a use of the same definition. -/
theorem AnnotationUse.Reordered.definition_eq : ∀ {u v : AnnotationUse}, u.Reordered v →
    u.definition = v.definition
  | _, _, .values _ => rfl
  | _, _, .value _ => rfl
  | _, _, .trans h h' => h.definition_eq.trans h'.definition_eq

/-- What is in a list with one of its members replaced is the new member, or was there. -/
theorem mem_of_mem_replaced {α : Type} {before after : List α} {y z : α} (x : α)
    (h : z ∈ before ++ y :: after) : z = y ∨ z ∈ before ++ x :: after := by
  rw [List.perm_middle.mem_iff, List.mem_cons] at h ⊢
  exact h.imp_right Or.inr

mutual

/-- **Another order sets no field twice**, if the first one did not. -/
theorem AnnotationUse.Reordered.isDistinct : ∀ {u v : AnnotationUse}, u.Reordered v →
    (FieldValue.nested u).IsDistinct → (FieldValue.nested v).IsDistinct
  | _, _, .values perm, hu =>
    FieldValue.isDistinct_nested ((perm.map Prod.fst).nodup_iff.mp (hu _ _ .here))
      (fun _ hv => hu.field (perm.mem_iff.mpr hv))
  | _, _, @AnnotationUse.Reordered.value _ k before after x y h, hu => by
    have hkeys := hu _ _ .here
    have hx : (k, x) ∈ before ++ (k, x) :: after :=
      List.mem_append_right _ List.mem_cons_self
    have hy := h.isDistinct (hu.field hx)
    refine FieldValue.isDistinct_nested ?_ (fun v hv => ?_)
    · rw [List.map_append, List.map_cons] at hkeys ⊢
      exact hkeys
    · rcases mem_of_mem_replaced (k, x) hv with rfl | hv
      · exact hy
      · exact hu.field hv
  | _, _, .trans h h', hu => h'.isDistinct (h.isDistinct hu)

theorem FieldValue.Reordered.isDistinct : ∀ {x y : FieldValue}, x.Reordered y →
    x.IsDistinct → y.IsDistinct
  | _, _, .nested h, hx => h.isDistinct hx
  | _, _, @FieldValue.Reordered.item before after x y h, hx => by
    have hy := h.isDistinct (hx.item (List.mem_append_right _ List.mem_cons_self))
    refine FieldValue.isDistinct_array (fun v hv => ?_)
    rcases mem_of_mem_replaced x hv with rfl | hv
    · exact hy
    · exact hx.item hv

end

namespace Formatter

variable {f : Formatter}

mutual

/-- **A use is written as one with its values in another order**, if it sets no field twice. -/
theorem format_of_reordered : ∀ {u v : AnnotationUse}, u.Reordered v →
    (FieldValue.nested u).IsDistinct → ∀ {w : Formatted}, f.format u = .ok w → f.format v = .ok w
  | _, _, .values perm, hu, _, hw => by
    have hkeys := hu _ _ .here
    refine format_mono hkeys perm.length_eq (fun v hv => ⟨v.2, ?_, id⟩) hw
    exact Entries.find?_of_mem ((perm.map Prod.fst).nodup_iff.mp hkeys) (perm.mem_iff.mp hv)
  | _, _, @AnnotationUse.Reordered.value _ k before after x y h, hu, _, hw => by
    have hx : (k, x) ∈ before ++ (k, x) :: after :=
      List.mem_append_right _ List.mem_cons_self
    have hy : (k, y) ∈ before ++ (k, y) :: after :=
      List.mem_append_right _ List.mem_cons_self
    have hkeys' := (AnnotationUse.Reordered.value h).isDistinct hu _ _ .here
    refine format_mono (hu _ _ .here) (by simp) (fun v hv => ?_) hw
    rcases mem_of_mem_replaced (k, y) hv with rfl | hv
    · exact ⟨y, Entries.find?_of_mem hkeys' hy, writtenAs_of_reordered h (hu.field hx)⟩
    · exact ⟨v.2, Entries.find?_of_mem hkeys' hv, id⟩
  | _, _, .trans h h', hu, _, hw =>
    format_of_reordered h' (h.isDistinct hu) (format_of_reordered h hu hw)

/-- A value is written as one with the values of an annotation in another order. -/
theorem writtenAs_of_reordered : ∀ {x y : FieldValue}, x.Reordered y → x.IsDistinct →
    WrittenAs f x y
  | _, _, .nested h, hx => fun hw =>
    WrittenAs.nested h.definition_eq (format_of_reordered h hx) hw
  | _, _, @FieldValue.Reordered.item before after _ _ h, hx => by
    have hself : ∀ items : List FieldValue, List.Forall₂ (WrittenAs f) items items :=
      fun items => List.forall₂_same.mpr (fun _ _ => id)
    refine WrittenAs.array (List.rel_append (hself before) (.cons ?_ (hself after)))
    exact writtenAs_of_reordered h (hx.item (List.mem_append_right _ List.mem_cons_self))

end

/-! ## The text of a use -/

/-- **How a use is written**: with its name, and with the parts of the fields that it sets. -/
structure Arrangement (f : Formatter) (u : AnnotationUse) (d : Definition)
    (parts : List (String × Formatted)) (text : String) : Prop where
  /-- The definition is the one that the use names. -/
  known : f.definitions.get? u.definition = some d
  /-- There is a part for every field that is set, in the order in which they are declared. -/
  fields_eq : parts.map Prod.fst = d.fields.keys.filter (· ∈ u.values.map Prod.fst)
  /-- These are the fields that the use sets, each of them once. -/
  fields_perm : (parts.map Prod.fst).Perm (u.values.map Prod.fst)
  /-- Each part is what is written for the value of the field. -/
  written : ∀ part ∈ parts, ∃ v type, Entries.find? part.1 u.values = some v
    ∧ d.fields.find? part.1 = some type
    ∧ f.formatValue ⟨d.name, part.1, type⟩ type v = .ok part.2
  /-- A use that sets no field is written as its name. -/
  text_of_none : u.values.map Prod.fst = [] → text = "@" ++ f.displayName d.name
  /-- If it sets `value` and nothing else, this is written alone. -/
  text_of_value : u.values.map Prod.fst = ["value"] → ∃ value, parts = [("value", value)]
    ∧ text = "@" ++ f.displayName d.name ++ ("(" ++ value.text ++ ")")
  /-- All other fields are written with their names. -/
  text_of_fields : u.values.map Prod.fst ≠ [] → u.values.map Prod.fst ≠ ["value"] →
    text = "@" ++ f.displayName d.name ++ ("(" ++ String.intercalate ", "
      (parts.map (fun part => part.1 ++ "=" ++ part.2.text)) ++ ")")

/-- Arguments other than a single value are written with the names of their fields. -/
theorem argumentText_eq {parts : List (String × Formatted)} (hnil : parts.map Prod.fst ≠ [])
    (hvalue : parts.map Prod.fst ≠ ["value"]) :
    argumentText parts = "(" ++ String.intercalate ", "
      (parts.map (fun part => part.1 ++ "=" ++ part.2.text)) ++ ")" := by
  unfold argumentText
  split
  · exact absurd rfl hnil
  · exact absurd rfl hvalue
  · rfl

/-- **A use that is written and sets no field twice** is arranged by its definition. -/
theorem exists_arrangement {u : AnnotationUse} {w : Formatted}
    (hkeys : (u.values.map Prod.fst).Nodup) (h : f.format u = .ok w) :
    ∃ d parts, f.Arrangement u d parts w.text := by
  obtain ⟨name, values⟩ := u
  obtain ⟨d, parts, hd, hdeclared, hfields, hwritten, rfl⟩ := exists_parts h
  have hperm : (parts.map Prod.fst).Perm (values.map Prod.fst) := by
    rw [hfields]
    refine (List.perm_ext_iff_of_nodup (d.fields.distinct.filter _) hkeys).mpr (fun k => ?_)
    rw [List.mem_filter, decide_eq_true_iff, and_iff_right_iff_imp]
    intro hk
    obtain ⟨v, hv, rfl⟩ := List.mem_map.mp hk
    exact hdeclared v hv
  refine ⟨d, parts, hd, hfields, hperm, hwritten, fun hnone => ?_, fun hvalue => ?_,
    fun hnone hvalue => ?_⟩
  · obtain rfl : parts = [] := List.map_eq_nil_iff.mp (List.perm_nil.mp (hnone ▸ hperm))
    exact String.append_empty
  · obtain ⟨⟨_, value⟩, rfl, rfl⟩ := List.map_eq_singleton_iff.mp
      (List.perm_singleton.mp (hvalue ▸ hperm))
    exact ⟨value, rfl, rfl⟩
  · show _ ++ argumentText parts = _
    rw [argumentText_eq (fun h => hnone (List.nil_perm.mp (h ▸ hperm)))
      (fun h => hvalue (List.singleton_perm.mp (h ▸ hperm)).symm)]

/-- **The order of fields is that of the definition.** A use that is written is written as its
name if it sets no field, with the value alone if it sets `value` and no other field, and
otherwise with all the fields that it sets, each once and in the order in which the definition
declares them. The order of its values, and of the values of annotations within it, makes no
difference: in any other order the use is written with the same text and the same imports, or
is rejected in both. -/
theorem format_in_field_order (f : Formatter) (u : AnnotationUse)
    (hdistinct : (FieldValue.nested u).IsDistinct) :
    (∀ w, f.format u = .ok w → ∃ d parts, f.Arrangement u d parts w.text)
    ∧ ∀ v : AnnotationUse, u.Reordered v →
        (∀ w, f.format u = .ok w ↔ f.format v = .ok w)
        ∧ ((∃ e, f.format u = .error e) ↔ ∃ e, f.format v = .error e) := by
  obtain ⟨name, values⟩ := u
  refine ⟨fun w h => exists_arrangement (hdistinct name values .here) h, fun v hv => ?_⟩
  have hwritten : ∀ w, f.format ⟨name, values⟩ = .ok w ↔ f.format v = .ok w := fun w =>
    ⟨format_of_reordered hv hdistinct, format_of_reordered hv.symm (hv.isDistinct hdistinct)⟩
  refine ⟨hwritten, ?_⟩
  cases hu : f.format ⟨name, values⟩ with
  | ok w =>
    rw [(hwritten w).mp hu]
  | error e =>
    cases hv' : f.format v with
    | ok w => rw [(hwritten w).mpr hv'] at hu; cases hu
    | error e' => exact iff_of_true ⟨e, rfl⟩ ⟨e', rfl⟩

/-- A definition with a field for an array of annotations of another one. -/
def orderSample : List Definition :=
  [{ name := "p.Span"
     fields := (OrderedMap.empty.insert "from" (.scalar .int)).insert "to" (.scalar .int) },
   { name := "p.Page"
     fields := (OrderedMap.empty.insert "title" (.scalar .string)).insert "spans"
       (.array (some (.nested "p.Span"))) }]

/-- An annotation of the second definition with its values in an order of their own, also in
the item of the array. -/
def mixedSample : AnnotationUse :=
  ⟨"p.Page", [("spans", .array [.nested ⟨"p.Span", [("to", .int 2), ("from", .int 1)]⟩]),
    ("title", .text "a")]⟩

/-- The same one with its values in the order of the definitions. -/
def sortedSample : AnnotationUse :=
  ⟨"p.Page", [("title", .text "a"),
    ("spans", .array [.nested ⟨"p.Span", [("from", .int 1), ("to", .int 2)]⟩])]⟩

theorem reordered_sample : mixedSample.Reordered sortedSample :=
  .trans (.values (.swap _ _ _)) (@AnnotationUse.Reordered.value _ _ [_] [] _ _
    (@FieldValue.Reordered.item [] [] _ _ (.nested (.values (.swap _ _ _)))))

theorem isDistinct_mixedSample : (FieldValue.nested mixedSample).IsDistinct := by
  have hspan : (FieldValue.nested ⟨"p.Span", [("to", .int 2), ("from", .int 1)]⟩).IsDistinct := by
    refine FieldValue.isDistinct_nested (by decide) (fun v hv => ?_)
    rcases List.mem_pair.mp hv with rfl | rfl <;>
      exact FieldValue.isDistinct_of_scalar (fun u h => by cases h)
  refine FieldValue.isDistinct_nested (by decide) (fun v hv => ?_)
  rcases List.mem_pair.mp hv with rfl | rfl
  · exact FieldValue.isDistinct_array (fun x hx => List.mem_singleton.mp hx ▸ hspan)
  · exact FieldValue.isDistinct_of_scalar (fun u h => by cases h)

/-- Both are written alike. -/
theorem format_mixedSample :
    format ⟨.ofList orderSample, .ofTable (.ofList orderSample)⟩ mixedSample
      = .ok ⟨"@Page(title=\"a\", spans=\x7b@Span(from=1, to=2)\x7d)", ["p.Page", "p.Span"]⟩
    ∧ format ⟨.ofList orderSample, .ofTable (.ofList orderSample)⟩ sortedSample
      = .ok ⟨"@Page(title=\"a\", spans=\x7b@Span(from=1, to=2)\x7d)", ["p.Page", "p.Span"]⟩ := by
  obtain ⟨hsame, -⟩ := (format_in_field_order
    ⟨.ofList orderSample, .ofTable (.ofList orderSample)⟩ mixedSample
    isDistinct_mixedSample).2 sortedSample reordered_sample
  refine ⟨?_, (hsame _).mp ?_⟩ <;> decide +kernel

end Formatter

end AnnotationPlan
