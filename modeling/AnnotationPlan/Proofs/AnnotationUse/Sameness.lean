import AnnotationPlan.Proofs.AnnotationUse.Conformity
import Mathlib.Data.List.Perm.Subperm

/-!
# Uses that are the same

Whether two annotation uses are the same is decided field by field, and the values of a
field are found by its name. That is a comparison in one direction: it asks for the fields
of the first use in the second one, and only their number sees to it that the second one
has no others. So it takes uses that set every field once (`FieldValue.IsDistinct`) for the
comparison to be symmetric (`FieldValue.same_symm`); it is transitive for all uses
(`FieldValue.same_trans`). It is not reflexive, since some floating-point values differ from
themselves.

Uses that are the same may be written differently, but only on account of floating-point
values. Without these a use that is the same as another one is written as that is
(`Formatter.format_of_same`).
-/

namespace AnnotationPlan

/-! ## Floating-point values -/

section UnpackedFloats

open Float.Model

/-- Finite numbers of one sign are equal if their parts are. -/
theorem unpackedFloat_beq_finite (s : UnpackedFloat.Sign) {m m' : Nat} {e e' : Int} (h : 0 < m)
    (h' : 0 < m') :
    (UnpackedFloat.finite s m e h).beq (.finite s m' e' h') = true ↔ e = e' ∧ m = m' := by
  have hparts : (compare e e').then (compare m m') = .eq ↔ e = e' ∧ m = m' := by
    rw [Ordering.then_eq_eq, Std.compare_eq_iff_eq, Std.compare_eq_iff_eq]
  cases s with
  | positive =>
    show (some ((compare e e').then (compare m m')) == some Ordering.eq) = true ↔ _
    rw [beq_iff_eq, Option.some.injEq, hparts]
  | negative =>
    show (some ((compare e e').then (compare m m')).swap == some Ordering.eq) = true ↔ _
    rw [beq_iff_eq, Option.some.injEq, Ordering.swap_eq_eq, hparts]

/-- **Numbers that are equal** are the same number, or two zeros. -/
theorem unpackedFloat_beq_iff (x y : UnpackedFloat) : x.beq y = true
    ↔ x ≠ .notANumber ∧ (x = y ∨ ((∃ s, x = .zero s) ∧ ∃ s, y = .zero s)) := by
  have hdiffer : x.beq y = false → x ≠ y → ((∃ s, x = .zero s) → ∀ s, y ≠ .zero s) →
      (x.beq y = true
        ↔ x ≠ .notANumber ∧ (x = y ∨ ((∃ s, x = .zero s) ∧ ∃ s, y = .zero s))) := by
    intro hbeq hne hzero
    refine iff_of_false (Bool.eq_false_iff.mp hbeq) ?_
    rintro ⟨-, heq | ⟨hx, s, hy⟩⟩
    · exact hne heq
    · exact hzero hx s hy
  cases x with
  | notANumber => exact iff_of_false Bool.false_ne_true (fun h => h.1 rfl)
  | infinity s =>
    have hx : ¬ ∃ t, UnpackedFloat.infinity s = .zero t := by
      rintro ⟨_, h⟩
      cases h
    cases y with
    | infinity t =>
      cases s <;> cases t
      case positive.positive | negative.negative =>
        exact iff_of_true rfl ⟨(by intro h; cases h), .inl rfl⟩
      all_goals exact hdiffer rfl (fun h => by cases h) (fun h => absurd h hx)
    | _ =>
      cases s <;> exact hdiffer rfl (fun h => by cases h) (fun h => absurd h hx)
  | zero s =>
    cases y with
    | zero t => exact iff_of_true rfl ⟨(by intro h; cases h), .inr ⟨⟨s, rfl⟩, t, rfl⟩⟩
    | notANumber => exact hdiffer rfl (fun h => by cases h) (fun _ _ h => by cases h)
    | infinity t =>
      cases t <;> exact hdiffer rfl (fun h => by cases h) (fun _ _ h => by cases h)
    | finite t =>
      cases t <;> exact hdiffer rfl (fun h => by cases h) (fun _ _ h => by cases h)
  | finite s m e h =>
    have hx : ¬ ∃ t, UnpackedFloat.finite s m e h = .zero t := by
      rintro ⟨_, h⟩
      cases h
    cases y with
    | finite t m' e' h' =>
      by_cases hs : s = t
      case pos =>
        subst hs
        rw [unpackedFloat_beq_finite]
        constructor
        · rintro ⟨rfl, rfl⟩
          exact ⟨(by intro h; cases h), .inl rfl⟩
        · rintro ⟨-, heq | ⟨hzero, -⟩⟩
          · cases heq
            exact ⟨rfl, rfl⟩
          · exact absurd hzero hx
      case neg =>
        refine hdiffer ?_ (fun h => hs (by cases h; rfl)) (fun h => absurd h hx)
        cases s <;> cases t <;> first | rfl | exact absurd rfl hs
    | infinity t =>
      cases s <;> cases t <;> exact hdiffer rfl (fun h => by cases h) (fun h => absurd h hx)
    | _ => cases s <;> exact hdiffer rfl (fun h => by cases h) (fun h => absurd h hx)

end UnpackedFloats

/-- **Floating-point values that are equal** are so as numbers. -/
theorem float_beq_iff (a b : Float) :
    (a == b) = true ↔ a.toModel.unpack.beq b.toModel.unpack = true := Iff.rfl

theorem float_beq_symm {a b : Float} (h : (a == b) = true) : (b == a) = true := by
  rw [float_beq_iff, unpackedFloat_beq_iff] at h ⊢
  obtain ⟨hne, heq | ⟨⟨s, ha⟩, t, hb⟩⟩ := h
  · exact ⟨heq ▸ hne, .inl heq.symm⟩
  · exact ⟨by simp [hb], .inr ⟨⟨t, hb⟩, s, ha⟩⟩

theorem float_beq_trans {a b c : Float} (h : (a == b) = true) (h' : (b == c) = true) :
    (a == c) = true := by
  rw [float_beq_iff, unpackedFloat_beq_iff] at h h' ⊢
  obtain ⟨hne, hab⟩ := h
  obtain ⟨-, hbc⟩ := h'
  refine ⟨hne, ?_⟩
  rcases hab with heq | ⟨⟨s, ha⟩, t, hb⟩
  · exact heq ▸ hbc
  · rcases hbc with heq | ⟨-, hc⟩
    · exact .inr ⟨⟨s, ha⟩, t, heq ▸ hb⟩
    · exact .inr ⟨⟨s, ha⟩, hc⟩

/-! ## Values within values -/

/-- **A value is within another one**: it is that value, one of its items, or the value of a
field of an annotation, at any depth. -/
inductive FieldValue.Within (v : FieldValue) : FieldValue → Prop where
  | here : Within v v
  | item {items : List FieldValue} {x : FieldValue} (mem : x ∈ items) (h : Within v x) :
    Within v (.array items)
  | field {name : String} {values : List (String × FieldValue)} {x : String × FieldValue}
    (mem : x ∈ values) (h : Within v x.2) : Within v (.nested ⟨name, values⟩)

namespace FieldValue

/-- **Every annotation within a value sets each field once.** -/
def IsDistinct (v : FieldValue) : Prop :=
  ∀ name values, Within (.nested ⟨name, values⟩) v → (values.map Prod.fst).Nodup

/-- **No value within a value is a floating-point number.** -/
def IsFloatFree (v : FieldValue) : Prop := ∀ x, ¬ Within (.float x) v

theorem IsDistinct.item {items : List FieldValue} (h : (array items).IsDistinct) {v : FieldValue}
    (hv : v ∈ items) : v.IsDistinct :=
  fun name values hwithin => h name values (.item hv hwithin)

theorem IsDistinct.field {name : String} {values : List (String × FieldValue)}
    (h : (nested ⟨name, values⟩).IsDistinct) {v : String × FieldValue} (hv : v ∈ values) :
    v.2.IsDistinct :=
  fun name values hwithin => h name values (.field hv hwithin)

/-- A value without an annotation is distinct. -/
theorem isDistinct_of_scalar {v : FieldValue} (h : ∀ u, ¬ Within (nested u) v) : v.IsDistinct :=
  fun name values hwithin => absurd hwithin (h ⟨name, values⟩)

theorem isDistinct_array {items : List FieldValue} (h : ∀ v ∈ items, v.IsDistinct) :
    (array items).IsDistinct := by
  intro name values hwithin
  cases hwithin with
  | item hmem hwithin => exact h _ hmem name values hwithin

theorem isDistinct_nested {u : AnnotationUse} (hnodup : (u.values.map Prod.fst).Nodup)
    (h : ∀ v ∈ u.values, v.2.IsDistinct) : (nested u).IsDistinct := by
  obtain ⟨name, values⟩ := u
  intro name' values' hwithin
  cases hwithin with
  | here => exact hnodup
  | field hmem hwithin => exact h _ hmem name' values' hwithin

theorem IsFloatFree.item {items : List FieldValue} (h : (array items).IsFloatFree)
    {v : FieldValue} (hv : v ∈ items) : v.IsFloatFree :=
  fun x hwithin => h x (.item hv hwithin)

theorem IsFloatFree.field {name : String} {values : List (String × FieldValue)}
    (h : (nested ⟨name, values⟩).IsFloatFree) {v : String × FieldValue} (hv : v ∈ values) :
    v.2.IsFloatFree :=
  fun x hwithin => h x (.field hv hwithin)

/-! ## Induction on values -/

section Induction

variable {P : FieldValue → Prop} (bool : ∀ b, P (.bool b)) (int : ∀ n, P (.int n))
  (float : ∀ x, P (.float x)) (text : ∀ s, P (.text s))
  (array : ∀ items, (∀ v ∈ items, P v) → P (.array items))
  (nested : ∀ name values, (∀ v ∈ values, P v.2) → P (.nested ⟨name, values⟩))
include bool int float text array nested

/-- **Induction on values**: what holds of an array if it holds of its items, and of an
annotation if it holds of the values of its fields, holds of all values. -/
@[elab_as_elim] theorem induct : ∀ v : FieldValue, P v
  | .bool b => bool b
  | .int n => int n
  | .float x => float x
  | .text s => text s
  | .array items => array items (fun v _ => induct v)
  | .nested ⟨name, values⟩ => nested name values (fun v _ => induct v.2)
termination_by v => sizeOf v
decreasing_by
  · have hlt := List.sizeOf_lt_of_mem ‹v ∈ items›
    simp only [FieldValue.array.sizeOf_spec]
    omega
  · have hlt := List.sizeOf_lt_of_mem ‹v ∈ values›
    have hpair : sizeOf v.2 < sizeOf v := by
      obtain ⟨k, x⟩ := v
      simp only [Prod.mk.sizeOf_spec]
      omega
    simp only [FieldValue.nested.sizeOf_spec, AnnotationUse.mk.sizeOf_spec]
    omega

end Induction

/-! ## Sameness, part by part -/

/-- Items are the same one by one. -/
theorem sameItems_iff : ∀ {xs ys : List FieldValue},
    sameItems xs ys = true ↔ List.Forall₂ (fun x y => x.same y = true) xs ys
  | [], [] => iff_of_true rfl .nil
  | [], _ :: _ => iff_of_false Bool.false_ne_true (fun h => by cases h)
  | _ :: _, [] => iff_of_false Bool.false_ne_true (fun h => by cases h)
  | x :: xs, y :: ys => by
    rw [sameItems, Bool.and_eq_true, List.forall₂_cons, sameItems_iff]

/-- Fields are looked up one by one. -/
theorem sameIn_iff {values others : List (String × FieldValue)} : sameIn values others = true
    ↔ ∀ v ∈ values, ∃ y, Entries.find? v.1 others = some y ∧ v.2.same y = true := by
  induction values with
  | nil => exact iff_of_true rfl (fun _ hv => absurd hv List.not_mem_nil)
  | cons v rest ih =>
    obtain ⟨k, x⟩ := v
    rw [sameIn, Bool.and_eq_true, List.forall_mem_cons, ih]
    refine and_congr_left' ?_
    cases Entries.find? k others with
    | none => exact iff_of_false Bool.false_ne_true (by rintro ⟨_, h, _⟩; cases h)
    | some y =>
      refine ⟨fun h => ⟨y, rfl, h⟩, ?_⟩
      rintro ⟨_, hy, h⟩
      exact Option.some.inj hy ▸ h

end FieldValue

/-- **Two uses are the same** if they have as many fields and the second one gives the same
values to those of the first. -/
theorem AnnotationUse.same_iff {name name' : String} {values values' : List (String × FieldValue)} :
    AnnotationUse.same ⟨name, values⟩ ⟨name', values'⟩ = true
      ↔ name = name' ∧ values.length = values'.length
        ∧ ∀ v ∈ values, ∃ y, Entries.find? v.1 values' = some y ∧ v.2.same y = true := by
  rw [AnnotationUse.same, Bool.and_eq_true, Bool.and_eq_true, beq_iff_eq, beq_iff_eq, and_assoc,
    FieldValue.sameIn_iff]

/-- **What the second use sets, the first one sets**, if it sets no field twice. -/
theorem Entries.keys_subset_of_length {values others : List (String × FieldValue)}
    (hnodup : (values.map Prod.fst).Nodup) (hlength : values.length = others.length)
    (hfind : ∀ v ∈ values, ∃ y, Entries.find? v.1 others = some y) :
    others.map Prod.fst ⊆ values.map Prod.fst := by
  have hsubset : values.map Prod.fst ⊆ others.map Prod.fst := by
    intro k hk
    obtain ⟨v, hv, rfl⟩ := List.mem_map.mp hk
    obtain ⟨y, hy⟩ := hfind v hv
    exact List.mem_map.mpr ⟨(v.1, y), Entries.mem_of_find? hy, rfl⟩
  have hle : (others.map Prod.fst).length ≤ (values.map Prod.fst).length := by
    rw [List.length_map, List.length_map, hlength]
  exact ((List.subperm_of_subset hnodup hsubset).perm_of_length_le hle).symm.subset

namespace FieldValue

/-- What is the same as a value is of its sort. -/
theorem exists_array_of_same {items : List FieldValue} {y : FieldValue}
    (h : (array items).same y = true) :
    ∃ items', y = .array items' ∧ List.Forall₂ (fun x y => x.same y = true) items items' := by
  cases y with
  | array items' => exact ⟨items', rfl, sameItems_iff.mp (by simpa [same] using h)⟩
  | _ => cases h

theorem exists_nested_of_same {name : String} {values : List (String × FieldValue)}
    {y : FieldValue} (h : (nested ⟨name, values⟩).same y = true) :
    ∃ values', y = .nested ⟨name, values'⟩ ∧ values.length = values'.length
      ∧ ∀ v ∈ values, ∃ y, Entries.find? v.1 values' = some y ∧ v.2.same y = true := by
  cases y with
  | nested u =>
    obtain ⟨name', values'⟩ := u
    rw [same, AnnotationUse.same_iff] at h
    obtain ⟨rfl, hlength, hvalues⟩ := h
    exact ⟨values', rfl, hlength, hvalues⟩
  | _ => cases h

/-- A relation that is transitive on the members of a list is so on lists. -/
theorem forall₂_trans {α : Type} {R : α → α → Prop} : ∀ {xs ys zs : List α},
    (∀ x ∈ xs, ∀ y z, R x y → R y z → R x z) → List.Forall₂ R xs ys → List.Forall₂ R ys zs →
      List.Forall₂ R xs zs
  | _, _, _, _, .nil, .nil => .nil
  | _, _, _, h, .cons hxy hrest, .cons hyz hrest' => by
    obtain ⟨hx, h⟩ := List.forall_mem_cons.mp h
    exact .cons (hx _ _ hxy hyz) (forall₂_trans h hrest hrest')

/-- A relation that is symmetric on the members of two lists is so on the lists. -/
theorem forall₂_symm {α : Type} {R : α → α → Prop} : ∀ {xs ys : List α},
    (∀ x ∈ xs, ∀ y ∈ ys, R x y → R y x) → List.Forall₂ R xs ys → List.Forall₂ R ys xs
  | _, _, _, .nil => .nil
  | _, _, h, .cons hxy hrest => by
    obtain ⟨hx, h⟩ := List.forall_mem_cons.mp h
    exact .cons (hx _ List.mem_cons_self hxy)
      (forall₂_symm (fun x hx' y hy => h x hx' y (List.mem_cons_of_mem _ hy)) hrest)

/-- **Sameness is transitive.** -/
theorem same_trans {x y z : FieldValue} (hxy : x.same y = true) (hyz : y.same z = true) :
    x.same z = true := by
  induction x using FieldValue.induct generalizing y z with
  | bool b =>
    cases y <;> try cases hxy
    cases z <;> try cases hyz
    exact beq_iff_eq.mpr ((beq_iff_eq.mp hxy).trans (beq_iff_eq.mp hyz))
  | int n =>
    cases y <;> try exact absurd hxy Bool.false_ne_true
    cases z <;> try exact absurd hyz Bool.false_ne_true
    exact beq_iff_eq.mpr ((beq_iff_eq.mp hxy).trans (beq_iff_eq.mp hyz))
  | float a =>
    cases y <;> try exact absurd hxy Bool.false_ne_true
    cases z <;> try exact absurd hyz Bool.false_ne_true
    exact float_beq_trans hxy hyz
  | text s =>
    cases y <;> try exact absurd hxy Bool.false_ne_true
    cases z <;> try exact absurd hyz Bool.false_ne_true
    exact beq_iff_eq.mpr ((beq_iff_eq.mp hxy).trans (beq_iff_eq.mp hyz))
  | array items ih =>
    obtain ⟨items', rfl, hitems⟩ := exists_array_of_same hxy
    obtain ⟨items'', rfl, hitems'⟩ := exists_array_of_same hyz
    rw [same, sameItems_iff]
    exact forall₂_trans (fun x hx _ _ => ih x hx) hitems hitems'
  | nested name values ih =>
    obtain ⟨values', rfl, hlength, hvalues⟩ := exists_nested_of_same hxy
    obtain ⟨values'', rfl, hlength', hvalues'⟩ := exists_nested_of_same hyz
    refine AnnotationUse.same_iff.mpr ⟨rfl, hlength.trans hlength', fun v hv => ?_⟩
    obtain ⟨y, hy, hvy⟩ := hvalues v hv
    obtain ⟨z, hz, hyz⟩ := hvalues' (v.1, y) (Entries.mem_of_find? hy)
    exact ⟨z, hz, ih v hv hvy hyz⟩

/-- **Sameness is symmetric** for values whose annotations set each field once. -/
theorem same_symm {x y : FieldValue} (hx : x.IsDistinct) (hy : y.IsDistinct)
    (h : x.same y = true) : y.same x = true := by
  induction x using FieldValue.induct generalizing y with
  | bool b =>
    cases y <;> try exact absurd h Bool.false_ne_true
    exact beq_iff_eq.mpr (beq_iff_eq.mp h).symm
  | int n =>
    cases y <;> try exact absurd h Bool.false_ne_true
    exact beq_iff_eq.mpr (beq_iff_eq.mp h).symm
  | float a =>
    cases y <;> try exact absurd h Bool.false_ne_true
    exact float_beq_symm h
  | text s =>
    cases y <;> try exact absurd h Bool.false_ne_true
    exact beq_iff_eq.mpr (beq_iff_eq.mp h).symm
  | array items ih =>
    obtain ⟨items', rfl, hitems⟩ := exists_array_of_same h
    rw [same, sameItems_iff]
    exact forall₂_symm (fun x hmem y hmem' => ih x hmem (hx.item hmem) (hy.item hmem')) hitems
  | nested name values ih =>
    obtain ⟨values', rfl, hlength, hvalues⟩ := exists_nested_of_same h
    have hnodup := hx name values .here
    have hnodup' := hy name values' .here
    have hkeys := Entries.keys_subset_of_length hnodup hlength
      (fun v hv => (hvalues v hv).imp (fun _ h => h.1))
    refine AnnotationUse.same_iff.mpr ⟨rfl, hlength.symm, fun v hv => ?_⟩
    -- the field is one of the first annotation, and its value there is the same as here
    obtain ⟨w, hw, hkey⟩ := List.mem_map.mp (hkeys (List.mem_map_of_mem hv))
    obtain ⟨y, hfind, hsame⟩ := hvalues w hw
    rw [hkey, Entries.find?_of_mem hnodup' hv] at hfind
    obtain rfl := Option.some.inj hfind
    exact ⟨w.2, hkey ▸ Entries.find?_of_mem hnodup hw, ih w hw (hx.field hw) (hy.field hv) hsame⟩

end FieldValue

/-! ## The same use is written the same -/

namespace Formatter

variable {f : Formatter}

/-- Values that are written as others are put in order as these. -/
theorem inOrder_mono {values values' : List (String × Except PlanError Formatted)} :
    ∀ {fields : List String} {parts : List (String × Formatted)},
      (∀ k ∈ fields, Entries.find? k values = none → Entries.find? k values' = none) →
      (∀ k ∈ fields, ∀ w, Entries.find? k values = some (.ok w) →
        Entries.find? k values' = some (.ok w)) →
      inOrder fields values = .ok parts → inOrder fields values' = .ok parts
  | [], _, _, _, h => h
  | k :: rest, parts, hnone, hsome, h => by
    obtain ⟨hknone, hnone⟩ := List.forall_mem_cons.mp hnone
    obtain ⟨hksome, hsome⟩ := List.forall_mem_cons.mp hsome
    rw [inOrder, List.foldr_cons] at h ⊢
    cases hk : Entries.find? k values with
    | none =>
      rw [hk] at h
      rw [hknone hk]
      exact inOrder_mono hnone hsome h
    | some r =>
      rw [hk] at h
      obtain ⟨w, hw, h⟩ := bind_eq_ok.mp h
      obtain ⟨vs, hvs, h⟩ := bind_eq_ok.mp h
      rw [hksome w (hw ▸ hk)]
      refine bind_eq_ok.mpr ⟨w, rfl, ?_⟩
      exact bind_eq_ok.mpr ⟨vs, inOrder_mono hnone hsome hvs, h⟩

/-- A value is written as another one, whatever it is written as. -/
def WrittenAs (f : Formatter) (x y : FieldValue) : Prop :=
  ∀ {site : FieldSite} {t : FieldType} {w : Formatted},
    formatValue f site t x = .ok w → formatValue f site t y = .ok w

/-- Members that are related are related in another way, if that goes for those of the first
list. -/
theorem forall₂_of_mem {α : Type} {R S : α → α → Prop} : ∀ {xs ys : List α},
    (∀ x ∈ xs, ∀ y, R x y → S x y) → List.Forall₂ R xs ys → List.Forall₂ S xs ys
  | _, _, _, .nil => .nil
  | _, _, h, .cons hxy hrest => by
    obtain ⟨hx, h⟩ := List.forall_mem_cons.mp h
    exact .cons (hx _ hxy) (forall₂_of_mem h hrest)

/-- Items that are written as others make the same array. -/
theorem formatItems_mono {site : FieldSite} {element : ScalarType}
    {items items' : List FieldValue} (h : List.Forall₂ (WrittenAs f) items items')
    {parts : List Formatted} (hparts : formatItems f site element items = .ok parts) :
    formatItems f site element items' = .ok parts := by
  rw [formatItems_ok_iff] at hparts ⊢
  induction h generalizing parts with
  | nil => exact hparts
  | cons hv _ ih =>
    cases hparts with
    | cons hpart hrest => exact .cons (hv hpart) (ih hrest)

/-- A use with fields that are written as those of another one is written as that. -/
theorem format_mono {name : String} {values values' : List (String × FieldValue)} {w : Formatted}
    (hnodup : (values.map Prod.fst).Nodup) (hlength : values.length = values'.length)
    (hvalues : ∀ v ∈ values, ∃ y, Entries.find? v.1 values' = some y ∧ WrittenAs f v.2 y)
    (h : format f ⟨name, values⟩ = .ok w) : format f ⟨name, values'⟩ = .ok w := by
  have hkeys := Entries.keys_subset_of_length hnodup hlength
    (fun v hv => (hvalues v hv).imp (fun _ h => h.1))
  obtain ⟨d, parts, hd, hdeclared, hparts, rfl⟩ := format_ok_iff.mp h
  refine format_ok_iff.mpr ⟨d, parts, hd, fun v hv => ?_, ?_, rfl⟩
  · obtain ⟨v', hv', hkey⟩ := List.mem_map.mp (hkeys (List.mem_map_of_mem hv))
    exact hkey ▸ hdeclared v' hv'
  · refine inOrder_mono (fun k _ hk => ?_) (fun k _ w hk => ?_) hparts
    · rw [find?_formatFields] at hk ⊢
      cases hfind : Entries.find? k values' with
      | none => rfl
      | some y =>
        have hk' : k ∈ values'.map Prod.fst :=
          List.mem_map.mpr ⟨(k, y), Entries.mem_of_find? hfind, rfl⟩
        obtain ⟨x, hx⟩ := Option.isSome_iff_exists.mp
          ((Entries.isSome_find?_iff k values).mpr (hkeys hk'))
        rw [hx, Option.bind_some, Option.map_eq_none_iff] at hk
        rw [Option.bind_some, hk]
        rfl
    · rw [find?_formatFields] at hk ⊢
      obtain ⟨v, hv, hk⟩ := Option.bind_eq_some_iff.mp hk
      obtain ⟨t, ht, hk⟩ := Option.map_eq_some_iff.mp hk
      obtain ⟨y, hy, hwritten⟩ := hvalues (k, v) (Entries.mem_of_find? hv)
      rw [hy, Option.bind_some, ht, Option.map_some, hwritten hk]

/-- An array is written as one with items that are written as its own. -/
theorem WrittenAs.array {items items' : List FieldValue}
    (h : List.Forall₂ (WrittenAs f) items items') : WrittenAs f (.array items) (.array items') := by
  intro site t w hw
  cases t with
  | scalar t => cases t <;> cases hw
  | array element =>
    cases element with
    | some element =>
      rw [formatValue] at hw ⊢
      obtain ⟨parts, hparts, hw⟩ := bind_eq_ok.mp hw
      exact bind_eq_ok.mpr ⟨parts, formatItems_mono h hparts, hw⟩
    | none =>
      cases h with
      | nil => exact hw
      | cons _ _ => cases hw

/-- A use as a value is written as another one if it is by itself. -/
theorem WrittenAs.nested {u v : AnnotationUse} (hname : u.definition = v.definition)
    (h : ∀ {w}, format f u = .ok w → format f v = .ok w) :
    WrittenAs f (.nested u) (.nested v) := by
  obtain ⟨name, values⟩ := u
  obtain ⟨_, values'⟩ := v
  obtain rfl : name = _ := hname
  intro site t w hw
  cases t with
  | scalar t =>
    rw [formatValue] at hw ⊢
    have hwritten := nestedValue_eq_ok hw
    rw [hwritten] at hw
    rw [h hwritten]
    exact hw
  | array t => cases t <;> cases hw

/-- **A value without floating-point numbers is written as any value that it is the same
as**, if its annotations set each field once. -/
theorem writtenAs_of_same {x y : FieldValue} (hfloat : x.IsFloatFree) (hdistinct : x.IsDistinct)
    (h : x.same y = true) : WrittenAs f x y := by
  induction x using FieldValue.induct generalizing y with
  | bool b =>
    cases y <;> try exact absurd h Bool.false_ne_true
    obtain rfl := beq_iff_eq.mp h
    exact id
  | int n =>
    cases y <;> try exact absurd h Bool.false_ne_true
    obtain rfl := beq_iff_eq.mp h
    exact id
  | float a => exact absurd .here (hfloat a)
  | text s =>
    cases y <;> try exact absurd h Bool.false_ne_true
    obtain rfl := beq_iff_eq.mp h
    exact id
  | array items ih =>
    obtain ⟨items', rfl, hitems⟩ := FieldValue.exists_array_of_same h
    exact WrittenAs.array (forall₂_of_mem
      (fun v hv _ => ih v hv (hfloat.item hv) (hdistinct.item hv)) hitems)
  | nested name values ih =>
    obtain ⟨values', rfl, hlength, hvalues⟩ := FieldValue.exists_nested_of_same h
    refine @WrittenAs.nested f ⟨name, values⟩ ⟨name, values'⟩ rfl
      (format_mono (hdistinct name values .here) hlength (fun v hv => ?_))
    exact (hvalues v hv).imp (fun _ h => ⟨h.1, ih v hv (hfloat.field hv) (hdistinct.field hv) h.2⟩)

/-- **A use without floating-point numbers is written as any use that it is the same as**, if
its annotations set each field once. -/
theorem format_of_same {u v : AnnotationUse} {w : Formatted}
    (hfloat : (FieldValue.nested u).IsFloatFree) (hdistinct : (FieldValue.nested u).IsDistinct)
    (h : u.same v = true) (hw : f.format u = .ok w) : f.format v = .ok w := by
  obtain ⟨name, values⟩ := u
  obtain ⟨values', heq, hlength, hvalues⟩ := FieldValue.exists_nested_of_same (y := .nested v) h
  obtain rfl := FieldValue.nested.inj heq
  exact format_mono (hdistinct name values .here) hlength (fun v hv => (hvalues v hv).imp
    (fun _ h => ⟨h.1, writtenAs_of_same (hfloat.field hv) (hdistinct.field hv) h.2⟩)) hw

end Formatter

end AnnotationPlan
