import AnnotationPlan.Proofs.Schema.Table

/-!
# Which definitions are written alike

Two definitions are written by the same name for one of two reasons. Either a definition is
registered under their common simple name – it is then what the table finds under that
name, so the name is not held ambiguous, and every bearer of it is written short. Or their
names differ in nothing but dots and dollar signs, which source text does not tell apart.
Otherwise the bearers of a simple name are several, and each is written in full
(`Formatter.displayName_eq_iff`).
-/

namespace AnnotationPlan

open Name (isQualified simple source)

namespace NamePolicy

theorem mem_addName {names : List String} {n name : String} :
    n ∈ addName names name ↔ n ∈ names ∨ n = name := by
  unfold addName
  split
  case isTrue h => exact (or_iff_left_of_imp (fun e => e ▸ h)).symm
  case isFalse => rw [List.mem_append, List.mem_singleton]

/-- **A simple name is ambiguous** exactly if some qualified definition has it and the table
finds nothing under it. -/
theorem isAmbiguous_ofTable {t : DefinitionTable} {name : String} :
    (ofTable t).isAmbiguous name = true
      ↔ ∃ d ∈ t.definitions, isQualified d.name = true ∧ simple d.name = name
          ∧ t.get? name = none := by
  suffices hmore : ∀ (ds : List Definition) (names : List String),
      name ∈ ds.foldl (fun names d =>
          if isQualified d.name && (t.get? (simple d.name)).isNone then
            addName names (simple d.name)
          else names) names
        ↔ name ∈ names ∨ ∃ d ∈ ds, isQualified d.name = true ∧ simple d.name = name
          ∧ t.get? name = none by
    rw [isAmbiguous, decide_eq_true_iff]
    exact (hmore t.definitions []).trans (or_iff_right List.not_mem_nil)
  intro ds
  induction ds with
  | nil => exact fun names => (or_iff_left (fun ⟨_, h, _⟩ => List.not_mem_nil h)).symm
  | cons d rest ih =>
    intro names
    rw [List.foldl_cons, ih]
    simp only [List.mem_cons, exists_eq_or_imp, ← or_assoc]
    refine or_congr_left ?_
    split
    case isTrue h =>
      obtain ⟨hqualified, hnone⟩ := Bool.and_eq_true_iff.mp h
      rw [mem_addName]
      refine or_congr_right ⟨?_, fun h => h.2.1.symm⟩
      rintro rfl
      exact ⟨hqualified, rfl, Option.isNone_iff_eq_none.mp hnone⟩
    case isFalse h =>
      refine (or_iff_left ?_).symm
      rintro ⟨hqualified, rfl, hnone⟩
      exact h (Bool.and_eq_true_iff.mpr ⟨hqualified, Option.isNone_iff_eq_none.mpr hnone⟩)

/-- **When a bearer of a simple name is written in full**: when there is another bearer, and
no definition is called by the simple name. -/
theorem isAmbiguous_simple_iff {ds : List Definition} {q : String}
    (hq : q ∈ ds.map Definition.name) (hqualified : isQualified q = true) :
    (ofTable (.ofList ds)).isAmbiguous (simple q) = true
      ↔ simple q ∉ ds.map Definition.name
        ∧ ∃ r, DefinitionTable.Bears (ds.map Definition.name) (simple q) r ∧ r ≠ q := by
  rw [isAmbiguous_ofTable, ← DefinitionTable.get?_simple_eq_none_iff hq hqualified]
  refine ⟨fun ⟨_, _, _, _, hnone⟩ => hnone, fun hnone => ?_⟩
  obtain ⟨d, -, rfl, hd⟩ := DefinitionTable.exists_declared hq
  exact ⟨d, DefinitionTable.mem_definitions_of_find? hd, hqualified, rfl, hnone⟩

end NamePolicy

namespace Formatter

/-- The formatter of a table, with the name policy that the table calls for. -/
def ofTable (t : DefinitionTable) : Formatter := ⟨t, NamePolicy.ofTable t⟩

/-- A written name has the simple name of what it is written for. -/
@[simp] theorem simple_displayName (f : Formatter) (q : String) :
    simple (f.displayName q) = simple q := by
  unfold displayName
  split
  · rfl
  · split
    · exact Name.simple_source q
    · exact Name.simple_of_not_isQualified (Name.isQualified_simple q)

/-- A name that is not ambiguous is written short. -/
theorem displayName_of_not_isAmbiguous {f : Formatter} {q : String}
    (h : isQualified q = true → f.policy.isAmbiguous (simple q) = false) :
    f.displayName q = simple q := by
  unfold displayName
  cases hq : isQualified q with
  | false => exact (Name.simple_of_not_isQualified hq).symm
  | true => simp [h hq]

/-- An ambiguous name is written in full. -/
theorem displayName_of_isAmbiguous {f : Formatter} {q : String} (hq : isQualified q = true)
    (h : f.policy.isAmbiguous (simple q) = true) : f.displayName q = source q := by
  simp [displayName, hq, h]

/-- **Which definitions are written alike**: of two registered definitions with different
names, those that have their simple name in common, if a definition is called by that name
or if source text does not tell the full names apart. -/
theorem displayName_eq_iff {ds : List Definition} {m n : String}
    (hm : m ∈ ds.map Definition.name) (hn : n ∈ ds.map Definition.name) (hne : m ≠ n) :
    (ofTable (.ofList ds)).displayName m = (ofTable (.ofList ds)).displayName n
      ↔ simple m = simple n
        ∧ (simple m ∈ ds.map Definition.name ∨ source m = source n) := by
  have hshort : simple m ∈ ds.map Definition.name → ∀ q ∈ ds.map Definition.name,
      simple q = simple m → (ofTable (.ofList ds)).displayName q = simple q := by
    intro hmem q hq hsimple
    refine displayName_of_not_isAmbiguous (fun hqualified => Bool.eq_false_iff.mpr (fun h => ?_))
    rw [← hsimple] at hmem
    exact ((NamePolicy.isAmbiguous_simple_iff hq hqualified).mp h).1 hmem
  have hfull : simple m ∉ ds.map Definition.name → ∀ q ∈ ds.map Definition.name,
      ∀ r ∈ ds.map Definition.name, simple q = simple m → simple r = simple m → r ≠ q →
      (ofTable (.ofList ds)).displayName q = source q := by
    intro hmem q hq r hr hsimple hsimple' hother
    have hqualified : ∀ p ∈ ds.map Definition.name, simple p = simple m →
        isQualified p = true := fun p hp hps => by
      cases hqualified : isQualified p with
      | true => rfl
      | false =>
        rw [← hps, Name.simple_of_not_isQualified hqualified] at hmem
        exact absurd hp hmem
    refine displayName_of_isAmbiguous (hqualified q hq hsimple) ?_
    refine (NamePolicy.isAmbiguous_simple_iff hq (hqualified q hq hsimple)).mpr ?_
    rw [hsimple]
    exact ⟨hmem, r, ⟨hr, hqualified r hr hsimple', hsimple'⟩, hother⟩
  constructor
  · intro h
    have hsimple : simple m = simple n := by simpa using congrArg simple h
    refine ⟨hsimple, Classical.or_iff_not_imp_left.mpr (fun hmem => ?_)⟩
    rwa [hfull hmem m hm n hn rfl hsimple.symm hne.symm,
      hfull hmem n hn m hm hsimple.symm rfl hne] at h
  · rintro ⟨hsimple, h⟩
    by_cases hmem : simple m ∈ ds.map Definition.name
    · rw [hshort hmem m hm rfl, hshort hmem n hn hsimple.symm, hsimple]
    · rw [hfull hmem m hm n hn rfl hsimple.symm hne.symm,
        hfull hmem n hn m hm hsimple.symm rfl hne]
      exact h.resolve_left hmem

/-- A name is imported only if it is written short: by its simple name, which is then not
ambiguous. -/
theorem mem_importOf {f : Formatter} {q i : String} (h : i ∈ f.importOf q) :
    i = source q ∧ isQualified q = true ∧ f.policy.isAmbiguous (simple q) = false := by
  unfold importOf at h
  split at h
  case isTrue hand =>
    simp only [Bool.and_eq_true, Bool.not_eq_true'] at hand
    exact ⟨List.mem_singleton.mp h, hand.1.1, hand.1.2⟩
  case isFalse => exact absurd h List.not_mem_nil

/-- **Which imports have a simple name in common**: two definitions written short are
imported under different names only if a definition is called by the simple name. -/
theorem simple_mem_of_importOf {ds : List Definition} {m n i j : String}
    (hm : m ∈ ds.map Definition.name) (hn : n ∈ ds.map Definition.name)
    (hi : i ∈ (ofTable (.ofList ds)).importOf m) (hj : j ∈ (ofTable (.ofList ds)).importOf n)
    (hne : i ≠ j) (hsimple : simple i = simple j) : simple i ∈ ds.map Definition.name := by
  obtain ⟨rfl, hqualified, hshort⟩ := mem_importOf hi
  obtain ⟨rfl, hqualified', -⟩ := mem_importOf hj
  rw [Name.simple_source] at hsimple ⊢
  rw [Name.simple_source] at hsimple
  refine Classical.not_not.mp (fun hmem => ?_)
  have hambiguous := (NamePolicy.isAmbiguous_simple_iff hm hqualified).mpr
    ⟨hmem, n, ⟨hn, hqualified', hsimple.symm⟩, fun h => hne (congrArg source h.symm)⟩
  rw [show (ofTable (.ofList ds)).policy = .ofTable (.ofList ds) from rfl, hambiguous] at hshort
  cases hshort

end Formatter

end AnnotationPlan
