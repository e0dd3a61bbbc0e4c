import AnnotationPlan.Proofs.AnnotationUse.Format
import Mathlib.Data.List.Induction
import Mathlib.Data.List.TakeWhile

/-!
# What names stand for

What a table finds under a name after definitions have been registered one after another
does not depend on their order, but for which of several definitions of one name it is
(`DefinitionTable.stands_ofList`). A name under which a definition was registered stands
for such a definition. Every other name can only be a simple name, and what it stands for is
decided by its **bearers**, the qualified names among the registered ones that have it:
none, the only one, or nothing since there are several.

Shortening is done once: a simple name has no separator, so it is its own simple name and
is the simple name of nothing that is spelled differently in its last part.
-/

namespace AnnotationPlan

namespace Name

/-- A simple name is not qualified. -/
@[simp] theorem isQualified_simple (s : String) : isQualified (simple s) = false := by
  unfold isQualified simple
  rw [String.toList_ofList, List.any_reverse, List.any_eq_false]
  intro c hc
  simpa using List.mem_takeWhile_imp hc

/-- What is not qualified is its own simple name. -/
theorem simple_of_not_isQualified {s : String} (h : isQualified s = false) : simple s = s := by
  have hall : ∀ c ∈ s.toList.reverse, (!isSeparator c) = true := fun c hc => by
    simpa using List.any_eq_false.mp h c (List.mem_reverse.mp hc)
  rw [simple, List.takeWhile_eq_self_iff.mpr hall, List.reverse_reverse, String.ofList_toList]

/-- Dots for dollar signs separate as these do. -/
theorem isSeparator_source (c : Char) :
    isSeparator (if c = '$' then '.' else c) = isSeparator c := by
  split
  case isTrue h =>
    subst h
    rfl
  case isFalse => rfl

/-- **Source text keeps simple names.** -/
@[simp] theorem simple_source (s : String) : simple (source s) = simple s := by
  unfold simple source
  rw [String.toList_ofList, ← List.map_reverse, List.takeWhile_map]
  have hsame : ∀ c ∈ s.toList.reverse.takeWhile (fun c => !isSeparator c),
      (if c = '$' then '.' else c) = c := fun c hc => by
    have hsep : isSeparator c = false := by simpa using List.mem_takeWhile_imp hc
    refine if_neg (fun h => ?_)
    subst h
    cases hsep
  have hpred : (fun c => !isSeparator c) ∘ (fun c => if c = '$' then '.' else c)
      = fun c => !isSeparator c := funext fun c => congrArg (!·) (isSeparator_source c)
  rw [hpred, List.map_congr_left hsame, List.map_id']

end Name

namespace DefinitionTable

open Name (isQualified simple)

/-- **The bearers of a simple name** among names: the qualified ones that have it. -/
def Bears (names : List String) (name q : String) : Prop :=
  q ∈ names ∧ isQualified q = true ∧ simple q = name

/-- **What a name stands for** when definitions have been registered. -/
def Stands (ds : List Definition) (name : String) : Option DefinitionEntry → Prop
  | some (.declared d) => d ∈ ds ∧ d.name = name
  | some (.alias q) => name ∉ ds.map Definition.name ∧ Bears (ds.map Definition.name) name q
      ∧ ∀ r, Bears (ds.map Definition.name) name r → r = q
  | some .ambiguous => name ∉ ds.map Definition.name
      ∧ ∃ q r, Bears (ds.map Definition.name) name q ∧ Bears (ds.map Definition.name) name r ∧ q ≠ r
  | none => name ∉ ds.map Definition.name ∧ ∀ q, ¬ Bears (ds.map Definition.name) name q

variable {ds : List Definition} {d : Definition} {name : String}

/-- Registering one more definition after others. -/
theorem ofList_snoc (ds : List Definition) (d : Definition) :
    ofList (ds ++ [d]) = (ofList ds).register d := by
  rw [ofList, List.foldl_append]
  rfl

/-- The bearers of a name among one more. -/
theorem bears_snoc {names : List String} {m q : String} :
    Bears (names ++ [m]) name q
      ↔ Bears names name q ∨ (q = m ∧ isQualified q = true ∧ simple q = name) := by
  unfold Bears
  rw [List.mem_append, List.mem_singleton, or_and_right]

/-- One more definition leaves a name alone that is neither its own nor its simple name. -/
theorem Stands.snoc {entry : Option DefinitionEntry} (h : Stands ds name entry)
    (hname : name ≠ d.name) (hsimple : isQualified d.name = true → simple d.name ≠ name) :
    Stands (ds ++ [d]) name entry := by
  have hbears : ∀ q, Bears ((ds ++ [d]).map Definition.name) name q
      ↔ Bears (ds.map Definition.name) name q := fun q => by
    rw [List.map_append, List.map_singleton, bears_snoc]
    refine or_iff_left ?_
    rintro ⟨rfl, hqualified, hq⟩
    exact hsimple hqualified hq
  have hnames : name ∉ (ds ++ [d]).map Definition.name ↔ name ∉ ds.map Definition.name := by
    rw [List.map_append, List.map_singleton, List.mem_append, List.mem_singleton]
    exact not_congr (or_iff_left hname)
  cases entry with
  | none => exact ⟨hnames.mpr h.1, fun q hq => h.2 q ((hbears q).mp hq)⟩
  | some e =>
    cases e with
    | declared c => exact ⟨List.mem_append_left _ h.1, h.2⟩
    | «alias» q =>
      exact ⟨hnames.mpr h.1, (hbears q).mpr h.2.1, fun r hr => h.2.2 r ((hbears r).mp hr)⟩
    | ambiguous =>
      obtain ⟨hnot, q, r, hq, hr, hne⟩ := h
      exact ⟨hnames.mpr hnot, q, r, (hbears q).mpr hq, (hbears r).mpr hr, hne⟩

/-- **One more qualified definition** turns what its simple name stands for into what
`addAlias` makes of it. -/
theorem Stands.addAlias {entries : OrderedMap String DefinitionEntry}
    (h : Stands ds (simple d.name) (entries.find? (simple d.name)))
    (hqualified : isQualified d.name = true) :
    Stands (ds ++ [d]) (simple d.name) ((addAlias entries d.name).find? (simple d.name)) := by
  have hself : Bears ((ds ++ [d]).map Definition.name) (simple d.name) d.name :=
    ⟨List.mem_map_of_mem (List.mem_append_right _ List.mem_cons_self), hqualified, rfl⟩
  have hold : ∀ q, Bears (ds.map Definition.name) (simple d.name) q →
      Bears ((ds ++ [d]).map Definition.name) (simple d.name) q := fun q hq => by
    rw [List.map_append, List.map_singleton]
    exact bears_snoc.mpr (.inl hq)
  have hnew : ∀ q, Bears ((ds ++ [d]).map Definition.name) (simple d.name) q →
      Bears (ds.map Definition.name) (simple d.name) q ∨ q = d.name := fun q hq => by
    rw [List.map_append, List.map_singleton] at hq
    exact (bears_snoc.mp hq).imp_right And.left
  have hnames : simple d.name ∉ ds.map Definition.name →
      simple d.name ∉ (ds ++ [d]).map Definition.name := fun hnot => by
    rw [List.map_append, List.map_singleton, List.mem_append, List.mem_singleton]
    rintro (hmem | heq)
    · exact hnot hmem
    · have hsimple := Name.isQualified_simple d.name
      rw [heq, hqualified] at hsimple
      cases hsimple
  unfold DefinitionTable.addAlias
  cases hentry : entries.find? (simple d.name) with
  | none =>
    rw [hentry] at h
    dsimp only
    rw [hentry, OrderedMap.find?_insert_self]
    exact ⟨hnames h.1, hself, fun q hq => (hnew q hq).resolve_left (h.2 q)⟩
  | some e =>
    rw [hentry] at h
    dsimp only
    rw [hentry]
    cases e with
    | declared c =>
      dsimp only
      rw [hentry]
      exact ⟨List.mem_append_left _ h.1, h.2⟩
    | ambiguous =>
      dsimp only
      rw [hentry]
      obtain ⟨hnot, q, r, hq, hr, hne⟩ := h
      exact ⟨hnames hnot, q, r, hold q hq, hold r hr, hne⟩
    | «alias» other =>
      obtain ⟨hnot, hother, honly⟩ := h
      dsimp only
      split
      case isTrue hsame =>
        rw [hentry]
        refine ⟨hnames hnot, hold other hother, fun q hq => ?_⟩
        exact (hnew q hq).elim (honly q) (fun h => h.trans hsame.symm)
      case isFalse hne =>
        rw [OrderedMap.find?_insert_self]
        exact ⟨hnames hnot, other, d.name, hold other hother, hself, hne⟩

/-- An alias is seen under the simple name only. -/
theorem find?_addAlias_of_ne (entries : OrderedMap String DefinitionEntry) {q : String}
    (h : name ≠ simple q) : (addAlias entries q).find? name = entries.find? name := by
  unfold addAlias
  dsimp only
  split
  · exact OrderedMap.find?_insert_of_ne _ h _
  · split
    · rfl
    · exact OrderedMap.find?_insert_of_ne _ h _
  · rfl

/-- **What a name stands for** after definitions have been registered one after another. -/
theorem stands_ofList (ds : List Definition) (name : String) :
    Stands ds name ((ofList ds).entries.find? name) := by
  induction ds using List.reverseRecOn with
  | nil => exact ⟨List.not_mem_nil, fun q hq => List.not_mem_nil hq.1⟩
  | append_singleton ds d ih =>
    rw [ofList_snoc, register]
    dsimp only
    by_cases hname : name = d.name
    · subst hname
      rw [OrderedMap.find?_insert_self]
      exact ⟨List.mem_append_right _ List.mem_cons_self, rfl⟩
    rw [OrderedMap.find?_insert_of_ne _ hname]
    split
    case isTrue hqualified =>
      by_cases hsimple : name = simple d.name
      · subst hsimple
        exact ih.addAlias hqualified
      · rw [find?_addAlias_of_ne _ hsimple]
        exact ih.snoc hname (fun _ h => hsimple h.symm)
    case isFalse hqualified => exact ih.snoc hname (fun h => absurd h hqualified)

/-! ## Readings -/

/-- **A registered name stands for a definition** that was registered under it. -/
theorem exists_declared (h : name ∈ ds.map Definition.name) :
    ∃ d ∈ ds, d.name = name ∧ (ofList ds).entries.find? name = some (.declared d) := by
  have hstands := stands_ofList ds name
  revert hstands
  cases (ofList ds).entries.find? name with
  | none => exact fun hstands => absurd h hstands.1
  | some e =>
    cases e with
    | declared d => exact fun hstands => ⟨d, hstands.1, hstands.2, rfl⟩
    | «alias» q => exact fun hstands => absurd h hstands.1
    | ambiguous => exact fun hstands => absurd h hstands.1

/-- What a table finds is a definition of the table. -/
theorem mem_definitions_of_find? {t : DefinitionTable}
    (h : t.entries.find? name = some (.declared d)) : d ∈ t.definitions :=
  List.mem_filterMap.mpr ⟨.declared d, List.mem_map_of_mem (Entries.mem_of_find? h), rfl⟩

/-- What a table finds under any name is one of the registered definitions. -/
theorem mem_of_get? (h : (ofList ds).get? name = some d) : d ∈ ds := by
  have hdeclared : ∀ n, (ofList ds).entries.find? n = some (.declared d) → d ∈ ds := by
    intro n hn
    have hstands := stands_ofList ds n
    rw [hn] at hstands
    exact hstands.1
  unfold get? at h
  split at h
  case h_1 c hc =>
    obtain rfl := Option.some.inj h
    exact hdeclared name hc
  case h_2 q _ =>
    split at h
    case h_1 c hc =>
      obtain rfl := Option.some.inj h
      exact hdeclared q hc
    case h_2 => cases h
  case h_3 => cases h

/-- **When a simple name stands for nothing** although it has a bearer: when there are
several, and none of the definitions is called so. -/
theorem get?_simple_eq_none_iff {q : String} (hq : q ∈ ds.map Definition.name)
    (hqualified : isQualified q = true) :
    (ofList ds).get? (simple q) = none
      ↔ simple q ∉ ds.map Definition.name
        ∧ ∃ r, Bears (ds.map Definition.name) (simple q) r ∧ r ≠ q := by
  have hself : Bears (ds.map Definition.name) (simple q) q := ⟨hq, hqualified, rfl⟩
  have hstands := stands_ofList ds (simple q)
  unfold get?
  cases hentry : (ofList ds).entries.find? (simple q) with
  | none =>
    rw [hentry] at hstands
    exact absurd hself (hstands.2 q)
  | some e =>
    rw [hentry] at hstands
    cases e with
    | declared d =>
      refine iff_of_false (Option.some_ne_none d) (fun h => h.1 ?_)
      exact hstands.2 ▸ List.mem_map_of_mem hstands.1
    | «alias» other =>
      obtain ⟨-, hother, honly⟩ := hstands
      obtain ⟨d, -, -, hd⟩ := exists_declared hother.1
      dsimp only
      rw [hd]
      refine iff_of_false (Option.some_ne_none d) (fun ⟨_, r, hr, hne⟩ => hne ?_)
      exact (honly r hr).trans (honly q hself).symm
    | ambiguous =>
      obtain ⟨hnot, r, s, hr, hs, hne⟩ := hstands
      refine iff_of_true rfl ⟨hnot, ?_⟩
      by_cases hrq : r = q
      · exact ⟨s, hs, fun h => hne (hrq.trans h.symm)⟩
      · exact ⟨r, hr, hrq⟩

end DefinitionTable

end AnnotationPlan
