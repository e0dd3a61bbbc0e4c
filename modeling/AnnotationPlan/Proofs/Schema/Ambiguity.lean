import AnnotationPlan.Proofs.AnnotationUse.WrittenNames
import AnnotationPlan.Proofs.Store.Operations

/-!
# Ambiguous names

The name policy is computed from a table alone: it goes through the definitions of the table
and asks the table what their simple names stand for. Of the registrations that made the table
it sees the last definition of each name only, and a simple name may have been an alias,
ambiguous and the name of a definition in turn.

What it answers is nevertheless decided by the registered names. A name is ambiguous exactly
if several qualified names that were registered have it as their simple name, and no
definition was registered under it (`NamePolicy.isAmbiguous_iff_shared`). So it does not matter
in which order the names were registered, nor how often. Two facts carry this: the definitions
of a table are registered ones (`DefinitionTable.mem_of_mem_definitions`), and a simple name
with a bearer stands for nothing only if it has another one
(`DefinitionTable.get?_simple_eq_none_iff`).
-/

namespace AnnotationPlan

open Name (isQualified simple)

/-- **The definitions of a table are registered.** -/
theorem DefinitionTable.mem_of_mem_definitions {ds : List Definition} {d : Definition}
    (h : d ∈ (ofList ds).definitions) : d ∈ ds := by
  obtain ⟨e, he, hd⟩ := List.mem_filterMap.mp h
  obtain ⟨⟨name, _⟩, hmem, rfl⟩ := List.mem_map.mp he
  have hfind : (ofList ds).entries.find? name = some _ :=
    Entries.find?_of_mem (ofList ds).entries.distinct hmem
  have hstands := stands_ofList ds name
  rw [hfind] at hstands
  dsimp only at hd
  unfold declared? at hd
  split at hd
  case h_1 c =>
    obtain rfl := Option.some.inj hd
    exact hstands.1
  case h_2 => cases hd

namespace NamePolicy

open DefinitionTable (Bears)

variable {ds : List Definition} {name : String}

/-- **When a name is ambiguous**: when no definition is called so, and it is the simple name
of two registered names. -/
theorem isAmbiguous_ofList_iff :
    (ofTable (.ofList ds)).isAmbiguous name = true
      ↔ name ∉ ds.map Definition.name
        ∧ ∃ q r, Bears (ds.map Definition.name) name q ∧ Bears (ds.map Definition.name) name r
          ∧ q ≠ r := by
  constructor
  · intro h
    obtain ⟨d, hd, hqualified, rfl, hnone⟩ := isAmbiguous_ofTable.mp h
    have hmem : d.name ∈ ds.map Definition.name :=
      List.mem_map_of_mem (DefinitionTable.mem_of_mem_definitions hd)
    obtain ⟨hnot, r, hr, hne⟩ :=
      (DefinitionTable.get?_simple_eq_none_iff hmem hqualified).mp hnone
    exact ⟨hnot, d.name, r, ⟨hmem, hqualified, rfl⟩, hr, hne.symm⟩
  · rintro ⟨hnot, q, r, ⟨hq, hqualified, rfl⟩, hr, hne⟩
    exact (isAmbiguous_simple_iff hq hqualified).mpr ⟨hnot, r, hr, hne.symm⟩

/-- A policy lists no name twice. -/
theorem nodup_alwaysQualify (t : DefinitionTable) : (ofTable t).alwaysQualify.Nodup := by
  refine List.foldlRecOn t.definitions _ List.nodup_nil (fun names h d _ => ?_)
  split
  · show (Store.addMissing names [simple d.name]).Nodup
    exact Store.nodup_addMissing h
  · exact h

/-- **Ambiguous names are those that several registered names share.** After any sequence of
registrations a name is ambiguous exactly if at least two different qualified names that were
registered have it as their simple name and no definition was registered under it. The policy
lists these names, each once, and whatever else is registered under the same names, in any
order and any number of times, makes the same names ambiguous. -/
theorem isAmbiguous_iff_shared (ds : List Definition) :
    (∀ name, (ofTable (.ofList ds)).isAmbiguous name = true
      ↔ (∃ q ∈ ds.map Definition.name, ∃ r ∈ ds.map Definition.name, q ≠ r
          ∧ (isQualified q = true ∧ simple q = name) ∧ isQualified r = true ∧ simple r = name)
        ∧ name ∉ ds.map Definition.name)
    ∧ (∀ name, name ∈ (ofTable (.ofList ds)).alwaysQualify
        ↔ (ofTable (.ofList ds)).isAmbiguous name = true)
    ∧ (ofTable (.ofList ds)).alwaysQualify.Nodup
    ∧ ∀ ds' : List Definition, (∀ m, m ∈ ds'.map Definition.name ↔ m ∈ ds.map Definition.name) →
        (ofTable (.ofList ds')).alwaysQualify.Perm (ofTable (.ofList ds)).alwaysQualify := by
  have hlisted : ∀ (t : DefinitionTable) name,
      name ∈ (ofTable t).alwaysQualify ↔ (ofTable t).isAmbiguous name = true :=
    fun t name => decide_eq_true_iff.symm
  refine ⟨fun name => ?_, hlisted _, nodup_alwaysQualify _, fun ds' h => ?_⟩
  · rw [isAmbiguous_ofList_iff]
    constructor
    · rintro ⟨hnot, q, r, hq, hr, hne⟩
      exact ⟨⟨q, hq.1, r, hr.1, hne, hq.2, hr.2⟩, hnot⟩
    · rintro ⟨⟨q, hq, r, hr, hne, hbears, hbears'⟩, hnot⟩
      exact ⟨hnot, q, r, ⟨hq, hbears⟩, ⟨hr, hbears'⟩, hne⟩
  · refine (List.perm_ext_iff_of_nodup (nodup_alwaysQualify _) (nodup_alwaysQualify _)).mpr
      (fun name => ?_)
    have hbears : ∀ q, Bears (ds'.map Definition.name) name q
        ↔ Bears (ds.map Definition.name) name q := fun q => and_congr_left' (h q)
    rw [hlisted, hlisted, isAmbiguous_ofList_iff, isAmbiguous_ofList_iff, h name]
    simp only [hbears]

/-- Two definitions `A` in packages, two definitions `B` in packages and one called `B`. -/
def sharing : List Definition :=
  [{ name := "p.A" }, { name := "p.B" }, { name := "q.B" }, { name := "B" }, { name := "q$A" }]

/-- `A` is ambiguous among these and `B` is not; the same goes for the names turned around and
registered once more. -/
theorem isAmbiguous_sharing :
    (ofTable (.ofList sharing)).isAmbiguous "A" = true
    ∧ (ofTable (.ofList sharing)).isAmbiguous "B" = false
    ∧ (ofTable (.ofList (sharing.reverse ++ sharing))).alwaysQualify.Perm
        (ofTable (.ofList sharing)).alwaysQualify := by
  obtain ⟨hiff, -, -, hperm⟩ := isAmbiguous_iff_shared sharing
  refine ⟨(hiff "A").mpr ⟨⟨"p.A", ?_, "q$A", ?_, ?_⟩, ?_⟩, ?_, hperm _ (fun m => ?_)⟩
  · decide
  · decide
  · decide
  · decide
  · exact Bool.eq_false_iff.mpr (fun h => ((hiff "B").mp h).2 (by decide))
  · rw [List.map_append, List.map_reverse, List.mem_append, List.mem_reverse, or_self]

end NamePolicy

end AnnotationPlan
