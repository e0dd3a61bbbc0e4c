import AnnotationPlan.Proofs.Schema.Table
import Mathlib.Data.List.Dedup

/-!
# What a table finds under a name

`DefinitionTable.resolve` computes from the registered definitions alone, without a table,
what a name means: the last definition registered under it, or else, for a simple name that
a single qualified name has, the last definition registered under that one. A table finds
the same under every name (`DefinitionTable.get?_eq_resolve`).

The table keeps less than the history: a name that was an alias may have become ambiguous,
or may be shadowed by a definition called so. Two facts are enough to go back. A name is
declared exactly if a definition was registered under it, and then with the last one
(`DefinitionTable.find?_eq_declared_iff`); which of the other entries a name has is what
`DefinitionTable.stands_ofList` says.
-/

namespace AnnotationPlan

namespace DefinitionTable

open Name (isQualified simple)

variable {ds ds' : List Definition} {d c : Definition} {name q : String}

/-- **The last definition** registered under exactly this name. -/
def last? (ds : List Definition) (name : String) : Option Definition :=
  (ds.filter (fun d => d.name = name)).getLast?

/-- **The only qualified name** among names that has this simple name. -/
def soleBearer? (names : List String) (name : String) : Option String :=
  match (names.filter (fun q => isQualified q && simple q == name)).dedup with
  | [q] => some q
  | _ => none

/-- **What a name means** when definitions have been registered one after another. -/
def resolve (ds : List Definition) (name : String) : Option Definition :=
  match last? ds name with
  | some d => some d
  | none =>
    if isQualified name then none
    else (soleBearer? (ds.map Definition.name) name).bind (last? ds)

/-! ## The last definition of a name -/

/-- Of one more definition and those before, the last one of its name. -/
@[simp] theorem last?_snoc_self : last? (ds ++ [d]) d.name = some d := by
  simp [last?]

/-- One more definition is not seen under other names. -/
theorem last?_snoc_of_ne (h : name ≠ d.name) : last? (ds ++ [d]) name = last? ds name := by
  simp [last?, h.symm]

/-- A name has a last definition exactly if it has one. -/
theorem last?_eq_none_iff : last? ds name = none ↔ name ∉ ds.map Definition.name := by
  simp [last?]

/-- An alias hides no definition, and is none. -/
theorem find?_addAlias_eq_declared_iff (entries : OrderedMap String DefinitionEntry) :
    (addAlias entries q).find? name = some (.declared c)
      ↔ entries.find? name = some (.declared c) := by
  by_cases hname : name = simple q
  case neg => rw [find?_addAlias_of_ne entries hname]
  subst hname
  unfold addAlias
  dsimp only
  split
  case h_1 hnone => simp [hnone]
  case h_2 other halias =>
    split
    · rfl
    · simp [halias]
  case h_3 => rfl

/-- **A name is declared with its last definition**, and only if it has one. -/
theorem find?_eq_declared_iff :
    (ofList ds).entries.find? name = some (.declared c) ↔ last? ds name = some c := by
  induction ds using List.reverseRecOn with
  | nil => exact ⟨nofun, nofun⟩
  | append_singleton ds d ih =>
    rw [ofList_snoc, register]
    dsimp only
    by_cases hname : name = d.name
    · subst hname
      rw [OrderedMap.find?_insert_self, last?_snoc_self]
      simp
    · rw [OrderedMap.find?_insert_of_ne _ hname, last?_snoc_of_ne hname]
      split
      case isTrue => exact (find?_addAlias_eq_declared_iff _).trans ih
      case isFalse => exact ih

/-! ## The only bearer of a simple name -/

/-- The bearers of a name are what the search for its only one goes through. -/
theorem mem_bearers_iff {names : List String} :
    q ∈ (names.filter (fun q => isQualified q && simple q == name)).dedup
      ↔ Bears names name q := by
  rw [List.mem_dedup, List.mem_filter, Bool.and_eq_true, beq_iff_eq]
  rfl

/-- **When a name has a single bearer**, and which. -/
theorem soleBearer?_eq_some_iff {names : List String} :
    soleBearer? names name = some q
      ↔ Bears names name q ∧ ∀ r, Bears names name r → r = q := by
  simp only [← mem_bearers_iff]
  have hnodup := List.nodup_dedup (names.filter (fun q => isQualified q && simple q == name))
  unfold soleBearer?
  revert hnodup
  cases (names.filter (fun q => isQualified q && simple q == name)).dedup with
  | nil => exact fun _ => iff_of_false nofun (fun h => List.not_mem_nil h.1)
  | cons r rest =>
    cases rest with
    | nil =>
      intro _
      rw [Option.some.injEq]
      refine ⟨fun h => ?_, fun h => h.2 r List.mem_cons_self⟩
      subst h
      exact ⟨List.mem_cons_self, fun s hs => List.mem_singleton.mp hs⟩
    | cons s rest =>
      intro hnodup
      refine iff_of_false nofun (fun h => ?_)
      have hr : r = q := h.2 r List.mem_cons_self
      have hs : s = q := h.2 s (List.mem_cons_of_mem _ List.mem_cons_self)
      exact (List.nodup_cons.mp hnodup).1 (hr.trans hs.symm ▸ List.mem_cons_self)

/-- A qualified name is no simple name. -/
theorem Bears.isQualified_eq_false {names : List String} (h : Bears names name q) :
    isQualified name = false :=
  h.2.2 ▸ Name.isQualified_simple q

/-! ## Tables -/

/-- **A table finds what the registered definitions mean.** -/
theorem get?_eq_resolve (ds : List Definition) (name : String) :
    (ofList ds).get? name = resolve ds name := by
  have hstands := stands_ofList ds name
  unfold get? resolve
  cases hentry : (ofList ds).entries.find? name with
  | none =>
    rw [hentry] at hstands
    have hsole : soleBearer? (ds.map Definition.name) name = none :=
      Option.eq_none_iff_forall_ne_some.mpr
        (fun q hq => hstands.2 q (soleBearer?_eq_some_iff.mp hq).1)
    rw [last?_eq_none_iff.mpr hstands.1, hsole]
    simp
  | some e =>
    rw [hentry] at hstands
    cases e with
    | declared d => rw [find?_eq_declared_iff.mp hentry]
    | «alias» q =>
      obtain ⟨hnot, hq, honly⟩ := hstands
      obtain ⟨d, -, -, hd⟩ := exists_declared hq.1
      rw [last?_eq_none_iff.mpr hnot, hq.isQualified_eq_false,
        soleBearer?_eq_some_iff.mpr ⟨hq, honly⟩]
      dsimp only
      rw [hd]
      exact (find?_eq_declared_iff.mp hd).symm
    | ambiguous =>
      obtain ⟨hnot, q, r, hq, hr, hne⟩ := hstands
      have hsole : soleBearer? (ds.map Definition.name) name = none := by
        refine Option.eq_none_iff_forall_ne_some.mpr (fun s hs => hne ?_)
        have honly := (soleBearer?_eq_some_iff.mp hs).2
        exact (honly q hq).trans (honly r hr).symm
      rw [last?_eq_none_iff.mpr hnot, hsole]
      simp

/-- **What a name means is decided by the definitions of each name**, each name's in their
order. -/
theorem resolve_congr
    (h : ∀ m, ds.filter (fun d => d.name = m) = ds'.filter (fun d => d.name = m)) :
    resolve ds name = resolve ds' name := by
  have hlast : last? ds = last? ds' := funext fun m => congrArg List.getLast? (h m)
  have hmem : ∀ m, m ∈ ds.map Definition.name ↔ m ∈ ds'.map Definition.name := fun m => by
    rw [← not_iff_not, ← last?_eq_none_iff, ← last?_eq_none_iff, hlast]
  have hbears : ∀ q, Bears (ds.map Definition.name) name q
      ↔ Bears (ds'.map Definition.name) name q := fun q => and_congr_left' (hmem q)
  have hsole : soleBearer? (ds.map Definition.name) name
      = soleBearer? (ds'.map Definition.name) name := by
    refine Option.ext fun q => ?_
    rw [soleBearer?_eq_some_iff, soleBearer?_eq_some_iff, hbears q]
    exact and_congr_right' (forall_congr' fun r => imp_congr_left (hbears r))
  unfold resolve
  rw [hlast, hsole]

/-- **Definition lookup.** After any sequence of registrations, what is found under a name
is the last definition registered under exactly that name; if there is none, and the name is
a simple one that exactly one registered qualified name has, the last definition registered
under that qualified name; and otherwise nothing. What is found does not depend on the order
in which definitions of different names were registered. -/
theorem get?_determined (ds : List Definition) (name : String) :
    (∀ d, last? ds name = some d → (ofList ds).get? name = some d)
      ∧ (last? ds name = none → isQualified name = false →
        ∀ q, Bears (ds.map Definition.name) name q →
          (∀ r, Bears (ds.map Definition.name) name r → r = q) →
            ∃ d, last? ds q = some d ∧ (ofList ds).get? name = some d)
      ∧ (last? ds name = none →
        ¬ (isQualified name = false ∧ ∃! q, Bears (ds.map Definition.name) name q) →
          (ofList ds).get? name = none)
      ∧ ∀ ds' : List Definition,
        (∀ m, ds.filter (fun d => d.name = m) = ds'.filter (fun d => d.name = m)) →
          (ofList ds').get? name = (ofList ds).get? name := by
  refine ⟨fun d hd => ?_, fun hnone hsimple q hq honly => ?_, fun hnone hnot => ?_,
    fun ds' h => ?_⟩
  · rw [get?_eq_resolve, resolve, hd]
  · obtain ⟨d, -, -, hd⟩ := exists_declared hq.1
    have hlast := find?_eq_declared_iff.mp hd
    refine ⟨d, hlast, ?_⟩
    rw [get?_eq_resolve, resolve, hnone, hsimple, soleBearer?_eq_some_iff.mpr ⟨hq, honly⟩]
    exact hlast
  · rw [get?_eq_resolve, resolve, hnone]
    dsimp only
    split
    · rfl
    case isFalse hsimple =>
      have hsole : soleBearer? (ds.map Definition.name) name = none := by
        refine Option.eq_none_iff_forall_ne_some.mpr (fun q hq => hnot ?_)
        exact ⟨Bool.eq_false_iff.mpr hsimple, q, soleBearer?_eq_some_iff.mp hq⟩
      rw [hsole]
      rfl
  · rw [get?_eq_resolve, get?_eq_resolve, resolve_congr h]

/-- A name that is registered twice, around another one. -/
def repeated : List Definition :=
  [{ name := "p.A", retention := .source }, { name := "B" },
    { name := "p.A", retention := .runtime }]

/-- The second definition of `p.A` is found under both its names, nothing is found under
`C`, and it is the same with `B` in front. -/
theorem get?_repeated :
    (ofList repeated).get? "p.A" = some { name := "p.A", retention := .runtime }
      ∧ (∃ d, last? repeated "p.A" = some d ∧ (ofList repeated).get? "A" = some d)
      ∧ (ofList repeated).get? "C" = none
      ∧ (ofList [{ name := "B" }, { name := "p.A", retention := .source },
          { name := "p.A", retention := .runtime }]).get? "A" = (ofList repeated).get? "A" := by
  have hbears : ∀ n r, Bears (repeated.map Definition.name) n r → r = "p.A" ∧ n = "A" := by
    rintro n r ⟨hr, hqualified, rfl⟩
    have hcases : r = "p.A" ∨ r = "B" ∨ r = "p.A" := by simpa [repeated] using hr
    obtain rfl | rfl | rfl := hcases
    · exact ⟨rfl, by decide +kernel⟩
    · exact absurd hqualified (by decide +kernel)
    · exact ⟨rfl, by decide +kernel⟩
  refine ⟨(get?_determined repeated "p.A").1 _ (by decide +kernel),
    (get?_determined repeated "A").2.1 (by decide +kernel) (by decide +kernel) "p.A"
      ⟨by decide +kernel, by decide +kernel, by decide +kernel⟩ (fun r hr => (hbears _ r hr).1),
    (get?_determined repeated "C").2.2.1 (by decide +kernel) ?_,
    (get?_determined repeated "A").2.2.2 _ (fun m => ?_)⟩
  · rintro ⟨-, q, hq, -⟩
    exact absurd (hbears _ q hq).2 (by decide +kernel)
  · by_cases hm : "B" = m
    · subst hm
      decide +kernel
    · simp [repeated, hm, List.filter_cons]

end DefinitionTable

end AnnotationPlan
