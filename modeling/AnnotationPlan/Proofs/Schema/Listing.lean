import AnnotationPlan.Proofs.Criteria.Composition
import AnnotationPlan.Proofs.Schema.Ambiguity
import AnnotationPlan.Proofs.Schema.Lookup

/-!
# In which order a table lists its definitions

A table lists each registered name once, with its last definition. One would have the names in
the order in which they were first registered. But they share a map with the simple names of
qualified ones, and a key of a map that is written to again keeps its place. A definition that is
registered under a simple name, when a qualified one has that simple name already, therefore takes
the place that the simple name has, and this is before the qualified one.

So the order is that in which names are first **mentioned** (`DefinitionTable.mentions`): a
qualified definition mentions its simple name and then its own (`DefinitionTable.keys_ofList`).
It is the order of registration if and only if no name is mentioned before it is registered
(`DefinitionTable.definitions_listed`).
-/

namespace AnnotationPlan

namespace DefinitionTable

open Name (isQualified simple)
open Store (addMissing mem_addMissing)

variable {ds : List Definition} {d : Definition} {name q : String}

/-- **The names that a definition mentions** where it is registered. -/
def mentions (d : Definition) : List String :=
  if isQualified d.name then [simple d.name, d.name] else [d.name]

/-- The names of the definitions of a table, in its order. -/
def names (t : DefinitionTable) : List String := t.definitions.map Definition.name

/-- **A late name** was the simple name of a registered definition before a definition was
registered under it. -/
def IsLate (ds : List Definition) (name : String) : Prop :=
  ∃ before d after, ds = before ++ d :: after ∧ d.name = name
    ∧ name ∉ before.map Definition.name ∧ ∃ q, Bears (before.map Definition.name) name q

/-! ## Keys -/

theorem mem_mentions : name ∈ mentions d ↔
    name = d.name ∨ (isQualified d.name = true ∧ simple d.name = name) := by
  unfold mentions
  split
  case isTrue h => simp [h, or_comm, eq_comm]
  case isFalse h => simp [h]

/-- A qualified name is not the simple name that it mentions. -/
theorem ne_simple_of_isQualified (h : isQualified q = true) : q ≠ simple q := fun he => by
  have hsimple := Name.isQualified_simple q
  rw [← he, h] at hsimple
  cases hsimple

/-- A qualified definition mentions its simple name and then its own. -/
theorem addMissing_mentions (h : isQualified d.name = true) (keys : List String) :
    addMissing keys (mentions d) = addMissing (addMissing keys [simple d.name]) [d.name] := by
  rw [mentions, if_pos h]
  exact Store.addMissing_append keys [simple d.name] [d.name]

/-- Mentioning its simple name does not mention a qualified name. -/
theorem notMem_addMissing_simple (h : isQualified q = true) {keys : List String} (hq : q ∉ keys) :
    q ∉ addMissing keys [simple q] := fun hmem =>
  (mem_addMissing.mp hmem).elim hq
    (fun hmem => ne_simple_of_isQualified h (List.mem_singleton.mp hmem))

theorem mem_keys_iff {entries : OrderedMap String DefinitionEntry} :
    name ∈ entries.keys ↔ entries.find? name ≠ none := by
  rw [← Option.isSome_iff_ne_none]
  exact (Entries.isSome_find?_iff name entries.entries).symm

/-- An alias is a key behind the others, unless it is one of them. -/
theorem keys_addAlias (entries : OrderedMap String DefinitionEntry) (q : String) :
    (addAlias entries q).keys = addMissing entries.keys [simple q] := by
  have hinsert : ∀ e, (entries.insert (simple q) e).keys = addMissing entries.keys [simple q] :=
    fun _ => OrderedMap.keys_alter entries (simple q) _
  have hthere : entries.find? (simple q) ≠ none →
      entries.keys = addMissing entries.keys [simple q] := fun h =>
    (if_pos (mem_keys_iff.mpr h)).symm
  unfold addAlias
  dsimp only
  split
  case h_1 => exact hinsert _
  case h_2 other h =>
    split
    · exact hthere (h ▸ Option.some_ne_none _)
    · exact hinsert _
  case h_3 h => exact hthere (h ▸ Option.some_ne_none _)

/-- **Registering a definition** adds the names that it mentions, unless they are there. -/
theorem keys_register (t : DefinitionTable) (d : Definition) :
    (t.register d).entries.keys = addMissing t.entries.keys (mentions d) := by
  unfold register mentions
  dsimp only
  split
  · refine (OrderedMap.keys_alter _ _ _).trans ?_
    rw [keys_addAlias]
    rfl
  · exact OrderedMap.keys_alter _ _ _

theorem keys_ofList_snoc (ds : List Definition) (d : Definition) :
    (ofList (ds ++ [d])).entries.keys = addMissing (ofList ds).entries.keys (mentions d) := by
  rw [ofList_snoc, keys_register]

/-- **The keys of a table** are the mentioned names, in the order in which they are first
mentioned. -/
theorem keys_ofList (ds : List Definition) :
    (ofList ds).entries.keys = (ds.flatMap mentions).eraseDups := by
  have hadd : (ofList ds).entries.keys = addMissing [] (ds.flatMap mentions) := by
    induction ds using List.reverseRecOn with
    | nil => rfl
    | append_singleton ds d ih =>
      rw [keys_ofList_snoc, ih, List.flatMap_append, List.flatMap_singleton,
        Store.addMissing_append]
  rw [hadd, Store.addMissing_eq_eraseDups _ List.nodup_nil, List.nil_append]

/-- **A name is a key** if it is registered or a registered name has it as its simple name. -/
theorem mem_keys_ofList : name ∈ (ofList ds).entries.keys ↔
    name ∈ ds.map Definition.name ∨ ∃ q, Bears (ds.map Definition.name) name q := by
  rw [keys_ofList, List.mem_eraseDups, List.mem_flatMap]
  constructor
  · rintro ⟨d, hd, hname⟩
    rcases mem_mentions.mp hname with rfl | ⟨hqualified, hsimple⟩
    · exact Or.inl (List.mem_map_of_mem hd)
    · exact Or.inr ⟨d.name, List.mem_map_of_mem hd, hqualified, hsimple⟩
  · rintro (h | ⟨q, hq, hqualified, hsimple⟩)
    · obtain ⟨d, hd, rfl⟩ := List.mem_map.mp h
      exact ⟨d, hd, mem_mentions.mpr (Or.inl rfl)⟩
    · obtain ⟨d, hd, rfl⟩ := List.mem_map.mp hq
      exact ⟨d, hd, mem_mentions.mpr (Or.inr ⟨hqualified, hsimple⟩)⟩

/-- A qualified name is a key only if it is registered. -/
theorem mem_of_mem_keys (h : q ∈ (ofList ds).entries.keys) (hqualified : isQualified q = true) :
    q ∈ ds.map Definition.name := by
  rcases mem_keys_ofList.mp h with h | ⟨r, hr⟩
  · exact h
  · rw [hr.isQualified_eq_false] at hqualified
    cases hqualified

/-! ## Definitions -/

/-- **The definitions of a table** are the last ones of their names. -/
theorem mem_definitions_ofList : d ∈ (ofList ds).definitions ↔ last? ds d.name = some d := by
  rw [← find?_eq_declared_iff]
  refine ⟨fun h => ?_, mem_definitions_of_find?⟩
  obtain ⟨e, he, hd⟩ := List.mem_filterMap.mp h
  obtain ⟨⟨key, entry⟩, hmem, rfl⟩ := List.mem_map.mp he
  have hfind : (ofList ds).entries.find? key = some entry :=
    Entries.find?_of_mem (ofList ds).entries.distinct hmem
  have hstands := stands_ofList ds key
  rw [hfind] at hstands
  cases entry with
  | declared c =>
    cases hd
    exact hstands.2 ▸ hfind
  | «alias» other => cases hd
  | ambiguous => cases hd

/-- Where exactly some keys have a definition, with their name, the definitions have these keys
for names. -/
theorem map_name_filterMap_declared? (registered : List String) :
    ∀ (es : List (String × DefinitionEntry)),
      (∀ e ∈ es, e.1 ∈ registered → ∃ c, e.2 = .declared c ∧ c.name = e.1) →
      (∀ e ∈ es, e.1 ∉ registered → declared? e.2 = none) →
      ((es.map Prod.snd).filterMap declared?).map Definition.name
        = (es.map Prod.fst).filter (· ∈ registered)
  | [], _, _ => rfl
  | e :: rest, hin, hout => by
    obtain ⟨hin₀, hin⟩ := List.forall_mem_cons.mp hin
    obtain ⟨hout₀, hout⟩ := List.forall_mem_cons.mp hout
    have ih := map_name_filterMap_declared? registered rest hin hout
    rw [List.map_cons, List.map_cons]
    by_cases h : e.1 ∈ registered
    · obtain ⟨c, hc, hname⟩ := hin₀ h
      rw [List.filterMap_cons_some (hc ▸ rfl : declared? e.2 = some c), List.map_cons, ih, hname,
        List.filter_cons_of_pos (by simpa using h)]
    · rw [List.filterMap_cons_none (hout₀ h), ih, List.filter_cons_of_neg (by simpa using h)]

/-- **A table lists the registered names** in the order of its keys. -/
theorem names_ofList (ds : List Definition) :
    (ofList ds).names = (ofList ds).entries.keys.filter (· ∈ ds.map Definition.name) := by
  have hfind : ∀ e ∈ (ofList ds).entries.entries, (ofList ds).entries.find? e.1 = some e.2 :=
    fun e he => Entries.find?_of_mem (ofList ds).entries.distinct he
  refine map_name_filterMap_declared? _ _ (fun e he hmem => ?_) (fun e he hnot => ?_)
  · obtain ⟨c, -, hname, hc⟩ := exists_declared hmem
    exact ⟨c, Option.some.inj ((hfind e he).symm.trans hc), hname⟩
  · have hstands := stands_ofList ds e.1
    rw [hfind e he] at hstands
    cases hentry : e.2 with
    | declared c =>
      rw [hentry] at hstands
      exact absurd (hstands.2 ▸ List.mem_map_of_mem hstands.1) hnot
    | «alias» other => rfl
    | ambiguous => rfl

theorem mem_names_ofList : name ∈ (ofList ds).names ↔ name ∈ ds.map Definition.name := by
  rw [names_ofList, List.mem_filter, decide_eq_true_iff]
  exact and_iff_right_of_imp (fun h => mem_keys_ofList.mpr (Or.inl h))

theorem nodup_names_ofList (ds : List Definition) : (ofList ds).names.Nodup := by
  rw [names_ofList]
  exact (ofList ds).entries.distinct.filter _

/-- **The size of a table** is the number of different names. -/
theorem size_ofList (ds : List Definition) :
    (ofList ds).size = (ds.map Definition.name).dedup.length := by
  have hperm : (ofList ds).names.Perm (ds.map Definition.name).dedup :=
    (List.perm_ext_iff_of_nodup (nodup_names_ofList ds) (List.nodup_dedup _)).mpr
      (fun name => mem_names_ofList.trans List.mem_dedup.symm)
  rw [← hperm.length_eq, names, List.length_map]
  rfl

/-! ## Order -/

/-- **The simple name of a registered name is mentioned before it**: no qualified name is
mentioned but where it is registered. -/
theorem simple_sublist_keys (hqualified : isQualified q = true) :
    ∀ {ds : List Definition}, q ∈ ds.map Definition.name →
      [simple q, q].Sublist (ofList ds).entries.keys := by
  intro ds hq
  induction ds using List.reverseRecOn with
  | nil => exact absurd hq List.not_mem_nil
  | append_singleton ds d ih =>
    rw [keys_ofList_snoc]
    by_cases hold : q ∈ ds.map Definition.name
    · rw [Store.addMissing_eq_append]
      exact (ih hold).trans (List.sublist_append_left _ _)
    obtain rfl : q = d.name := by
      rw [List.map_append, List.mem_append] at hq
      simpa using hq.resolve_left hold
    have hnew : d.name ∉ addMissing (ofList ds).entries.keys [simple d.name] :=
      notMem_addMissing_simple hqualified (fun h => hold (mem_of_mem_keys h hqualified))
    rw [addMissing_mentions hqualified, Store.addMissing_cons, if_neg hnew, Store.addMissing_nil]
    show ([simple d.name] ++ [d.name]).Sublist _
    refine List.Sublist.append ?_ (List.Sublist.refl [d.name])
    exact List.singleton_sublist.mpr (mem_addMissing.mpr (Or.inr List.mem_cons_self))

/-- What is added is seen through a filter, unless it was there. -/
theorem filter_addMissing_singleton (p : String → Bool) (keys : List String) (name : String) :
    (addMissing keys [name]).filter p
      = if name ∈ keys ∨ p name = false then keys.filter p else keys.filter p ++ [name] := by
  rw [Store.addMissing_cons, Store.addMissing_nil]
  by_cases hmem : name ∈ keys
  · rw [if_pos hmem, if_pos (Or.inl hmem)]
  · rw [if_neg hmem, List.filter_append]
    cases hp : p name <;> simp [hmem, hp]

/-- **A name that was not mentioned before** comes behind all others. -/
theorem names_snoc_of_notMem_keys (h : d.name ∉ (ofList ds).entries.keys) :
    (ofList (ds ++ [d])).names = (ofList ds).names ++ [d.name] := by
  have hmem : ∀ {key}, key ∈ (ds ++ [d]).map Definition.name ↔
      key ∈ ds.map Definition.name ∨ key = d.name := by simp
  have hself : ¬ decide (d.name ∈ (ds ++ [d]).map Definition.name) = false := by simp
  have hold : (ofList ds).entries.keys.filter (· ∈ (ds ++ [d]).map Definition.name)
      = (ofList ds).names := by
    rw [names_ofList]
    refine List.filter_congr (fun key hkey => decide_eq_decide.mpr (hmem.trans ?_))
    exact or_iff_left (fun he => h (he ▸ hkey))
  rw [names_ofList (ds ++ [d]), keys_ofList_snoc, ← hold]
  by_cases hqualified : isQualified d.name = true
  · have hnew := notMem_addMissing_simple hqualified h
    -- the simple name is a key now, but no definition has it
    have hhidden : simple d.name ∈ (ofList ds).entries.keys
        ∨ decide (simple d.name ∈ (ds ++ [d]).map Definition.name) = false := by
      refine or_iff_not_imp_left.mpr (fun hnot => decide_eq_false (fun hsimple => ?_))
      rcases hmem.mp hsimple with hsimple | hsimple
      · exact hnot (mem_keys_ofList.mpr (Or.inl hsimple))
      · exact ne_simple_of_isQualified hqualified hsimple.symm
    rw [addMissing_mentions hqualified, filter_addMissing_singleton,
      if_neg (not_or.mpr ⟨hnew, hself⟩), filter_addMissing_singleton, if_pos hhidden]
  · rw [mentions, if_neg hqualified, filter_addMissing_singleton, if_neg (not_or.mpr ⟨h, hself⟩)]

/-- **A name that is registered again** keeps its place. -/
theorem names_snoc_of_mem (h : d.name ∈ ds.map Definition.name) :
    (ofList (ds ++ [d])).names = (ofList ds).names := by
  have hkeys : ∀ key ∈ mentions d, key ∈ (ofList ds).entries.keys := fun key hkey => by
    rcases mem_mentions.mp hkey with rfl | ⟨hqualified, hsimple⟩
    · exact mem_keys_ofList.mpr (Or.inl h)
    · exact mem_keys_ofList.mpr (Or.inr ⟨d.name, h, hqualified, hsimple⟩)
  rw [names_ofList, names_ofList, keys_ofList_snoc, Store.addMissing_of_subset hkeys]
  refine List.filter_congr (fun key _ => ?_)
  have hsame : key ∈ (ds ++ [d]).map Definition.name ↔ key ∈ ds.map Definition.name := by
    rw [List.map_append, List.map_singleton, List.mem_append, List.mem_singleton]
    exact or_iff_left_of_imp (fun he => he ▸ h)
  exact decide_eq_decide.mpr hsame

/-- Two members of a list without repeats come in one order only. -/
theorem not_sublist_swap {α : Type} {a b : α} :
    ∀ {l : List α}, l.Nodup → [a, b].Sublist l → ¬ [b, a].Sublist l
  | [], _, h, _ => by cases h
  | x :: rest, hnodup, hab, hba => by
    obtain ⟨hx, hrest⟩ := List.nodup_cons.mp hnodup
    rw [List.cons_sublist_cons'] at hab hba
    rcases hab with hab | ⟨rfl, hb⟩
    · rcases hba with hba | ⟨rfl, -⟩
      · exact not_sublist_swap hrest hab hba
      · exact hx (hab.subset (List.mem_cons_of_mem _ List.mem_cons_self))
    · rcases hba with hba | ⟨rfl, ha⟩
      · exact hx (hba.subset (List.mem_cons_of_mem _ List.mem_cons_self))
      · exact hx (ha.subset List.mem_cons_self)

/-- What comes up later for the first time comes behind. -/
theorem sublist_eraseDups {α : Type} [DecidableEq α] {xs ys : List α} {a b : α} (ha : a ∈ xs)
    (hb : b ∉ xs) : [a, b].Sublist (xs ++ b :: ys).eraseDups := by
  rw [List.eraseDups_append]
  show ([a] ++ [b]).Sublist _
  refine List.Sublist.append ?_ ?_
  · exact List.singleton_sublist.mpr (List.mem_eraseDups.mpr ha)
  · exact List.singleton_sublist.mpr (List.mem_eraseDups.mpr (by simp [List.removeAll, hb]))

/-- **A late name is listed before a name that was registered earlier.** -/
theorem names_ne_of_isLate (h : IsLate ds name) :
    (ofList ds).names ≠ (ds.map Definition.name).eraseDups := by
  obtain ⟨before, d, after, rfl, rfl, hnew, q, hq, hqualified, hsimple⟩ := h
  have hmem : q ∈ (before ++ d :: after).map Definition.name := by
    rw [List.map_append]
    exact List.mem_append_left _ hq
  have hlisted : [d.name, q].Sublist (ofList (before ++ d :: after)).names := by
    have hfilter := (simple_sublist_keys hqualified hmem).filter
      (· ∈ (before ++ d :: after).map Definition.name)
    rwa [hsimple, ← names_ofList, List.filter_cons_of_pos (by simp),
      List.filter_cons_of_pos (by simpa using hmem), List.filter_nil] at hfilter
  intro hsame
  refine not_sublist_swap (nodup_names_ofList _) hlisted ?_
  rw [hsame, List.map_append, List.map_cons]
  exact sublist_eraseDups hq hnew

/-- **Without late names** the names are listed as they were first registered. -/
theorem names_eq_of_not_isLate (h : ∀ name, ¬ IsLate ds name) :
    (ofList ds).names = (ds.map Definition.name).eraseDups := by
  induction ds using List.reverseRecOn with
  | nil => rfl
  | append_singleton ds d ih =>
    have hbefore : ∀ name, ¬ IsLate ds name := by
      rintro name ⟨before, c, after, rfl, hlate⟩
      exact h name ⟨before, c, after ++ [d], by rw [List.append_assoc, List.cons_append], hlate⟩
    rw [List.map_append, List.map_singleton, CriteriaList.eraseDups_snoc, ← ih hbefore]
    by_cases hmem : d.name ∈ ds.map Definition.name
    · rw [if_pos hmem, names_snoc_of_mem hmem]
    · have hnew : d.name ∉ (ofList ds).entries.keys := fun hkey =>
        (mem_keys_ofList.mp hkey).elim hmem
          (fun hbears => h d.name ⟨ds, d, [], rfl, rfl, hmem, hbears⟩)
      rw [if_neg hmem, names_snoc_of_notMem_keys hnew]

/-- **How a table lists its definitions.** After any registrations it has each registered name
once, with the last definition registered under it, and their number is that of the different
names. They come in the order in which their names were first mentioned, as a name that was
registered or as the simple name of one. That is the order in which the names were first
registered if and only if none of them is late. -/
theorem definitions_listed (ds : List Definition) :
    (ofList ds).names.Nodup
    ∧ (∀ name, name ∈ (ofList ds).names ↔ name ∈ ds.map Definition.name)
    ∧ (∀ d, d ∈ (ofList ds).definitions ↔ last? ds d.name = some d)
    ∧ (ofList ds).size = (ds.map Definition.name).dedup.length
    ∧ (ofList ds).names
      = (ds.flatMap mentions).eraseDups.filter (· ∈ ds.map Definition.name)
    ∧ ((ofList ds).names = (ds.map Definition.name).eraseDups ↔ ∀ name, ¬ IsLate ds name) := by
  refine ⟨nodup_names_ofList ds, fun _ => mem_names_ofList, fun _ => mem_definitions_ofList,
    size_ofList ds, ?_, fun hsame name hlate => names_ne_of_isLate hlate hsame,
    names_eq_of_not_isLate⟩
  rw [names_ofList, keys_ofList]

/-- The definition `A` takes the place that the simple name of `p.A` has. -/
theorem late_name_listed_first :
    (ofList [{ name := "p.A" }, { name := "A" }]).names = ["A", "p.A"]
    ∧ (([{ name := "p.A" }, { name := "A" }] : List Definition).map Definition.name).eraseDups
      = ["p.A", "A"] := by
  decide +kernel

end DefinitionTable

end AnnotationPlan
