import AnnotationPlan.Proofs.Location.Spellings
import AnnotationPlan.Proofs.Scene.Loaded
import Mathlib.Data.Finset.Card
import Mathlib.Data.List.Forall2

/-!
# Which members of an object are one entry of a map

The maps of a scene whose keys are locations have the locations as their keys, and not the texts
that they are read from. A key that is repeated takes its last value, and a key is repeated if its
location is, however it is spelled. So a map has one entry for each location that is spelled, and
the entry is loaded from the last member that spells it (`Load.map_locationKey`). A member is lost
exactly if a later one spells the same location: no two are one entry if and only if no two of the
texts spell one location, and in particular if the texts are different and canonical. That the
texts are different is not enough (`Load.zeros_merged`).
-/

namespace AnnotationPlan

open Location

variable {κ ν : Type}

/-! ## Maps that are made of pairs -/

namespace Entries

variable [DecidableEq κ] {k : κ} {v : ν} {e : κ × ν}

/-- The last pair of a list is written last. -/
theorem ofList_concat (es : List (κ × ν)) (e : κ × ν) :
    ofList (es ++ [e]) = insert e.1 e.2 (ofList es) :=
  List.foldl_concat ..

omit [DecidableEq κ] in
/-- A pair in a list that is one longer is the last one, or the last one is behind it. -/
theorem concat_eq_append_cons {es before after : List (κ × ν)} {last : κ × ν}
    (h : es ++ [last] = before ++ e :: after) :
    (last = e ∧ after = []) ∨ ∃ more, after = more ++ [last] ∧ es = before ++ e :: more := by
  rcases List.eq_nil_or_concat after with rfl | ⟨more, last', rfl⟩
  · exact .inl ⟨List.singleton_inj.mp (List.append_inj' h rfl).2, rfl⟩
  · rw [List.concat_eq_append, ← List.cons_append, ← List.append_assoc] at h
    obtain ⟨hfront, hlast⟩ := List.append_inj' h rfl
    rw [List.concat_eq_append, List.singleton_inj.mp hlast]
    exact .inr ⟨more, rfl, hfront⟩

/-- **The value of a key** is that of the last pair with the key. -/
theorem find?_ofList_eq_some_iff (es : List (κ × ν)) :
    find? k (ofList es) = some v
      ↔ ∃ before after, es = before ++ (k, v) :: after ∧ ∀ e ∈ after, e.1 ≠ k := by
  induction es using List.reverseRecOn with
  | nil =>
    refine ⟨nofun, fun ⟨before, after, hes, _⟩ => ?_⟩
    exact absurd hes.symm (List.append_ne_nil_of_right_ne_nil before (List.cons_ne_nil _ _))
  | append_singleton es last ih =>
    rw [ofList_concat, insert]
    by_cases hk : k = last.1
    · -- nothing behind the last pair has its key
      subst hk
      rw [find?_alter_self]
      refine ⟨fun h => ?_, fun ⟨before, after, hes, hafter⟩ => ?_⟩
      · obtain rfl := Option.some.inj h
        exact ⟨es, [], rfl, fun _ hmem => absurd hmem List.not_mem_nil⟩
      · rcases concat_eq_append_cons hes with ⟨hlast, -⟩ | ⟨more, rfl, -⟩
        · rw [hlast]
        · exact absurd rfl (hafter last (List.mem_append_right more List.mem_cons_self))
    · -- the last pair has another key, so it may stand behind any pair with the key
      rw [find?_alter_of_ne hk, ih]
      refine ⟨fun ⟨before, after, hes, hafter⟩ => ?_, fun ⟨before, after, hes, hafter⟩ => ?_⟩
      · refine ⟨before, after ++ [last], ?_, ?_⟩
        · rw [hes, List.append_assoc, List.cons_append]
        · exact List.forall_mem_append.mpr ⟨hafter, List.forall_mem_singleton.mpr (Ne.symm hk)⟩
      · rcases concat_eq_append_cons hes with ⟨hlast, -⟩ | ⟨more, rfl, hfront⟩
        · rw [hlast] at hk
          exact absurd rfl hk
        · exact ⟨before, more, hfront, (List.forall_mem_append.mp hafter).1⟩

/-- **The pairs of a map** are the last ones with their keys. -/
theorem mem_ofList_iff {es : List (κ × ν)} :
    e ∈ ofList es ↔ ∃ before after, es = before ++ e :: after ∧ ∀ e' ∈ after, e'.1 ≠ e.1 := by
  rw [← find?_ofList_eq_some_iff]
  exact ⟨find?_of_mem (ofList_spec es).1, mem_of_find?⟩

/-- A key of a map is a key of the pairs. -/
theorem mem_keys_ofList {es : List (κ × ν)} :
    k ∈ (ofList es).map Prod.fst ↔ k ∈ es.map Prod.fst := by
  induction es using List.reverseRecOn with
  | nil => rfl
  | append_singleton es e ih =>
    rw [ofList_concat, insert, keys_alter, List.map_append, List.mem_append]
    split
    case isTrue he =>
      rw [ih, List.map_singleton, List.mem_singleton]
      refine ⟨.inl, fun h => h.elim id ?_⟩
      rintro rfl
      exact ih.mp he
    case isFalse => rw [List.mem_append, ih, List.map_singleton]

/-- **A map has as many pairs** as it is made of exactly if no two of them have one key. -/
theorem length_ofList_eq_iff {es : List (κ × ν)} :
    (ofList es).length = es.length ↔ (es.map Prod.fst).Nodup := by
  have hkeys : ((ofList es).map Prod.fst).toFinset = (es.map Prod.fst).toFinset := by
    ext k
    rw [List.mem_toFinset, List.mem_toFinset, mem_keys_ofList]
  rw [← List.length_map Prod.fst, ← List.toFinset_card_of_nodup (ofList_spec es).1, hkeys,
    ← List.length_map Prod.fst]
  exact Multiset.toFinset_card_eq_card_iff_nodup

end Entries

/-! ## Members -/

namespace Load

variable {kind : Kind} {value : Loader ν} {members : List (List Char × Source)}
  {es : List (kind.Key × ν)}

/-- The texts of the keys of an object. -/
def keyTexts (members : List (List Char × Source)) : List String :=
  members.filterMap (fun member => Source.text? member.1)

/-- **An entry is loaded from a member** of an object: the text of the key spells the location, and
the value is what is loaded. -/
def IsLoadedFrom (kind : Kind) (value : Loader ν) (member : List Char × Source)
    (entry : kind.Key × ν) : Prop :=
  ∃ s, Source.text? member.1 = some s ∧ kind.Spells s entry.1 ∧ value member.2 = .ok entry.2

/-- A list is loaded item by item. -/
theorem mapM_eq_ok {α β ε : Type} {f : α → Except ε β} :
    ∀ {xs : List α} {ys : List β},
      xs.mapM f = .ok ys ↔ List.Forall₂ (fun x y => f x = .ok y) xs ys
  | [], ys => by
    rw [List.forall₂_nil_left_iff, eq_comm, List.mapM_nil]
    exact iff_of_eq (Except.ok.injEq _ _)
  | x :: xs, ys => by
    rw [List.mapM_cons, List.forall₂_cons_left_iff, bind_eq_ok]
    refine ⟨fun ⟨y, hy, hrest⟩ => ?_, fun ⟨y, ys, hy, hrest, hys⟩ => ?_⟩
    · obtain ⟨ys, hys, hpure⟩ := bind_eq_ok.mp hrest
      exact ⟨y, ys, hy, mapM_eq_ok.mp hys, (Except.ok.inj hpure).symm⟩
    · exact ⟨y, hy, bind_eq_ok.mpr ⟨ys, mapM_eq_ok.mpr hrest, congrArg _ hys.symm⟩⟩

/-- A key is the text that is spelled. -/
theorem textKey_eq_ok {spelled : List Char} {s : String} :
    textKey spelled = .ok s ↔ Source.text? spelled = some s := by
  rw [textKey]
  cases Source.text? spelled with
  | none => exact ⟨nofun, nofun⟩
  | some s' =>
    rw [Option.some_inj]
    exact iff_of_eq (Except.ok.injEq _ _)

/-- A key is a location that its text spells. -/
theorem locationKey_eq_ok {spelled : List Char} {k : kind.Key} :
    locationKey kind.parse spelled = .ok k
      ↔ ∃ s, Source.text? spelled = some s ∧ kind.Spells s k := by
  rw [locationKey, bind_eq_ok]
  refine exists_congr fun s => and_congr textKey_eq_ok ?_
  rw [← Kind.parse_eq_ok_iff]
  cases kind.parse s with
  | ok k' => simp
  | error e => exact ⟨nofun, nofun⟩

/-- **The pairs of an object** are loaded from its members one by one. -/
theorem pairs_eq_ok :
    pairs (locationKey kind.parse) value (.object members) = .ok es
      ↔ List.Forall₂ (IsLoadedFrom kind value) members es := by
  have hmember : ∀ (member : List Char × Source) (e : kind.Key × ν),
      (do
        let k ← locationKey kind.parse member.1
        let v ← value member.2
        pure (k, v)) = Except.ok e ↔ IsLoadedFrom kind value member e := by
    rintro member ⟨k, v⟩
    rw [bind_eq_ok]
    refine ⟨fun ⟨k', hk, hrest⟩ => ?_, fun ⟨s, hs, hspells, hvalue⟩ => ?_⟩
    · obtain ⟨v', hv, hpure⟩ := bind_eq_ok.mp hrest
      cases hpure
      obtain ⟨s, hs, hspells⟩ := locationKey_eq_ok.mp hk
      exact ⟨s, hs, hspells, hv⟩
    · exact ⟨k, locationKey_eq_ok.mpr ⟨s, hs, hspells⟩, bind_eq_ok.mpr ⟨v, hvalue, rfl⟩⟩
  rw [pairs, mapM_eq_ok]
  simp only [hmember]

/-- The keys of pairs are what their texts are read as. -/
theorem map_parse_keyTexts (h : List.Forall₂ (IsLoadedFrom kind value) members es) :
    (keyTexts members).map kind.parse = es.map (fun e => .ok e.1) := by
  induction h with
  | nil => rfl
  | @cons member _ _ _ hfirst _ ih =>
    obtain ⟨s, hs, hspells, -⟩ := hfirst
    have htexts : ∀ more, keyTexts (member :: more) = s :: keyTexts more :=
      fun _ => List.filterMap_cons_some hs
    rw [htexts, List.map_cons, List.map_cons, Kind.parse_eq_ok_iff.mpr hspells, ih]

/-- Which locations are spelled. -/
theorem spells_keyTexts_iff (h : List.Forall₂ (IsLoadedFrom kind value) members es) (k : kind.Key) :
    (∀ s ∈ keyTexts members, ¬ kind.Spells s k) ↔ ∀ e ∈ es, e.1 ≠ k := by
  have hread : (∃ s ∈ keyTexts members, kind.parse s = .ok k) ↔ ∃ e ∈ es, e.1 = k := by
    rw [← List.mem_map, map_parse_keyTexts h, List.mem_map]
    simp only [Except.ok.injEq]
  simp only [Kind.parse_eq_ok_iff] at hread
  simpa only [not_exists, not_and] using not_congr hread

/-- **No two texts spell one location** exactly if no two pairs have one key. -/
theorem pairwise_keyTexts_iff (h : List.Forall₂ (IsLoadedFrom kind value) members es) :
    (keyTexts members).Pairwise (fun s s' => ¬ kind.SpelledAlike s s')
      ↔ (es.map Prod.fst).Nodup := by
  have hmap := map_parse_keyTexts h
  have hspells : ∀ s ∈ keyTexts members, ∃ k, kind.Spells s k := by
    intro s hs
    have hs := List.mem_map_of_mem (f := kind.parse) hs
    rw [hmap] at hs
    obtain ⟨e, -, he⟩ := List.mem_map.mp hs
    exact ⟨e.1, Kind.parse_eq_ok_iff.mp he.symm⟩
  calc (keyTexts members).Pairwise (fun s s' => ¬ kind.SpelledAlike s s')
      ↔ (keyTexts members).Pairwise (fun s s' => kind.parse s ≠ kind.parse s') := by
        refine List.Pairwise.iff_of_mem fun {s s'} hs _ => ?_
        obtain ⟨k, hk⟩ := hspells s hs
        exact not_congr hk.spelledAlike_iff
    _ ↔ ((keyTexts members).map kind.parse).Nodup := List.pairwise_map.symm
    _ ↔ ((es.map Prod.fst).map Except.ok).Nodup := by
      rw [hmap, List.map_map]
      rfl
    _ ↔ (es.map Prod.fst).Nodup := List.nodup_map_iff (fun _ _ => Except.ok.inj)

/-- An entry is loaded from a member in one way only. -/
theorem IsLoadedFrom.unique {member : List Char × Source} {e e' : kind.Key × ν}
    (h : IsLoadedFrom kind value member e) (h' : IsLoadedFrom kind value member e') : e = e' := by
  obtain ⟨s, hs, hspells, hvalue⟩ := h
  obtain ⟨s', hs', hspells', hvalue'⟩ := h'
  obtain rfl := Option.some.inj (hs.symm.trans hs')
  exact Prod.ext (hspells.unique hspells') (Except.ok.inj (hvalue.symm.trans hvalue'))

/-- What corresponds to a list with an item in it has one in its place. -/
theorem exists_split_of_forall₂ {α β : Type} {R : α → β → Prop} {y : β} {after : List β} :
    ∀ {before : List β} {xs : List α}, List.Forall₂ R xs (before ++ y :: after) →
      ∃ front x behind, xs = front ++ x :: behind ∧ R x y ∧ List.Forall₂ R behind after
  | [], _, .cons hx hrest => ⟨[], _, _, rfl, hx, hrest⟩
  | _ :: _, _, .cons _ hrest => by
    obtain ⟨front, x, behind, rfl, hx, hbehind⟩ := exists_split_of_forall₂ hrest
    exact ⟨_ :: front, x, behind, rfl, hx, hbehind⟩

/-- **The entries of a map** are loaded from the last members that spell their locations. -/
theorem mem_entries_iff (h : List.Forall₂ (IsLoadedFrom kind value) members es)
    {entry : kind.Key × ν} :
    entry ∈ Entries.ofList es
      ↔ ∃ before member after, members = before ++ member :: after
          ∧ IsLoadedFrom kind value member entry
          ∧ ∀ s ∈ keyTexts after, ¬ kind.Spells s entry.1 := by
  rw [Entries.mem_ofList_iff]
  constructor
  · rintro ⟨before, after, rfl, hafter⟩
    obtain ⟨front, member, behind, hmembers, hmember, hbehind⟩ := exists_split_of_forall₂ h
    exact ⟨front, member, behind, hmembers, hmember, (spells_keyTexts_iff hbehind _).mpr hafter⟩
  · rintro ⟨before, member, after, rfl, hmember, hafter⟩
    obtain ⟨front, e, behind, hes, he, hbehind⟩ :=
      exists_split_of_forall₂ (R := flip (IsLoadedFrom kind value)) h.flip
    rw [he.unique hmember] at hes
    exact ⟨front, behind, hes, (spells_keyTexts_iff hbehind.flip _).mp hafter⟩

/-- There is something for each item of a list exactly if there is a list of such things. -/
theorem exists_forall₂_iff {α β : Type} {R : α → β → Prop} :
    ∀ {xs : List α}, (∃ ys, List.Forall₂ R xs ys) ↔ ∀ x ∈ xs, ∃ y, R x y
  | [] => ⟨fun _ _ hx => absurd hx List.not_mem_nil, fun _ => ⟨[], .nil⟩⟩
  | x :: xs => by
    rw [List.forall_mem_cons, ← exists_forall₂_iff]
    constructor
    · rintro ⟨_, _ | ⟨hy, hys⟩⟩
      exact ⟨⟨_, hy⟩, _, hys⟩
    · rintro ⟨⟨y, hy⟩, ys, hys⟩
      exact ⟨y :: ys, .cons hy hys⟩

/-- **A map is loaded** exactly if the key of each member spells a location and its value can be
loaded. -/
theorem exists_map_iff :
    (∃ m, map (locationKey kind.parse) value (.object members) = .ok m)
      ↔ ∀ member ∈ members, ∃ entry, IsLoadedFrom kind value member entry := by
  rw [← exists_forall₂_iff]
  constructor
  · rintro ⟨m, hm⟩
    obtain ⟨es, hes, -⟩ := map_eq_ok hm
    exact ⟨es, pairs_eq_ok.mp hes⟩
  · rintro ⟨es, hes⟩
    refine ⟨.ofList es, ?_⟩
    rw [map, pairs_eq_ok.mpr hes]
    rfl

/-- **Members of an object are one entry of a map if their keys spell one location**, and only
then. The maps whose keys are locations are loaded exactly if each key spells a location and each
value can be loaded. They, and the lists of pairs that are made in the same way, have one entry for
each location that a key spells, and it is loaded from the last member whose key spells it. So there
are as many entries as members exactly if no two keys spell one location, and then each member is an
entry, in the order of the object. This is so if the texts of the keys are different and
canonical. -/
theorem map_locationKey :
    ((∃ m, map (locationKey kind.parse) value (.object members) = .ok m)
        ↔ ∀ member ∈ members, ∃ entry, IsLoadedFrom kind value member entry)
      ∧ ∀ m, map (locationKey kind.parse) value (.object members) = .ok m →
        (pairs (locationKey kind.parse) value (.object members)).map Entries.ofList = .ok m.entries
        ∧ (keyTexts members).length = members.length
        ∧ (∀ entry, entry ∈ m.entries
            ↔ ∃ before member after, members = before ++ member :: after
              ∧ IsLoadedFrom kind value member entry
              ∧ ∀ s ∈ keyTexts after, ¬ kind.Spells s entry.1)
        ∧ (m.size = members.length
            ↔ (keyTexts members).Pairwise (fun s s' => ¬ kind.SpelledAlike s s'))
        ∧ (m.size = members.length → List.Forall₂ (IsLoadedFrom kind value) members m.entries)
        ∧ ((keyTexts members).Nodup → (∀ s ∈ keyTexts members, kind.IsCanonical s) →
            m.size = members.length) := by
  refine ⟨exists_map_iff, fun m hm => ?_⟩
  obtain ⟨es, hes, rfl⟩ := map_eq_ok hm
  have hloaded := pairs_eq_ok.mp hes
  have hlength : members.length = es.length := hloaded.length_eq
  have hsize : (OrderedMap.ofList es).size = members.length
      ↔ (keyTexts members).Pairwise (fun s s' => ¬ kind.SpelledAlike s s') := by
    rw [OrderedMap.size, OrderedMap.ofList_entries, hlength, Entries.length_ofList_eq_iff,
      pairwise_keyTexts_iff hloaded]
  refine ⟨?_, ?_, fun entry => ?_, hsize, fun hall => ?_, fun hnodup hcanonical => ?_⟩
  · rw [hes, OrderedMap.ofList_entries]
    rfl
  · have hmap := congrArg List.length (map_parse_keyTexts hloaded)
    rwa [List.length_map, List.length_map, ← hlength] at hmap
  · rw [OrderedMap.ofList_entries]
    exact mem_entries_iff hloaded
  · have hkeys := (pairwise_keyTexts_iff hloaded).mp (hsize.mp hall)
    rwa [OrderedMap.entries_ofList hkeys]
  · refine hsize.mpr (hnodup.imp_of_mem fun {s s'} hs hs' hne halike => hne ?_)
    exact (hcanonical s hs).eq_of_spelledAlike (hcanonical s' hs') halike

/-- Some of the maps of a scene that have locations as their keys. -/
example :
    loadExpressionTypes = map (locationKey Kind.relative.parse) TypeElement.load
      ∧ loadBounds = map (locationKey Kind.bound.parse) TypeElement.load
      ∧ AstInsertions.loadCasts = map (locationKey Kind.astPath.parse) CastElement.load :=
  ⟨rfl, rfl, rfl⟩

/-- A type with one annotation, as it is spelled. -/
def annotatedSource (definition : String) : Source :=
  .object [("annotations".toList,
    .array [.object [("def".toList, .string definition.toList)]])]

/-- Two types with an annotation each, under the given keys. -/
def twoMembers (first second : String) : List (List Char × Source) :=
  [(first.toList, annotatedSource "A"), (second.toList, annotatedSource "B")]

/-- Two canonical texts that are different are the keys of two entries. -/
theorem map_locationKey_places :
    ∃ m, map (locationKey Kind.relative.parse) TypeElement.load
        (.object (twoMembers "#7" "*0,1")) = .ok m
      ∧ (keyTexts (twoMembers "#7" "*0,1")).Nodup
      ∧ (∀ s ∈ keyTexts (twoMembers "#7" "*0,1"), Kind.relative.IsCanonical s)
      ∧ m.size = (twoMembers "#7" "*0,1").length := by
  have hload : map (locationKey Kind.relative.parse) TypeElement.load
      (.object (twoMembers "#7" "*0,1"))
      = .ok (.ofList [((⟨.offset 7, 0⟩ : RelativeLocation), ⟨[.ofName "A"], []⟩),
        (⟨.index 0, 1⟩, ⟨[.ofName "B"], []⟩)]) := rfl
  have htexts : keyTexts (twoMembers "#7" "*0,1") = ["#7", "*0,1"] := rfl
  have hnodup : (keyTexts (twoMembers "#7" "*0,1")).Nodup := by
    rw [htexts]
    decide
  have hcanonical : ∀ s ∈ keyTexts (twoMembers "#7" "*0,1"), Kind.relative.IsCanonical s := by
    rw [htexts]
    refine List.forall_mem_cons.mpr ⟨?_, List.forall_mem_singleton.mpr ?_⟩
    · exact Kind.relative.isCanonical_text ⟨.offset 7, 0⟩ trivial
    · exact Kind.relative.isCanonical_text ⟨.index 0, 1⟩ trivial
  exact ⟨_, hload, hnodup, hcanonical,
    (map_locationKey.2 _ hload).2.2.2.2.2 hnodup hcanonical⟩

/-- **Two texts of one location are one entry**: the annotation under the first is lost. -/
theorem zeros_merged :
    keyTexts (twoMembers "#7" "#07") = ["#7", "#07"]
      ∧ (keyTexts (twoMembers "#7" "#07")).Nodup
      ∧ ∃ m, loadExpressionTypes (.object (twoMembers "#7" "#07")) = .ok m
        ∧ m.entries = [(⟨.offset 7, 0⟩, ⟨[.ofName "B"], []⟩)]
        ∧ m.size ≠ (keyTexts (twoMembers "#7" "#07")).length := by
  have htexts : keyTexts (twoMembers "#7" "#07") = ["#7", "#07"] := rfl
  have hnodup : (keyTexts (twoMembers "#7" "#07")).Nodup := by
    rw [htexts]
    decide
  exact ⟨htexts, hnodup, _, rfl, rfl, by decide⟩

end Load

end AnnotationPlan
