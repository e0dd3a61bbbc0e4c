/-!
# Maps in order of first arrival

A scene is read in the order in which it was written, and everything that is
reported about it comes out in that order too. So every table of the library –
the members of a class, the fields of a definition, the criteria of an
insertion – is a list of pairs with pairwise different keys, in the order in
which the keys **first** arrived.

Writing to a key that is already there replaces its value and leaves it where
it is; writing to a new key puts it at the end. Both are one operation,
`Entries.alter`, and the facts that pin it down are

* `Entries.keys_alter`: the keys are the old ones, followed by the new key if
  there was none such;
* `Entries.find?_alter_self` and `Entries.find?_alter_of_ne`: only the value of
  the key written to changes.

`Entries` holds the operations on bare lists of pairs, for the recursive types
whose members are themselves such lists; `OrderedMap` is the list together with
the fact that its keys differ.
-/

namespace AnnotationPlan

namespace Entries

variable {κ ν : Type} [DecidableEq κ]

/-- The value stored under a key. -/
def find? (k : κ) : List (κ × ν) → Option ν
  | [] => none
  | (k', v) :: rest => if k' = k then some v else find? k rest

/-- **Write to a key**: the new value is computed from the old one. A key that
is there keeps its place, and a new one goes to the end. -/
def alter (k : κ) (f : Option ν → ν) : List (κ × ν) → List (κ × ν)
  | [] => [(k, f none)]
  | (k', v) :: rest => if k' = k then (k', f (some v)) :: rest else (k', v) :: alter k f rest

/-- Store a value under a key, whatever was there before. -/
def insert (k : κ) (v : ν) (es : List (κ × ν)) : List (κ × ν) :=
  alter k (fun _ => v) es

/-- The pairs of a list, written one after another: a repeated key keeps its
first place and takes its last value. -/
def ofList (es : List (κ × ν)) : List (κ × ν) :=
  es.foldl (fun acc e => insert e.1 e.2 acc) []

/-- **The keys after a write** are the old ones, and the new key behind them if
it was not among them. -/
theorem keys_alter (k : κ) (f : Option ν → ν) (es : List (κ × ν)) :
    (alter k f es).map Prod.fst
      = if k ∈ es.map Prod.fst then es.map Prod.fst else es.map Prod.fst ++ [k] := by
  induction es with
  | nil => simp [alter]
  | cons e rest ih =>
    obtain ⟨k', v⟩ := e
    by_cases h : k' = k
    · simp [alter, h]
    · have h' : ¬ k = k' := fun e => h e.symm
      by_cases hm : k ∈ rest.map Prod.fst <;> simp_all [alter]

/-- A write keeps the keys different. -/
theorem nodup_keys_alter (k : κ) (f : Option ν → ν) {es : List (κ × ν)}
    (h : (es.map Prod.fst).Nodup) : ((alter k f es).map Prod.fst).Nodup := by
  rw [keys_alter]
  split
  · exact h
  · rename_i hk
    rw [List.nodup_append]
    refine ⟨h, by simp, ?_⟩
    intro a ha b hb
    rw [List.mem_singleton] at hb
    subst hb
    intro e
    exact hk (e ▸ ha)

/-- A write is seen at its own key. -/
@[simp] theorem find?_alter_self (k : κ) (f : Option ν → ν) (es : List (κ × ν)) :
    find? k (alter k f es) = some (f (find? k es)) := by
  induction es with
  | nil => simp [alter, find?]
  | cons e rest ih =>
    obtain ⟨k', v⟩ := e
    by_cases h : k' = k <;> simp [alter, find?, h, ih]

/-- A write is not seen at any other key. -/
theorem find?_alter_of_ne {k j : κ} (hne : j ≠ k) (f : Option ν → ν) (es : List (κ × ν)) :
    find? j (alter k f es) = find? j es := by
  induction es with
  | nil => simp [alter, find?, Ne.symm hne]
  | cons e rest ih =>
    obtain ⟨k', v⟩ := e
    by_cases h : k' = k
    · subst h
      simp [alter, find?, Ne.symm hne]
    · simp only [alter, if_neg h, find?, ih]

/-- A key has a value exactly when it is among the keys. -/
theorem isSome_find?_iff (k : κ) (es : List (κ × ν)) :
    (find? k es).isSome ↔ k ∈ es.map Prod.fst := by
  induction es with
  | nil => simp [find?]
  | cons e rest ih =>
    obtain ⟨k', v⟩ := e
    by_cases h : k' = k
    · simp [find?, h]
    · have h' : ¬ k = k' := fun e => h e.symm
      simp [find?, h, h', ih]

/-- A value that is found under a key is stored under it. -/
theorem mem_of_find? {k : κ} {v : ν} :
    ∀ {es : List (κ × ν)}, find? k es = some v → (k, v) ∈ es
  | (k', v') :: rest, h => by
    rw [find?] at h
    split at h
    case isTrue heq =>
      obtain rfl := Option.some.inj h
      exact heq ▸ List.mem_cons_self
    case isFalse => exact List.mem_cons_of_mem _ (mem_of_find? h)

/-- A key without repeats finds what is stored under it. -/
theorem find?_of_mem :
    ∀ {es : List (κ × ν)}, (es.map Prod.fst).Nodup → ∀ {e : κ × ν}, e ∈ es →
      find? e.1 es = some e.2
  | (k, v) :: rest, hnodup, e, he => by
    obtain ⟨hk, hrest⟩ := List.nodup_cons.mp hnodup
    rw [find?]
    rcases List.mem_cons.mp he with rfl | he
    · exact if_pos rfl
    · have hne : k ≠ e.1 := fun heq => hk (List.mem_map.mpr ⟨e, he, heq.symm⟩)
      rw [if_neg hne]
      exact find?_of_mem hrest he

/-- A new key is written behind all others. -/
theorem alter_of_notMem {k : κ} (f : Option ν → ν) {es : List (κ × ν)}
    (h : k ∉ es.map Prod.fst) : alter k f es = es ++ [(k, f none)] := by
  induction es with
  | nil => rfl
  | cons e rest ih =>
    obtain ⟨hne, hrest⟩ := not_or.mp (mt List.mem_cons.mpr h)
    rw [alter, if_neg (Ne.symm hne), ih hrest, List.cons_append]

/-- A write passes over pairs that do not have the key. -/
theorem alter_append {k : κ} (f : Option ν → ν) {es : List (κ × ν)} (h : k ∉ es.map Prod.fst)
    (more : List (κ × ν)) : alter k f (es ++ more) = es ++ alter k f more := by
  induction es with
  | nil => rfl
  | cons e rest ih =>
    obtain ⟨hne, hrest⟩ := not_or.mp (mt List.mem_cons.mpr h)
    rw [List.cons_append, alter, if_neg (Ne.symm hne), ih hrest, List.cons_append]

/-- A search passes over pairs that do not have the key. -/
theorem find?_append {k : κ} {es : List (κ × ν)} (h : k ∉ es.map Prod.fst)
    (more : List (κ × ν)) : find? k (es ++ more) = find? k more := by
  induction es with
  | nil => rfl
  | cons e rest ih =>
    obtain ⟨hne, hrest⟩ := not_or.mp (mt List.mem_cons.mpr h)
    rw [List.cons_append, find?, if_neg (Ne.symm hne), ih hrest]

section Rename

variable {g : κ → κ} (hg : ∀ {j k : κ}, g j = g k → j = k)
include hg

/-- Writing goes with a renaming of the keys. -/
theorem alter_map (k : κ) (f : Option ν → ν) (es : List (κ × ν)) :
    alter (g k) f (es.map (Prod.map g id)) = (alter k f es).map (Prod.map g id) := by
  induction es with
  | nil => rfl
  | cons e rest ih =>
    obtain ⟨k', v⟩ := e
    show alter (g k) f ((g k', v) :: rest.map (Prod.map g id)) = _
    by_cases h : k' = k
    · rw [alter, alter, if_pos (congrArg g h), if_pos h]
      rfl
    · rw [alter, alter, if_neg (fun he => h (hg he)), if_neg h, ih]
      rfl

/-- Searching goes with a renaming of the keys. -/
theorem find?_map (k : κ) (es : List (κ × ν)) :
    find? (g k) (es.map (Prod.map g id)) = find? k es := by
  induction es with
  | nil => rfl
  | cons e rest ih =>
    obtain ⟨k', v⟩ := e
    show find? (g k) ((g k', v) :: rest.map (Prod.map g id)) = _
    by_cases h : k' = k
    · rw [find?, find?, if_pos (congrArg g h), if_pos h]
    · rw [find?, find?, if_neg (fun he => h (hg he)), if_neg h, ih]

end Rename

end Entries

/-- **A map in order of first arrival.** -/
@[ext] structure OrderedMap (κ ν : Type) where
  /-- The pairs, in the order in which their keys first arrived. -/
  entries : List (κ × ν)
  /-- No key occurs twice. -/
  distinct : (entries.map Prod.fst).Nodup

namespace OrderedMap

variable {κ ν : Type}

/-- The map without entries. -/
def empty : OrderedMap κ ν := ⟨[], by simp⟩

instance : Inhabited (OrderedMap κ ν) := ⟨empty⟩

instance [DecidableEq κ] [DecidableEq ν] : DecidableEq (OrderedMap κ ν) := fun m n =>
  decidable_of_iff (m.entries = n.entries) OrderedMap.ext_iff.symm

/-- The keys, in order of first arrival. -/
def keys (m : OrderedMap κ ν) : List κ := m.entries.map Prod.fst

/-- The values, in the order of their keys. -/
def values (m : OrderedMap κ ν) : List ν := m.entries.map Prod.snd

/-- The number of entries. -/
def size (m : OrderedMap κ ν) : Nat := m.entries.length

/-- Whether there is no entry. -/
def isEmpty (m : OrderedMap κ ν) : Bool := m.entries.isEmpty

variable [DecidableEq κ]

/-- The value stored under a key. -/
def find? (m : OrderedMap κ ν) (k : κ) : Option ν := Entries.find? k m.entries

/-- Whether a key has a value. -/
def contains (m : OrderedMap κ ν) (k : κ) : Bool := (m.find? k).isSome

/-- Write to a key: the new value is computed from the old one. -/
def alter (m : OrderedMap κ ν) (k : κ) (f : Option ν → ν) : OrderedMap κ ν :=
  ⟨Entries.alter k f m.entries, Entries.nodup_keys_alter k f m.distinct⟩

/-- Store a value under a key, whatever was there before. -/
def insert (m : OrderedMap κ ν) (k : κ) (v : ν) : OrderedMap κ ν :=
  m.alter k (fun _ => v)

/-- The pairs of a list, written one after another. -/
def ofList (es : List (κ × ν)) : OrderedMap κ ν :=
  es.foldl (fun m e => m.insert e.1 e.2) empty

/-- The keys after a write. -/
theorem keys_alter (m : OrderedMap κ ν) (k : κ) (f : Option ν → ν) :
    (m.alter k f).keys = if k ∈ m.keys then m.keys else m.keys ++ [k] :=
  Entries.keys_alter k f m.entries

/-- A write is seen at its own key. -/
@[simp] theorem find?_alter_self (m : OrderedMap κ ν) (k : κ) (f : Option ν → ν) :
    (m.alter k f).find? k = some (f (m.find? k)) :=
  Entries.find?_alter_self k f m.entries

/-- A write is not seen at any other key. -/
theorem find?_alter_of_ne (m : OrderedMap κ ν) {k j : κ} (hne : j ≠ k) (f : Option ν → ν) :
    (m.alter k f).find? j = m.find? j :=
  Entries.find?_alter_of_ne hne f m.entries

/-- A stored value is found again. -/
@[simp] theorem find?_insert_self (m : OrderedMap κ ν) (k : κ) (v : ν) :
    (m.insert k v).find? k = some v :=
  find?_alter_self m k _

/-- Storing a value leaves the other keys alone. -/
theorem find?_insert_of_ne (m : OrderedMap κ ν) {k j : κ} (hne : j ≠ k) (v : ν) :
    (m.insert k v).find? j = m.find? j :=
  find?_alter_of_ne m hne _

/-- **Pairs with different keys** are written as they are. -/
theorem entries_ofList {es : List (κ × ν)} (h : (es.map Prod.fst).Nodup) :
    (ofList es).entries = es := by
  suffices hmore : ∀ (more : List (κ × ν)) (m : OrderedMap κ ν),
      ((m.entries ++ more).map Prod.fst).Nodup →
      (more.foldl (fun m e => m.insert e.1 e.2) m).entries = m.entries ++ more from
    hmore es empty h
  intro more
  induction more with
  | nil => exact fun m _ => (List.append_nil _).symm
  | cons e rest ih =>
    intro m hm
    rw [List.map_append, List.map_cons] at hm
    have hnew : e.1 ∉ m.entries.map Prod.fst := fun he =>
      (List.nodup_append.mp hm).2.2 _ he _ List.mem_cons_self rfl
    have hinsert : (m.insert e.1 e.2).entries = m.entries ++ [e] :=
      Entries.alter_of_notMem _ hnew
    have hsplit : (m.insert e.1 e.2).entries ++ rest = m.entries ++ e :: rest := by
      rw [hinsert, List.append_assoc, List.singleton_append]
    rw [List.foldl_cons, ih _ (by rwa [hsplit, List.map_append, List.map_cons]), hsplit]

end OrderedMap

end AnnotationPlan
