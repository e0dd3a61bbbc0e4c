import AnnotationPlan.Proofs.Json.Texts

/-!
# What is written is read back

The compact text of a value is read as the tree that spells the value (`Json.source`),
whatever stands behind it (`Source.read_compact`). Three bounds have to be kept. The reader
may take no more steps than it is given, and four for each character are enough; no more
containers may lie within one another than there is room for (`Json.depth`); and what
comes next must not continue a number. In the text of a container a comma or a bracket
comes next, and neither does.

The tree determines the value (`Json.source_injective`), so two values with the same
compact text are the same (`Json.compact_injective`): no text can be taken for
another, whatever its parts contain.
-/

namespace AnnotationPlan

open Location.Scan (Stops)

namespace Json

/-! ## Trees and texts -/

mutual

/-- **The value as its compact text spells it.** -/
def source : Json → Source
  | .null => .null
  | .bool b => .bool b
  | .number n => .number (Source.spelledNumber n)
  | .string s => .string (spell s)
  | .array items => .array (sources items)
  | .object members => .object (memberSources members)

/-- The items of an array as they are spelled. -/
def sources : List Json → List Source
  | [] => []
  | v :: rest => v.source :: sources rest

/-- The members of an object as they are spelled. -/
def memberSources : List (String × Json) → List (List Char × Source)
  | [] => []
  | (k, v) :: rest => (spell k, v.source) :: memberSources rest

end

mutual

/-- **How many containers lie within one another.** -/
def depth : Json → Nat
  | .array items => itemsDepth items + 1
  | .object members => membersDepth members + 1
  | _ => 0

/-- How many containers lie within one another in the items of an array. -/
def itemsDepth : List Json → Nat
  | [] => 0
  | v :: rest => max v.depth (itemsDepth rest)

/-- How many containers lie within one another in the members of an object. -/
def membersDepth : List (String × Json) → Nat
  | [] => 0
  | (_, v) :: rest => max v.depth (membersDepth rest)

end

/-- Parts that follow another one, each after a comma. -/
def following (parts : List String) : List Char := parts.flatMap (fun s => ',' :: s.toList)

theorem following_cons (s : String) (parts : List String) :
    following (s :: parts) = ',' :: (s.toList ++ following parts) := rfl

/-- Parts between commas are the first one and those that follow it. -/
theorem toList_intercalate_cons (s : String) (parts : List String) :
    (String.intercalate "," (s :: parts)).toList = s.toList ++ following parts := by
  induction parts generalizing s with
  | nil =>
    rw [String.intercalate_singleton]
    exact (List.append_nil s.toList).symm
  | cons t parts ih =>
    rw [String.intercalate_cons_cons, String.toList_append, ih t, String.toList_append,
      List.append_assoc]
    rfl

theorem toList_compact_array (items : List Json) :
    (Json.array items).compact.toList
      = '[' :: ((String.intercalate "," (compactItems items)).toList ++ [']']) := by
  rw [compact, String.toList_append, String.toList_append]
  rfl

theorem toList_compact_object (members : List (String × Json)) :
    (Json.object members).compact.toList
      = '\x7b' :: ((String.intercalate "," (compactMembers members)).toList ++ ['\x7d']) := by
  rw [compact, String.toList_append, String.toList_append]
  rfl

/-- The text of a member: the key between quotes, a colon, and the value. -/
theorem toList_member (k : String) (v : Json) :
    (quote k ++ ":" ++ v.compact).toList = '"' :: (spell k ++ '"' :: ':' :: v.compact.toList) := by
  rw [String.toList_append, String.toList_append, toList_quote, List.cons_append,
    List.append_assoc, List.cons_append, List.append_assoc]
  rfl

/-- The text of a value begins with neither a blank nor a closing bracket. -/
theorem compact_begins (v : Json) :
    ∃ c cs, v.compact.toList = c :: cs ∧ Source.isGap c = false ∧ c ≠ ']' := by
  cases v with
  | null => exact ⟨_, _, rfl, by decide, by decide⟩
  | bool b => cases b <;> exact ⟨_, _, rfl, by decide, by decide⟩
  | number n =>
    show ∃ c cs, n.repr.toList = c :: cs ∧ _
    cases hn : n.repr.toList with
    | nil => exact absurd hn (Location.Scan.repr_ne_nil n)
    | cons c cs =>
      have hc := Location.Scan.isDigit_of_mem_repr (n := n) c (hn ▸ List.mem_cons_self)
      refine ⟨c, cs, rfl, ?_, ?_⟩
      · simp only [Source.isGap, Bool.or_eq_false_iff, beq_eq_false_iff_ne]
        refine ⟨⟨⟨?_, ?_⟩, ?_⟩, ?_⟩ <;> (rintro rfl; cases hc)
      · rintro rfl
        cases hc
  | string s => exact ⟨'"', _, toList_quote s, by decide, by decide⟩
  | array items => exact ⟨'[', _, toList_compact_array items, by decide, by decide⟩
  | object members => exact ⟨'\x7b', _, toList_compact_object members, by decide, by decide⟩

end Json

namespace Source

/-! ## One step -/

variable {steps room : Nat} {cs rest rest' : List Char}

theorem dropWhile_isGap {c : Char} (h : isGap c = false) (cs : List Char) :
    (c :: cs).dropWhile isGap = c :: cs :=
  List.dropWhile_cons_of_neg (by rw [h]; exact Bool.false_ne_true)

/-- What begins with a digit is read as a number. -/
theorem read_digit {c : Char} (h : c.isDigit = true) (cs : List Char) :
    read (steps + 1) room (c :: cs) = scalar .number (readNumber? (c :: cs)) := by
  have hgap : isGap c = false := by
    simp only [isGap, Bool.or_eq_false_iff, beq_eq_false_iff_ne]
    refine ⟨⟨⟨?_, ?_⟩, ?_⟩, ?_⟩ <;> (rintro rfl; cases h)
  rw [read, dropWhile_isGap hgap]
  split <;> first | rfl | (rename_i heq; obtain rfl := (List.cons.inj heq).1; cases h)

theorem read_null :
    read (steps + 1) room ('n' :: 'u' :: 'l' :: 'l' :: rest) = (.null, some rest) := by
  rw [read, dropWhile_isGap (by decide)]
  rfl

theorem read_true :
    read (steps + 1) room ('t' :: 'r' :: 'u' :: 'e' :: rest) = (.bool true, some rest) := by
  rw [read, dropWhile_isGap (by decide)]
  rfl

theorem read_false :
    read (steps + 1) room ('f' :: 'a' :: 'l' :: 's' :: 'e' :: rest) = (.bool false, some rest) := by
  rw [read, dropWhile_isGap (by decide)]
  rfl

theorem read_quote (cs : List Char) :
    read (steps + 1) room ('"' :: cs) = scalar .string (readText? cs) := by
  rw [read, dropWhile_isGap (by decide)]
  rfl

/-- An array for which there is room. -/
theorem read_array {items : List Source}
    (h : readItems steps room cs = (items, some rest)) :
    read (steps + 1) (room + 1) ('[' :: cs) = (.array items, some rest) := by
  rw [read, dropWhile_isGap (by decide)]
  show (container (room + 1) (.array (readItems steps room cs).1), (readItems steps room cs).2) = _
  rw [h]
  rfl

/-- An object for which there is room. -/
theorem read_object {members : List (List Char × Source)}
    (h : readMembers steps room cs = (members, some rest)) :
    read (steps + 1) (room + 1) ('\x7b' :: cs) = (.object members, some rest) := by
  rw [read, dropWhile_isGap (by decide)]
  show (container (room + 1) (.object (readMembers steps room cs).1),
    (readMembers steps room cs).2) = _
  rw [h]
  rfl

theorem readItems_nil : readItems (steps + 1) room (']' :: rest) = ([], some rest) := by
  rw [readItems, dropWhile_isGap (by decide)]
  rfl

/-- An array with an item. -/
theorem readItems_begins {c : Char} (hgap : isGap c = false) (hclosing : c ≠ ']')
    (cs : List Char) : readItems (steps + 1) room (c :: cs) = readItem steps room (c :: cs) := by
  rw [readItems, dropWhile_isGap hgap]
  split
  case h_1 heq => exact absurd (List.cons.inj heq).1 hclosing
  case h_2 => rfl

/-- An item and those after it. -/
theorem readItem_cons {v : Source} {items : List Source}
    (hv : read steps room cs = (v, some rest))
    (hrest : readMoreItems steps room rest = (items, some rest')) :
    readItem (steps + 1) room cs = (v :: items, some rest') := by
  rw [readItem, hv]
  dsimp only
  rw [hrest]

theorem readMoreItems_nil : readMoreItems (steps + 1) room (']' :: rest) = ([], some rest) := by
  rw [readMoreItems, dropWhile_isGap (by decide)]
  rfl

theorem readMoreItems_cons :
    readMoreItems (steps + 1) room (',' :: cs) = readItem steps room cs := by
  rw [readMoreItems, dropWhile_isGap (by decide)]
  rfl

theorem readMembers_nil : readMembers (steps + 1) room ('\x7d' :: rest) = ([], some rest) := by
  rw [readMembers, dropWhile_isGap (by decide)]
  rfl

/-- An object with a member. -/
theorem readMembers_begins (cs : List Char) :
    readMembers (steps + 1) room ('"' :: cs) = readMember steps room ('"' :: cs) := by
  rw [readMembers, dropWhile_isGap (by decide)]
  rfl

/-- A member and those after it. -/
theorem readMember_cons {k : String} {v : Source} {members : List (List Char × Source)}
    (hv : read steps room cs = (v, some rest))
    (hrest : readMoreMembers steps room rest = (members, some rest')) :
    readMember (steps + 1) room ('"' :: (Json.spell k ++ '"' :: ':' :: cs))
      = ((Json.spell k, v) :: members, some rest') := by
  rw [readMember, dropWhile_isGap (by decide)]
  split
  case h_2 hno => exact absurd rfl (hno _)
  case h_1 heq =>
    rw [← (List.cons.inj heq).2, readText?_spell]
    dsimp only
    rw [dropWhile_isGap (by decide)]
    split
    case h_2 hno => exact absurd rfl (hno _)
    case h_1 heq =>
      rw [← (List.cons.inj heq).2, hv]
      dsimp only
      rw [hrest]

theorem readMoreMembers_nil :
    readMoreMembers (steps + 1) room ('\x7d' :: rest) = ([], some rest) := by
  rw [readMoreMembers, dropWhile_isGap (by decide)]
  rfl

theorem readMoreMembers_cons :
    readMoreMembers (steps + 1) room (',' :: cs) = readMember steps room cs := by
  rw [readMoreMembers, dropWhile_isGap (by decide)]
  rfl

/-! ## Whole values -/

/-- What follows the parts of a container does not continue a number. -/
theorem stops_following (parts : List String) {c : Char} (h : continues c = false)
    (rest : List Char) : Stops continues (Json.following parts ++ c :: rest) := by
  cases parts with
  | nil => exact .cons h rest
  | cons s parts => exact .cons (by decide) _

/-- **A value is read back** from its compact text, if there are steps and room enough, and if
what comes next does not continue it. -/
def ReadsBack (v : Json) : Prop :=
  ∀ (steps room : Nat) (rest : List Char), 4 * v.compact.toList.length ≤ steps →
    v.depth ≤ room → Stops continues rest →
      read steps room (v.compact.toList ++ rest) = (v.source, some rest)

/-- **Items are read back** that follow another one, to the end of the array. -/
def ItemsReadBack (items : List Json) : Prop :=
  ∀ (steps room : Nat) (rest : List Char),
    4 * ((Json.following (Json.compactItems items)).length + 1) ≤ steps →
      Json.itemsDepth items ≤ room →
        readMoreItems steps room (Json.following (Json.compactItems items) ++ ']' :: rest)
          = (Json.sources items, some rest)

/-- **Members are read back** that follow another one, to the end of the object. -/
def MembersReadBack (members : List (String × Json)) : Prop :=
  ∀ (steps room : Nat) (rest : List Char),
    4 * ((Json.following (Json.compactMembers members)).length + 1) ≤ steps →
      Json.membersDepth members ≤ room →
        readMoreMembers steps room (Json.following (Json.compactMembers members) ++ '\x7d' :: rest)
          = (Json.memberSources members, some rest)

theorem readsBack_null : ReadsBack .null := by
  intro steps room rest hsteps _ _
  obtain ⟨n, rfl⟩ : ∃ n, steps = n + 1 := Nat.exists_eq_add_of_le' (le_trans (by decide) hsteps)
  exact read_null

theorem readsBack_bool (b : Bool) : ReadsBack (.bool b) := by
  intro steps room rest hsteps _ _
  cases b <;>
    obtain ⟨n, rfl⟩ : ∃ n, steps = n + 1 :=
      Nat.exists_eq_add_of_le' (le_trans (by decide) hsteps)
  · exact read_false
  · exact read_true

theorem readsBack_number (m : Nat) : ReadsBack (.number m) := by
  intro steps room rest hsteps _ hstops
  have hsteps : 4 * m.repr.toList.length ≤ steps := hsteps
  show read steps room (m.repr.toList ++ rest) = _
  have hread := readNumber?_repr (n := m) hstops
  cases hm : m.repr.toList with
  | nil => exact absurd hm (Location.Scan.repr_ne_nil m)
  | cons c cs =>
    have hc := Location.Scan.isDigit_of_mem_repr (n := m) c (hm ▸ List.mem_cons_self)
    rw [hm] at hread hsteps
    rw [List.length_cons] at hsteps
    obtain ⟨n, rfl⟩ : ∃ n, steps = n + 1 := Nat.exists_eq_add_of_le' (by omega)
    rw [List.cons_append, read_digit hc, ← List.cons_append, hread]
    rfl

theorem readsBack_string (s : String) : ReadsBack (.string s) := by
  intro steps room rest hsteps _ _
  have htext : (Json.string s).compact.toList = '"' :: (Json.spell s ++ ['"']) :=
    Json.toList_quote s
  rw [htext, List.length_cons] at hsteps
  obtain ⟨n, rfl⟩ : ∃ n, steps = n + 1 := Nat.exists_eq_add_of_le' (by omega)
  rw [htext, List.cons_append, read_quote, List.append_assoc, List.singleton_append,
    readText?_spell]
  rfl

theorem readsBack_array_nil : ReadsBack (.array []) := by
  intro steps room rest hsteps hroom _
  obtain ⟨n, rfl⟩ : ∃ n, steps = n + 2 := Nat.exists_eq_add_of_le' (le_trans (by decide) hsteps)
  obtain ⟨r, rfl⟩ : ∃ r, room = r + 1 := Nat.exists_eq_add_of_le' hroom
  exact read_array readItems_nil

theorem readsBack_object_nil : ReadsBack (.object []) := by
  intro steps room rest hsteps hroom _
  obtain ⟨n, rfl⟩ : ∃ n, steps = n + 2 := Nat.exists_eq_add_of_le' (le_trans (by decide) hsteps)
  obtain ⟨r, rfl⟩ : ∃ r, room = r + 1 := Nat.exists_eq_add_of_le' hroom
  exact read_object readMembers_nil

/-- **An array is read back** if its first item is, and those that follow. -/
theorem ReadsBack.array {v : Json} {items : List Json} (hv : ReadsBack v)
    (hitems : ItemsReadBack items) : ReadsBack (.array (v :: items)) := by
  intro steps room rest hsteps hroom _
  obtain ⟨c, cs, hbegins, hgap, hclosing⟩ := Json.compact_begins v
  have htext : (Json.array (v :: items)).compact.toList
      = '[' :: (v.compact.toList ++ Json.following (Json.compactItems items) ++ [']']) := by
    rw [Json.toList_compact_array, Json.compactItems, Json.toList_intercalate_cons]
  have hdepth : max v.depth (Json.itemsDepth items) + 1 ≤ room := hroom
  rw [htext] at hsteps
  simp only [List.length_cons, List.length_append, List.length_nil] at hsteps
  obtain ⟨n, rfl⟩ : ∃ n, steps = n + 3 := Nat.exists_eq_add_of_le' (by omega)
  obtain ⟨r, rfl⟩ : ∃ r, room = r + 1 := Nat.exists_eq_add_of_le' (by omega)
  have hfirst := hv n r _ (by omega) (by omega)
    (stops_following (Json.compactItems items) (by decide : continues ']' = false) rest)
  have hitem := readItem_cons hfirst (hitems n r rest (by omega) (by omega))
  rw [hbegins, List.cons_append] at hitem
  rw [htext, List.cons_append, List.append_assoc, List.append_assoc, List.singleton_append,
    hbegins, List.cons_append]
  exact read_array ((readItems_begins hgap hclosing _).trans hitem)

/-- **An object is read back** if its first value is, and the members that follow. -/
theorem ReadsBack.object {k : String} {v : Json} {members : List (String × Json)}
    (hv : ReadsBack v) (hmembers : MembersReadBack members) :
    ReadsBack (.object ((k, v) :: members)) := by
  intro steps room rest hsteps hroom _
  have htext : (Json.object ((k, v) :: members)).compact.toList
      = '\x7b' :: ('"' :: (Json.spell k ++ '"' :: ':' :: v.compact.toList)
        ++ Json.following (Json.compactMembers members) ++ ['\x7d']) := by
    rw [Json.toList_compact_object, Json.compactMembers, Json.toList_intercalate_cons,
      Json.toList_member]
  have hdepth : max v.depth (Json.membersDepth members) + 1 ≤ room := hroom
  rw [htext] at hsteps
  simp only [List.length_cons, List.length_append, List.length_nil] at hsteps
  obtain ⟨n, rfl⟩ : ∃ n, steps = n + 3 := Nat.exists_eq_add_of_le' (by omega)
  obtain ⟨r, rfl⟩ : ∃ r, room = r + 1 := Nat.exists_eq_add_of_le' (by omega)
  have hfirst := hv n r _ (by omega) (by omega)
    (stops_following (Json.compactMembers members) (by decide : continues '\x7d' = false) rest)
  have hmember := readMember_cons (k := k) hfirst (hmembers n r rest (by omega) (by omega))
  rw [htext]
  simp only [List.cons_append, List.append_assoc, List.nil_append]
  exact read_object ((readMembers_begins _).trans hmember)

theorem itemsReadBack_nil : ItemsReadBack [] := by
  intro steps room rest hsteps _
  obtain ⟨n, rfl⟩ : ∃ n, steps = n + 1 := Nat.exists_eq_add_of_le' (le_trans (by decide) hsteps)
  exact readMoreItems_nil

theorem membersReadBack_nil : MembersReadBack [] := by
  intro steps room rest hsteps _
  obtain ⟨n, rfl⟩ : ∃ n, steps = n + 1 := Nat.exists_eq_add_of_le' (le_trans (by decide) hsteps)
  exact readMoreMembers_nil

/-- One more item. -/
theorem ItemsReadBack.cons {v : Json} {items : List Json} (hitems : ItemsReadBack items)
    (hv : ReadsBack v) : ItemsReadBack (v :: items) := by
  intro steps room rest hsteps hroom
  have hdepth : max v.depth (Json.itemsDepth items) ≤ room := hroom
  rw [Json.compactItems, Json.following_cons] at hsteps ⊢
  simp only [List.length_cons, List.length_append] at hsteps
  obtain ⟨n, rfl⟩ : ∃ n, steps = n + 2 := Nat.exists_eq_add_of_le' (by omega)
  have hfirst := hv n room _ (by omega) (by omega)
    (stops_following (Json.compactItems items) (by decide : continues ']' = false) rest)
  rw [List.cons_append, List.append_assoc]
  exact readMoreItems_cons.trans (readItem_cons hfirst (hitems n room rest (by omega) (by omega)))

/-- One more member. -/
theorem MembersReadBack.cons {k : String} {v : Json} {members : List (String × Json)}
    (hmembers : MembersReadBack members) (hv : ReadsBack v) :
    MembersReadBack ((k, v) :: members) := by
  intro steps room rest hsteps hroom
  have hdepth : max v.depth (Json.membersDepth members) ≤ room := hroom
  rw [Json.compactMembers, Json.following_cons, Json.toList_member] at hsteps ⊢
  simp only [List.length_cons, List.length_append] at hsteps
  obtain ⟨n, rfl⟩ : ∃ n, steps = n + 2 := Nat.exists_eq_add_of_le' (by omega)
  have hfirst := hv n room _ (by omega) (by omega)
    (stops_following (Json.compactMembers members) (by decide : continues '\x7d' = false) rest)
  have hmember := readMember_cons (k := k) hfirst (hmembers n room rest (by omega) (by omega))
  simp only [List.cons_append, List.append_assoc]
  exact readMoreMembers_cons.trans hmember

mutual

/-- **The compact text of a value is read as the value.** -/
theorem read_compact : ∀ v : Json, ReadsBack v
  | .null => readsBack_null
  | .bool b => readsBack_bool b
  | .number m => readsBack_number m
  | .string s => readsBack_string s
  | .array [] => readsBack_array_nil
  | .array (v :: items) => (read_compact v).array (readMoreItems_compact items)
  | .object [] => readsBack_object_nil
  | .object ((_, v) :: members) => (read_compact v).object (readMoreMembers_compact members)

theorem readMoreItems_compact : ∀ items : List Json, ItemsReadBack items
  | [] => itemsReadBack_nil
  | v :: items => (readMoreItems_compact items).cons (read_compact v)

theorem readMoreMembers_compact : ∀ members : List (String × Json), MembersReadBack members
  | [] => membersReadBack_nil
  | (_, v) :: members => (readMoreMembers_compact members).cons (read_compact v)

end

/-- **A compact text is read as a whole**, if its containers are not too deep. -/
theorem ofText_compact {v : Json} (h : v.depth ≤ depthLimit) :
    ofText v.compact = (v.source, true) := by
  have hread := read_compact v (4 * v.compact.toList.length + 4) depthLimit [] (by omega) h
    (.nil continues)
  rw [List.append_nil] at hread
  rw [ofText, hread]
  rfl

end Source

/-! ## Different values have different texts -/

namespace Json

mutual

/-- **A value can be told from its spelling.** -/
theorem source_injective : ∀ {v w : Json}, v.source = w.source → v = w
  | .null, w, h => by cases w <;> first | rfl | cases h
  | .bool b, w, h => by
    cases w <;> first | cases h
    rfl
  | .number n, w, h => by
    cases w
    case number m =>
      have hrepr : n.repr.toList = m.repr.toList :=
        congrArg Numeral.whole (Source.number.inj h)
      have hvalue := congrArg Location.Scan.digitsValue hrepr
      rw [Location.Scan.digitsValue_repr, Location.Scan.digitsValue_repr] at hvalue
      rw [hvalue]
    all_goals cases h
  | .string s, w, h => by
    cases w
    case string t => exact congrArg Json.string (Source.spell_injective (Source.string.inj h))
    all_goals cases h
  | .array items, w, h => by
    cases w
    case array items' => exact congrArg Json.array (sources_injective (Source.array.inj h))
    all_goals cases h
  | .object members, w, h => by
    cases w
    case object members' =>
      exact congrArg Json.object (memberSources_injective (Source.object.inj h))
    all_goals cases h

theorem sources_injective : ∀ {items items' : List Json}, sources items = sources items' →
    items = items'
  | [], [], _ => rfl
  | [], _ :: _, h => by cases h
  | _ :: _, [], h => by cases h
  | v :: items, w :: items', h => by
    obtain ⟨hv, hrest⟩ := List.cons.inj h
    rw [source_injective hv, sources_injective hrest]

theorem memberSources_injective : ∀ {members members' : List (String × Json)},
    memberSources members = memberSources members' → members = members'
  | [], [], _ => rfl
  | [], _ :: _, h => by cases h
  | _ :: _, [], h => by cases h
  | (k, v) :: members, (l, w) :: members', h => by
    obtain ⟨hmember, hrest⟩ := List.cons.inj h
    obtain ⟨hk, hv⟩ := Prod.mk.inj hmember
    rw [Source.spell_injective hk, source_injective hv, memberSources_injective hrest]

end

/-- **A value can be told from its compact text.** -/
theorem compact_injective {v w : Json} (h : v.compact = w.compact) : v = w := by
  -- reading the one text with room and steps for both yields both trees
  have hv := Source.read_compact v (4 * v.compact.toList.length) (max v.depth w.depth) [] le_rfl
    (le_max_left _ _) (.nil Source.continues)
  have hw := Source.read_compact w (4 * w.compact.toList.length) (max v.depth w.depth) [] le_rfl
    (le_max_right _ _) (.nil Source.continues)
  rw [h, hw] at hv
  exact source_injective (congrArg Prod.fst hv).symm

end Json

end AnnotationPlan
