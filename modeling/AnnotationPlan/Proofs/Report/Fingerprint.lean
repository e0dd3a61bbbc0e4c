import AnnotationPlan.Proofs.Json.Reading
import AnnotationPlan.Report.Record

/-!
# The fingerprint covers everything

The fingerprint of a list of records is the digest of a text, so two lists can only have
the same fingerprint by a collision of the digest if their texts differ. They do: a value can be
told from its compact text, whatever stands in it (`Json.compact_injective`), and a record
can be told from its value.

A record leaves out what is empty, so its members have to be sorted out by their names
(`Record.members_split`): what a record calls its sources stands before everything else
that may be missing, then its inner insertions, then its constructor.
-/

namespace AnnotationPlan

/-- **An array of texts can be told from its value.** -/
theorem Json.strings_injective {ss ts : List String} (h : Json.strings ss = Json.strings ts) :
    ss = ts :=
  (List.map_inj_right (fun _ _ => Json.string.inj)).mp (Json.array.inj h)

namespace Record

/-! ## Members that may be missing -/

/-- A member for a list, if the list is not empty. -/
def listMember {α : Type} (name : String) (value : List α → Json) (xs : List α) :
    List (String × Json) :=
  if xs.isEmpty then [] else [(name, value xs)]

theorem eq_of_mem_listMember {α : Type} {name : String} {value : List α → Json} {xs : List α}
    {m : String × Json} (h : m ∈ listMember name value xs) : m.1 = name := by
  unfold listMember at h
  split at h
  · cases h
  · rw [List.mem_singleton.mp h]

/-- A list can be told from its member. -/
theorem eq_of_listMember_eq {α : Type} {name : String} {value : List α → Json} {xs ys : List α}
    (h : listMember name value xs = listMember name value ys)
    (hvalue : value xs = value ys → xs = ys) : xs = ys := by
  cases xs <;> cases ys
  case nil.nil => rfl
  case nil.cons => cases h
  case cons.nil => cases h
  case cons.cons => exact hvalue (congrArg Prod.snd (List.cons.inj h).1)

/-- **The members of one name that stand before all others** can be told from them. -/
theorem members_split {name : String} {xs ys xs' ys' : List (String × Json)}
    (hxs : ∀ m ∈ xs, m.1 = name) (hys : ∀ m ∈ ys, m.1 ≠ name) (hxs' : ∀ m ∈ xs', m.1 = name)
    (hys' : ∀ m ∈ ys', m.1 ≠ name) (h : xs ++ ys = xs' ++ ys') : xs = xs' ∧ ys = ys' := by
  have hfilter : ∀ xs ys : List (String × Json), (∀ m ∈ xs, m.1 = name) → (∀ m ∈ ys, m.1 ≠ name) →
      (xs ++ ys).filter (fun m => m.1 == name) = xs := by
    intro xs ys hxs hys
    rw [List.filter_append, List.filter_eq_self.mpr (fun m hm => beq_iff_eq.mpr (hxs m hm)),
      List.filter_eq_nil_iff.mpr (fun m hm => by simpa using hys m hm), List.append_nil]
  have heq : xs = xs' := by
    rw [← hfilter xs ys hxs hys, ← hfilter xs' ys' hxs' hys', h]
  subst heq
  exact ⟨rfl, List.append_cancel_left h⟩

/-! ## Records -/

theorem eq_of_mem_constructorMember {c : Option ConstructorRecord} {m : String × Json}
    (h : m ∈ constructorMember c) : m.1 = "constructor" := by
  cases c with
  | none => cases h
  | some c => rw [List.mem_singleton.mp h]

/-- The member for a list of records. -/
def recordsMember (rs : List Record) : List (String × Json) :=
  listMember "inner" (fun rs => .array (jsons rs)) rs

/-- The member for the sources. -/
def sourcesMember (ss : List String) : List (String × Json) :=
  listMember "sources" Json.strings ss

/-- **The three members that may be missing** can be told apart. -/
theorem optionalMembers_split {ss ss' : List String} {rs rs' : List Record}
    {c c' : Option ConstructorRecord}
    (h : sourcesMember ss ++ (recordsMember rs ++ constructorMember c)
      = sourcesMember ss' ++ (recordsMember rs' ++ constructorMember c')) :
    sourcesMember ss = sourcesMember ss' ∧ recordsMember rs = recordsMember rs'
      ∧ constructorMember c = constructorMember c' := by
  have hsources : ∀ (ss : List String), ∀ m ∈ sourcesMember ss, m.1 = "sources" :=
    fun _ _ hm => eq_of_mem_listMember hm
  have hinner : ∀ (rs : List Record), ∀ m ∈ recordsMember rs, m.1 = "inner" :=
    fun _ _ hm => eq_of_mem_listMember hm
  have hbehind : ∀ (rs : List Record) (c : Option ConstructorRecord),
      ∀ m ∈ recordsMember rs ++ constructorMember c, m.1 ≠ "sources" := by
    intro rs c m hm
    obtain hm | hm := List.mem_append.mp hm
    · rw [hinner rs m hm]
      decide
    · rw [eq_of_mem_constructorMember hm]
      decide
  have hlast : ∀ (c : Option ConstructorRecord), ∀ m ∈ constructorMember c, m.1 ≠ "inner" := by
    intro c m hm
    rw [eq_of_mem_constructorMember hm]
    decide
  obtain ⟨hss, hrest⟩ :=
    members_split (hsources ss) (hbehind rs c) (hsources ss') (hbehind rs' c') h
  exact ⟨hss, members_split (hinner rs) (hlast c) (hinner rs') (hlast c') hrest⟩

/-- The members of a record: five that are always there, and three that may be missing. -/
theorem json_eq (r : Record) :
    r.json = .object (("id", .number r.id) :: ("kind", .string r.kind) :: ("text", .string r.text)
      :: ("criteria", Json.strings r.criteria) :: ("separate_line", .bool r.separateLine)
      :: (sourcesMember r.sources
        ++ (recordsMember r.inner ++ constructorMember r.constructor))) := by
  obtain ⟨id, kind, text, criteria, separateLine, sources, inner, constructor⟩ := r
  rw [json, List.append_assoc, List.append_assoc]
  rfl

mutual

/-- **A record can be told from its value.** -/
theorem json_injective : ∀ {r r' : Record}, r.json = r'.json → r = r'
  | ⟨id, kind, text, criteria, separateLine, sources, inner, constructor⟩,
    ⟨id', kind', text', criteria', separateLine', sources', inner', constructor'⟩, h => by
    rw [json_eq, json_eq] at h
    simp only [Json.object.injEq, List.cons.injEq, Prod.mk.injEq, true_and, Json.number.injEq,
      Json.string.injEq, Json.bool.injEq] at h
    obtain ⟨rfl, rfl, rfl, hcriteria, rfl, hrest⟩ := h
    obtain ⟨hsources, hinner, hconstructor⟩ := optionalMembers_split hrest
    rw [Json.strings_injective hcriteria, eq_of_listMember_eq hsources Json.strings_injective,
      eq_of_listMember_eq hinner (fun heq => jsons_injective (Json.array.inj heq)),
      constructorMember_injective hconstructor]
termination_by structural r => r

theorem jsons_injective : ∀ {rs rs' : List Record}, jsons rs = jsons rs' → rs = rs'
  | [], [], _ => rfl
  | [], _ :: _, h => by cases h
  | _ :: _, [], h => by cases h
  | r :: rs, r' :: rs', h => by
    obtain ⟨hr, hrest⟩ := List.cons.inj h
    rw [json_injective hr, jsons_injective hrest]
termination_by structural rs => rs

theorem constructorMember_injective : ∀ {c c' : Option ConstructorRecord},
    constructorMember c = constructorMember c' → c = c'
  | none, none, _ => rfl
  | none, some _, h => by cases h
  | some _, none, h => by cases h
  | some c, some c', h => by
    rw [constructorJson_injective (congrArg Prod.snd (List.cons.inj h).1)]
termination_by structural c => c

theorem constructorJson_injective : ∀ {c c' : ConstructorRecord},
    constructorJson c = constructorJson c' → c = c'
  | ⟨receiver, declarations⟩, ⟨receiver', declarations'⟩, h => by
    simp only [constructorJson, Json.object.injEq, List.cons.injEq, Prod.mk.injEq, true_and,
      and_true, Json.array.injEq] at h
    rw [receiverJson_injective h.1, jsons_injective h.2]
termination_by structural c => c

/-- A receiver that is missing is written as null, and one that is there as an object. -/
theorem receiverJson_injective : ∀ {r r' : Option Record}, receiverJson r = receiverJson r' → r = r'
  | none, none, _ => rfl
  | none, some r', h => by
    rw [receiverJson, receiverJson, json_eq r'] at h
    cases h
  | some r, none, h => by
    rw [receiverJson, receiverJson, json_eq r] at h
    cases h
  | some r, some r', h => by
    have hjson : r.json = r'.json := h
    rw [json_injective hjson]
termination_by structural r => r

end

/-- **The text of a list of records determines the list**, and so do the bytes of the text
that the fingerprint is the digest of. -/
theorem listText_eq_iff (rs rs' : List Record) :
    (listText rs = listText rs' ↔ rs = rs')
      ∧ ((listText rs).toUTF8.data = (listText rs').toUTF8.data ↔ rs = rs') := by
  have htext : listText rs = listText rs' → rs = rs' :=
    fun h => jsons_injective (Json.array.inj (Json.compact_injective h))
  refine ⟨⟨htext, congrArg listText⟩, fun h => htext ?_, fun h => h ▸ rfl⟩
  exact String.toByteArray_inj.mp (ByteArray.ext h)

end Record

end AnnotationPlan
