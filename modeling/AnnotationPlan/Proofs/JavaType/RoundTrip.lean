import AnnotationPlan.JavaType.Json
import AnnotationPlan.Proofs.Json.Reading
import AnnotationPlan.Proofs.Outcome

/-!
# Types survive JSON

A type that is written as JSON and loaded again is the same type, whatever its names and
annotations are. A structure is loaded member by member, and each member that is written
goes into the field of its name (`Load.recordMembers_cons`); a member that is left out
keeps the default of its field, which is what stands there when nothing is written.

Types lie within one another in containers, so a type whose JSON is not deeper than
containers may be is not deeper than the loader follows it (`JavaType.loadWithin_source`).
-/

namespace AnnotationPlan

/-! ## Loading what was written -/

namespace Load

@[simp] theorem text_spell (s : String) : text (.string (Json.spell s)) = .ok s := by
  rw [text, Source.text?_spell]
  rfl

@[simp] theorem textKey_spell (s : String) : textKey (Json.spell s) = .ok s := by
  rw [textKey, Source.text?_spell]
  rfl

/-- A list of texts is loaded back. -/
theorem list_text_source : ∀ ss : List String, list text (Json.strings ss).source = .ok ss := by
  intro ss
  show (Json.sources (ss.map .string)).mapM text = .ok ss
  induction ss with
  | nil => rfl
  | cons s ss ih =>
    rw [List.map_cons]
    show ((.string (Json.spell s)) :: Json.sources (ss.map .string)).mapM text = _
    rw [List.mapM_cons, text_spell, ih]
    rfl

/-- **A written member goes into the field of its name.** -/
theorem recordMembers_cons {σ : Type} {fields : List (Field σ)} {seen : List String} {r r' : σ}
    {k : String} {s : Source} {f : Field σ} (hfind : fields.find? (fun f => f.name == k) = some f)
    (hseen : seen.contains k = false) (hload : f.load r s = .ok r')
    (rest : List (List Char × Source)) :
    recordMembers fields seen r ((Json.spell k, s) :: rest)
      = recordMembers fields (k :: seen) r' rest := by
  rw [recordMembers, textKey_spell]
  dsimp only [bind, Except.bind]
  rw [hfind]
  dsimp only
  rw [hseen, hload]
  rfl

/-- A structure without further members is complete if no required field is missing. -/
theorem recordMembers_nil {σ : Type} {fields : List (Field σ)} {seen : List String}
    (h : fields.all (fun f => !f.required || seen.contains f.name) = true) (r : σ) :
    recordMembers fields seen r [] = .ok r :=
  if_pos h

/-- What a field loads is put into the structure. -/
theorem field_load {σ α : Type} {name : String} {value : Loader α} {set : σ → α → σ} {s : Source}
    {a : α} (h : value s = .ok a) (r : σ) : (field name value set).load r s = .ok (set r a) := by
  show (value s).map (set r) = _
  rw [h]
  rfl

theorem requiredField_load {σ α : Type} {name : String} {value : Loader α} {set : σ → α → σ}
    {s : Source} {a : α} (h : value s = .ok a) (r : σ) :
    (requiredField name value set).load r s = .ok (set r a) := by
  show (field name value set).load r s = _
  exact field_load h r

end Load

/-- The kind of bounds is loaded back. -/
theorem BoundKind.load_name (kind : BoundKind) :
    BoundKind.load (.string (Json.spell kind.name)) = .ok kind := by
  show Load.orMalformed ((Source.text? (Json.spell kind.name)).bind (List.lookup · names)) = _
  rw [Source.text?_spell]
  cases kind <;> rfl

namespace JavaType

/-! ## Nothing written is at fault -/

theorem areUsable_strings (ss : List String) :
    Source.areUsable (Json.sources (ss.map .string)) = true := by
  induction ss with
  | nil => rfl
  | cons s ss ih =>
    rw [List.map_cons]
    show ((Source.unescape? (Json.spell s)).isSome && _) = true
    rw [Source.unescape?_spell]
    exact ih

mutual

/-- **A written type can be used** with all its parts. -/
theorem isUsable_source : ∀ t : JavaType, t.json.source.isUsable = true
  | .declared as name arguments inner => by
    have has := areUsable_strings as
    have harguments := areUsable_sources arguments
    have hinner := areUsable_sourceMember "inner" inner
    simp only [json, Json.strings, Json.source, Json.memberSources, Source.isUsable,
      Source.areUsableMembers, Source.unescape?_spell, has, harguments, hinner, Option.isSome_some,
      Bool.and_self]
  | .array as component => by
    have has := areUsable_strings as
    have hcomponent := isUsable_source component
    simp only [json, Json.strings, Json.source, Json.memberSources, Source.isUsable,
      Source.areUsableMembers, Source.unescape?_spell, has, hcomponent, Option.isSome_some,
      Bool.and_self]
  | .wildcard as kind bound => by
    have has := areUsable_strings as
    have hbound := areUsable_sourceMember "bound" bound
    simp only [json, Json.strings, Json.source, Json.memberSources, Source.isUsable,
      Source.areUsableMembers, Source.unescape?_spell, has, hbound, Option.isSome_some,
      Bool.and_self]

theorem areUsable_sources : ∀ ts : List JavaType, Source.areUsable (Json.sources (jsons ts)) = true
  | [] => rfl
  | t :: ts => by
    show (t.json.source.isUsable && Source.areUsable (Json.sources (jsons ts))) = true
    rw [isUsable_source t, areUsable_sources ts]
    rfl

theorem areUsable_sourceMember (name : String) : ∀ t : Option JavaType,
    Source.areUsableMembers (Json.memberSources (jsonMember name t)) = true
  | none => rfl
  | some t => by
    show ((Source.unescape? (Json.spell name)).isSome && t.json.source.isUsable && true) = true
    rw [isUsable_source t, Source.unescape?_spell]
    rfl

end

/-! ## Loading types -/

@[simp] theorem isFormKey_spell (k : String) (s : Source) :
    isFormKey (Json.spell k, s) = (k == "kind") := by
  rw [isFormKey, Source.text?_spell]
  rfl

/-- No part of a form is called as the form is. -/
theorem filter_isFormKey_memberSources {members : List (String × Json)}
    (h : ∀ m ∈ members, m.1 ≠ "kind") :
    (Json.memberSources members).filter isFormKey = []
      ∧ (Json.memberSources members).filter (!isFormKey ·) = Json.memberSources members := by
  induction members with
  | nil => exact ⟨rfl, rfl⟩
  | cons m members ih =>
    obtain ⟨k, v⟩ := m
    obtain ⟨hk, hrest⟩ := List.forall_mem_cons.mp h
    obtain ⟨hno, hall⟩ := ih hrest
    have hkey : isFormKey (Json.spell k, v.source) = false := by
      rw [isFormKey_spell]
      exact beq_false_of_ne hk
    rw [Json.memberSources, List.filter_cons, List.filter_cons, hkey, hno, hall]
    exact ⟨rfl, rfl⟩

/-- **A written type is split into its form and its parts.** -/
theorem splitForm_source {name : String} {form : Form} (hname : Form.names.lookup name = some form)
    {members : List (String × Json)} (hmembers : ∀ m ∈ members, m.1 ≠ "kind") (inside : Bool) :
    splitForm inside (Json.object (("kind", .string name) :: members)).source
      = .ok (form, (Json.object members).source) := by
  obtain ⟨hno, hall⟩ := filter_isFormKey_memberSources hmembers
  have hkind : isFormKey (Json.spell "kind", (Json.string name).source) = true := by
    rw [isFormKey_spell]
    rfl
  have hform : Form.load inside (Json.string name).source = .ok form := by
    show Load.orMalformed ((Source.text? (Json.spell name)).bind (List.lookup · Form.names)) = _
    rw [Source.text?_spell, Option.bind_some, hname]
    rfl
  rw [Json.source, Json.memberSources, splitForm, List.filter_cons, List.filter_cons, hkind, hno,
    hall]
  show (Form.load inside (Json.string name).source >>= fun form => _) = _
  rw [hform]
  rfl

/-- A written type is loaded as its form and its parts. -/
theorem loadWithin_source_of_form {name : String} (form : Form)
    (hname : Form.names.lookup name = some form) {members : List (String × Json)}
    (hmembers : ∀ m ∈ members, m.1 ≠ "kind") {n : Nat} {inside : Bool} {t : JavaType}
    (hload : Load.recordMembers (fields (loadWithin n true) form) [] form.start
      (Json.memberSources members) = .ok t) :
    loadWithin (n + 1) inside (Json.object (("kind", .string name) :: members)).source = .ok t := by
  show (splitForm inside (Json.object (("kind", .string name) :: members)).source
    >>= fun r => Load.record (fields (loadWithin n true) r.1) r.1.start r.2) = _
  rw [splitForm_source hname hmembers]
  exact hload

/-- A type that was written is no missing type. -/
theorem nullable_source {value : Load.Loader JavaType} {t : JavaType}
    (h : value t.json.source = .ok t) : Load.nullable value t.json.source = .ok (some t) := by
  have hnull : t.json.source ≠ .null := by cases t <;> exact fun heq => by cases heq
  unfold Load.nullable
  split
  case h_1 heq => exact absurd heq hnull
  case h_2 =>
    rw [h]
    rfl

/-- No type within another one is called as a form is. -/
theorem jsonMember_ne_kind {name : String} (hname : name ≠ "kind") (inside : Option JavaType) :
    ∀ m ∈ jsonMember name inside, m.1 ≠ "kind" := by
  cases inside with
  | none => exact fun m hm => by cases hm
  | some t =>
    intro m hm
    obtain rfl := List.mem_singleton.mp hm
    exact hname

/-- **A type that may be missing is the last member**, and loading it completes the type. -/
theorem recordMembers_jsonMember {fields : List (Load.Field JavaType)} {seen : List String}
    {value : Load.Loader JavaType} {name : String} {t : JavaType} {inside : Option JavaType}
    (hfind : fields.find? (fun f => f.name == name)
      = some (Load.field name (Load.nullable value) withInside))
    (hseen : seen.contains name = false)
    (hdone : fields.all (fun f => !f.required || seen.contains f.name) = true)
    (hdone' : fields.all (fun f => !f.required || (name :: seen).contains f.name) = true)
    (hnone : t.withInside none = t) (hload : ∀ u ∈ inside, value u.json.source = .ok u) :
    Load.recordMembers fields seen t (Json.memberSources (jsonMember name inside))
      = .ok (t.withInside inside) := by
  cases inside with
  | none =>
    rw [hnone]
    exact Load.recordMembers_nil hdone t
  | some u =>
    have hfield : (Load.field name (Load.nullable value) withInside).load t u.json.source
        = .ok (t.withInside (some u)) := Load.field_load (nullable_source (hload u rfl)) t
    exact (Load.recordMembers_cons hfind hseen hfield []).trans
      (Load.recordMembers_nil hdone' _)

mutual

/-- **A written type is loaded back**, if it does not lie too deep. -/
theorem loadWithin_source : ∀ (t : JavaType) {n : Nat} (inside : Bool), t.json.depth ≤ n →
    loadWithin n inside t.json.source = .ok t
  | .declared as name arguments inner, n, inside, h => by
    have hdepth : max 0 (max (Json.strings as).depth
      (max 0 (max (Json.itemsDepth (jsons arguments) + 1)
        (Json.membersDepth (jsonMember "inner" inner))))) + 1 ≤ n := h
    obtain ⟨m, rfl⟩ : ∃ m, n = m + 1 := Nat.exists_eq_add_of_le' (by omega)
    have harguments := list_loadWithin_sources arguments (n := m) (by omega)
    have hinner := loadWithin_sourceMember "inner" inner (n := m) (by omega)
    refine loadWithin_source_of_form .declared rfl ?_ ?_
    · simpa using jsonMember_ne_kind (by decide) inner
    · refine (Load.recordMembers_cons rfl rfl
        (Load.field_load (Load.list_text_source as) _) _).trans ?_
      refine (Load.recordMembers_cons rfl rfl
        (Load.requiredField_load (Load.text_spell name) _) _).trans ?_
      refine (Load.recordMembers_cons rfl rfl (Load.field_load harguments _) _).trans ?_
      exact recordMembers_jsonMember rfl rfl rfl rfl rfl hinner
  | .array as component, n, inside, h => by
    have hdepth : max 0 (max (Json.strings as).depth (max component.json.depth 0)) + 1 ≤ n := h
    obtain ⟨m, rfl⟩ : ∃ m, n = m + 1 := Nat.exists_eq_add_of_le' (by omega)
    have hcomponent := loadWithin_source component (n := m) true (by omega)
    refine loadWithin_source_of_form .array rfl (by simp) ?_
    refine (Load.recordMembers_cons rfl rfl
      (Load.field_load (Load.list_text_source as) _) _).trans ?_
    refine (Load.recordMembers_cons rfl rfl
      (Load.requiredField_load hcomponent _) _).trans ?_
    exact Load.recordMembers_nil rfl _
  | .wildcard as kind bound, n, inside, h => by
    have hdepth : max 0 (max (Json.strings as).depth
      (max 0 (Json.membersDepth (jsonMember "bound" bound)))) + 1 ≤ n := h
    obtain ⟨m, rfl⟩ : ∃ m, n = m + 1 := Nat.exists_eq_add_of_le' (by omega)
    have hbound := loadWithin_sourceMember "bound" bound (n := m) (by omega)
    refine loadWithin_source_of_form .wildcard rfl ?_ ?_
    · simpa using jsonMember_ne_kind (by decide) bound
    · refine (Load.recordMembers_cons rfl rfl
        (Load.field_load (Load.list_text_source as) _) _).trans ?_
      refine (Load.recordMembers_cons rfl rfl (Load.field_load kind.load_name _) _).trans ?_
      exact recordMembers_jsonMember rfl rfl rfl rfl rfl hbound

theorem loadWithin_sourceMember (name : String) : ∀ (inside : Option JavaType) {n : Nat},
    Json.membersDepth (jsonMember name inside) ≤ n →
      ∀ u ∈ inside, loadWithin n true u.json.source = .ok u
  | none, _, _, u, hu => by cases hu
  | some t, n, h, u, hu => by
    obtain rfl := Option.some.inj hu
    exact loadWithin_source t true ((le_max_left _ _).trans h)

theorem list_loadWithin_sources : ∀ (ts : List JavaType) {n : Nat},
    Json.itemsDepth (jsons ts) ≤ n →
      (Json.sources (jsons ts)).mapM (loadWithin n true) = .ok ts
  | [], _, _ => rfl
  | t :: ts, n, h => by
    have hdepth : max t.json.depth (Json.itemsDepth (jsons ts)) ≤ n := h
    show (t.json.source :: Json.sources (jsons ts)).mapM (loadWithin n true) = _
    rw [List.mapM_cons, loadWithin_source t true (by omega),
      list_loadWithin_sources ts (by omega)]
    rfl

end

/-- **Types survive JSON**: a type whose JSON has at most as many containers within one
another as can be read is loaded back from its compact text. -/
theorem ofText_json (t : JavaType) (h : t.json.depth ≤ Source.depthLimit) :
    Load.ofText load t.json.compact = .ok t := by
  have hload : load t.json.source = .ok t := by
    rw [load, isUsable_source t, if_pos rfl]
    exact loadWithin_source t false h
  rw [Load.ofText, Source.ofText_compact h]
  show (load t.json.source >>= fun a => _) = _
  rw [hload]
  rfl

/-- A type with all three forms in it, and with texts that have to be escaped. -/
def nested : JavaType :=
  .declared ["@A(\"a \\ b\n\")"] "Outer"
    [.array [] (.wildcard ["@B"] .lower (some (named "Integer"))), .wildcard [] .unbounded none]
    (some (.declared [] "Inner\x01\x02" [] none))

theorem ofText_json_nested :
    nested.json.depth ≤ Source.depthLimit ∧ Load.ofText load nested.json.compact = .ok nested :=
  ⟨by decide, ofText_json nested (by decide)⟩

end JavaType

end AnnotationPlan
