import AnnotationPlan.AnnotationUse.Load
import AnnotationPlan.Proofs.AnnotationUse.Sameness

/-!
# Loaded uses set each field once

A text may give several values to one field of an annotation. Only the last one counts: the
values are loaded as a map. So whatever is loaded as an annotation use, or as the value of a
field, is distinct (`AnnotationUse.isDistinct_of_load`).
-/

namespace AnnotationPlan

namespace Load

variable {σ : Type} {I : σ → Prop}

theorem map_eq_ok {α β : Type} {r : Except LoadError α} {f : α → β} {b : β}
    (h : r.map f = .ok b) : ∃ a, r = .ok a ∧ f a = b := by
  cases r with
  | ok a => exact ⟨a, rfl, Except.ok.inj h⟩
  | error e => cases h

/-- **What every field of a structure keeps**, loading its members keeps. -/
theorem keeps_of_recordMembers {fields : List (Field σ)}
    (hfields : ∀ fd ∈ fields, ∀ s r r', I r → fd.load r s = .ok r' → I r') :
    ∀ {members : List (List Char × Source)} {seen : List String} {r r' : σ}, I r →
      recordMembers fields seen r members = .ok r' → I r'
  | [], _, _, _, hr, h => by
    rw [recordMembers] at h
    split at h
    · cases h
      exact hr
    · cases h
  | (spelled, s) :: rest, seen, r, r', hr, h => by
    rw [recordMembers] at h
    obtain ⟨name, -, h⟩ := bind_eq_ok.mp h
    split at h
    case h_1 =>
      obtain ⟨_, -, h⟩ := bind_eq_ok.mp h
      exact keeps_of_recordMembers hfields hr h
    case h_2 fd hfind =>
      split at h
      · cases h
      · obtain ⟨r'', hload, h⟩ := bind_eq_ok.mp h
        exact keeps_of_recordMembers hfields
          (hfields fd (List.mem_of_find?_eq_some hfind) s r r'' hr hload) h

/-- So does loading its items. -/
theorem keeps_of_recordItems :
    ∀ {items : List Source} {fields : List (Field σ)} {r r' : σ},
      (∀ fd ∈ fields, ∀ s r r', I r → fd.load r s = .ok r' → I r') → I r →
      recordItems fields r items = .ok r' → I r'
  | [], fields, r, r', _, hr, h => by
    rw [recordItems] at h
    split at h
    · cases h
      exact hr
    · cases h
  | s :: rest, [], _, _, _, _, h => by cases h
  | s :: rest, fd :: fields, r, r', hfields, hr, h => by
    obtain ⟨hfd, hfields⟩ := List.forall_mem_cons.mp hfields
    rw [recordItems] at h
    obtain ⟨r'', hload, h⟩ := bind_eq_ok.mp h
    exact keeps_of_recordItems hfields (hfd s r r'' hr hload) h

/-- **What every field of a structure keeps** holds of a structure that is loaded. -/
theorem keeps_of_record {fields : List (Field σ)} {start r : σ} {s : Source}
    (hfields : ∀ fd ∈ fields, ∀ s r r', I r → fd.load r s = .ok r' → I r') (hstart : I start)
    (h : record fields start s = .ok r) : I r := by
  cases s with
  | object members => exact keeps_of_recordMembers hfields hstart h
  | array items => exact keeps_of_recordItems hfields hstart h
  | _ => cases h

end Load

/-- What is there after a write was there, or it was written. -/
theorem Entries.mem_alter {κ ν : Type} [DecidableEq κ] {k : κ} {v : ν} {e : κ × ν} :
    ∀ {es : List (κ × ν)}, e ∈ alter k (fun _ => v) es → e ∈ es ∨ e = (k, v)
  | [], he => .inr (List.mem_singleton.mp he)
  | (k', v') :: rest, he => by
    rw [alter] at he
    split at he
    case isTrue hk =>
      rcases List.mem_cons.mp he with rfl | he
      · exact .inr (congrArg (·, v) hk)
      · exact .inl (List.mem_cons_of_mem _ he)
    case isFalse =>
      rcases List.mem_cons.mp he with rfl | he
      · exact .inl List.mem_cons_self
      · exact (mem_alter he).imp_left (List.mem_cons_of_mem _)

/-- **A map that is made of pairs** has no key twice and none but these pairs. -/
theorem Entries.ofList_spec {κ ν : Type} [DecidableEq κ] (es : List (κ × ν)) :
    ((ofList es).map Prod.fst).Nodup ∧ ofList es ⊆ es := by
  suffices hmore : ∀ (more acc : List (κ × ν)), (acc.map Prod.fst).Nodup →
      ((more.foldl (fun acc e => insert e.1 e.2 acc) acc).map Prod.fst).Nodup
      ∧ more.foldl (fun acc e => insert e.1 e.2 acc) acc ⊆ acc ++ more from
    hmore es [] List.nodup_nil
  intro more
  induction more with
  | nil => exact fun acc hacc => ⟨hacc, List.subset_append_left acc []⟩
  | cons e rest ih =>
    intro acc hacc
    obtain ⟨hnodup, hsub⟩ := ih (insert e.1 e.2 acc) (nodup_keys_alter e.1 _ hacc)
    refine ⟨hnodup, fun x hx => ?_⟩
    rcases List.mem_append.mp (hsub hx) with hx | hx
    · rcases mem_alter hx with hx | rfl
      · exact List.mem_append_left _ hx
      · exact List.mem_append_right _ List.mem_cons_self
    · exact List.mem_append_right _ (List.mem_cons_of_mem e hx)

namespace FieldValue

variable {value : Load.Loader FieldValue} {s : Source} {v : FieldValue}

/-- **A use is distinct if its values are loaded as distinct ones.** -/
theorem isDistinct_of_record {u : AnnotationUse}
    (hvalue : ∀ s v, value s = .ok v → v.IsDistinct)
    (h : Load.record (AnnotationUse.fields value) default s = .ok u) :
    (nested u).IsDistinct := by
  have hkept : (u.values.map Prod.fst).Nodup ∧ ∀ v ∈ u.values, v.2.IsDistinct := by
    refine Load.keeps_of_record
      (I := fun u => (u.values.map Prod.fst).Nodup ∧ ∀ v ∈ u.values, v.2.IsDistinct) ?_
      ⟨List.nodup_nil, fun v hv => absurd hv List.not_mem_nil⟩ h
    refine List.forall_mem_cons.mpr ⟨fun s r r' hr hload => ?_,
      List.forall_mem_singleton.mpr (fun s r r' hr hload => ?_)⟩
    · obtain ⟨name, -, rfl⟩ := Load.map_eq_ok hload
      exact hr
    · obtain ⟨pairs, hpairs, rfl⟩ := Load.map_eq_ok hload
      obtain ⟨hnodup, hsub⟩ := Entries.ofList_spec pairs
      refine ⟨hnodup, fun v hv => ?_⟩
      cases s with
      | object members =>
        obtain ⟨m, -, hm⟩ := exists_of_mem_mapM hpairs v (hsub hv)
        obtain ⟨k, -, hm⟩ := bind_eq_ok.mp hm
        obtain ⟨x, hx, hm⟩ := bind_eq_ok.mp hm
        cases hm
        exact hvalue m.2 x hx
      | _ => cases hpairs
  exact isDistinct_nested hkept.1 hkept.2

theorem isDistinct_of_loadNested (hvalue : ∀ s v, value s = .ok v → v.IsDistinct)
    (h : loadNested value s = .ok v) : v.IsDistinct := by
  obtain ⟨u, hu, rfl⟩ := Load.map_eq_ok h
  exact isDistinct_of_record hvalue hu

theorem isDistinct_ofNumber (x : Number) : (ofNumber x).IsDistinct := by
  cases x with
  | natural n =>
    rw [ofNumber]
    by_cases hn : n < Nat.pow 2 63
    · rw [if_pos hn]
      exact isDistinct_of_scalar (fun u hu => by cases hu)
    · rw [if_neg hn]
      exact isDistinct_of_scalar (fun u hu => by cases hu)
  | _ => exact isDistinct_of_scalar (fun u hu => by cases hu)

/-- Whatever values are loaded, they are distinct. -/
theorem isDistinct_of_loadWithin : ∀ (n : Nat) {s : Source} {v : FieldValue},
    loadWithin n s = .ok v → v.IsDistinct
  | 0, _, _, h => by cases h
  | n + 1, s, v, h => by
    have hnested : ∀ {s : Source}, loadNested (loadWithin n) s = .ok v → v.IsDistinct :=
      isDistinct_of_loadNested (fun _ _ => isDistinct_of_loadWithin n)
    cases s with
    | bool b =>
      cases h
      exact isDistinct_of_scalar (fun u hu => by cases hu)
    | number x =>
      obtain ⟨y, -, rfl⟩ := Load.map_eq_ok h
      exact isDistinct_ofNumber y
    | string spelled =>
      obtain ⟨t, -, rfl⟩ := Load.map_eq_ok h
      exact isDistinct_of_scalar (fun u hu => by cases hu)
    | array items =>
      -- an array whose items are not all values may be an annotation
      rw [loadWithin] at h
      split at h
      case h_1 values hvalues =>
        cases h
        refine isDistinct_array (fun x hx => ?_)
        obtain ⟨item, -, hitem⟩ := exists_of_mem_mapM hvalues x hx
        exact isDistinct_of_loadWithin n hitem
      case h_2 => exact hnested h
    | _ => exact hnested h

end FieldValue

/-- **A loaded use sets each field once**, and so does every annotation within its values. -/
theorem AnnotationUse.isDistinct_of_load {s : Source} {u : AnnotationUse}
    (h : AnnotationUse.load s = .ok u) : (FieldValue.nested u).IsDistinct := by
  refine FieldValue.isDistinct_of_record (fun s v hv => ?_) h
  unfold FieldValue.load at hv
  split at hv
  · exact FieldValue.isDistinct_of_loadWithin _ hv
  · cases hv

end AnnotationPlan
