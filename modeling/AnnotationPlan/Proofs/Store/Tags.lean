import AnnotationPlan.Proofs.JavaType.Bare
import AnnotationPlan.Proofs.Store.Casts

/-!
# What insertions are called, and what is above constructors

Of a store it is often enough to know what each insertion is called and where it goes – its
**tag** (`Store.tags`) – and which insertions stand above which constructor
(`Store.declarationsOf`). The operations of a store leave both alone but for the one that is
meant to change them: a new insertion has the next tag and nothing above it, and only a
declaration that is attached goes above a constructor.

No operation finds fault with the scene but the making of a cast, and there it is a matter of
the tags of the annotations within (`Store.exists_pushCast`): they have to be single
annotations with paths that the type has positions for.
-/

namespace AnnotationPlan

/-- What an insertion is called, and where it goes. -/
abbrev Tag : Type := String × CriteriaList

namespace Insertion

/-- **What an insertion is called, and where it goes.** -/
def tag (i : Insertion) : Tag := (i.kindName, i.criteria)

/-- An insertion that has grown is called the same. -/
theorem Grows.tag_eq {i j : Insertion} (h : i.Grows j) : j.tag = i.tag := by
  cases h <;> rfl

/-- Receivers are told by what they are called. -/
theorem isReceiver_iff {i : Insertion} : i.IsReceiver ↔ i.tag.1 = "receiver" := by
  cases i <;> simp [IsReceiver, tag, kindName]

/-- So are single annotations. -/
theorem isSingle_iff {i : Insertion} : i.IsSingle ↔ i.tag.1 = "annotation" := by
  cases i <;> simp [IsSingle, tag, kindName]

end Insertion

namespace Store

variable {s s' : Store} {id c : InsertionId} {i : Insertion} {f : Insertion → Insertion}

/-! ## Tags -/

/-- **The tags of all insertions** in the order of their numbers. -/
def tags (s : Store) : List Tag := s.insertions.toList.map Insertion.tag

/-- The tag of the insertion with a number. -/
def tag? (s : Store) (id : InsertionId) : Option Tag := (s.get? id).map Insertion.tag

@[simp] theorem getElem?_tags (s : Store) (id : InsertionId) : s.tags[id]? = s.tag? id := by
  unfold tags tag? get?
  rw [List.getElem?_map, Array.getElem?_toList]

@[simp] theorem length_tags (s : Store) : s.tags.length = s.size := by
  unfold tags
  rw [List.length_map, Array.length_toList]
  rfl

@[simp] theorem tags_push (s : Store) (i : Insertion) : (s.push i).tags = s.tags ++ [i.tag] := by
  unfold tags push
  rw [Array.toList_push, List.map_append, List.map_singleton]

theorem tag?_eq_some {tag : Tag} : s.tag? id = some tag ↔ s.Has (fun i => i.tag = tag) id :=
  Option.map_eq_some_iff

/-- A number that has a tag is in the store. -/
theorem lt_size_of_tag? {tag : Tag} (h : s.tag? id = some tag) : id < s.size :=
  (tag?_eq_some.mp h).lt_size

/-- So are all of several that have. -/
theorem lt_size_of_map_tag? {ids : List InsertionId} {made : List Tag}
    (h : ids.map s.tag? = made.map some) : ∀ id ∈ ids, id < s.size := by
  intro id hid
  obtain ⟨tag, -, htag⟩ := List.mem_map.mp (h ▸ List.mem_map_of_mem hid)
  exact lt_size_of_tag? htag.symm

/-- **Insertions keep their tags** while the store grows. -/
theorem Grows.tag?_eq {tag : Tag} (h : s.Grows s') (hid : s.tag? id = some tag) :
    s'.tag? id = some tag :=
  tag?_eq_some.mpr ((tag?_eq_some.mp hid).grows h (fun _ _ hg hi => hg.tag_eq.trans hi))

/-- All of several insertions do. -/
theorem Grows.map_tag?_eq {ids : List InsertionId} {made : List Tag} (h : s.Grows s')
    (hids : ids.map s.tag? = made.map some) : ids.map s'.tag? = made.map some := by
  rw [← hids]
  refine List.map_congr_left (fun id hid => ?_)
  obtain ⟨tag, -, htag⟩ := List.mem_map.mp (hids ▸ List.mem_map_of_mem (f := s.tag?) hid)
  rw [← htag]
  exact h.tag?_eq htag.symm

/-- A store that has grown without new insertions has the same tags. -/
theorem Grows.tags_eq (h : s.Grows s') (hsize : s'.size = s.size) : s'.tags = s.tags := by
  refine List.ext_getElem? (fun id => ?_)
  rw [getElem?_tags, getElem?_tags]
  cases htag : s.tag? id with
  | some tag => exact h.tag?_eq htag
  | none =>
    cases htag' : s'.tag? id with
    | none => rfl
    | some tag =>
      obtain ⟨i, hi⟩ := exists_get? (hsize ▸ lt_size_of_tag? htag')
      rw [tag?, hi] at htag
      cases htag

/-- With the tags, each tag is the same. -/
theorem tag?_eq_of_tags_eq (h : s'.tags = s.tags) : s'.tag? = s.tag? :=
  funext fun id => by rw [← getElem?_tags, ← getElem?_tags, h]

/-! ## Above constructors -/

/-- The annotations above the insertion with a number, if it is a constructor. -/
def declarationsOf (s : Store) (c : InsertionId) : List InsertionId :=
  ((s.get? c).map Insertion.declarations).getD []

theorem declarationsOf_of_get? (h : s.get? c = some i) : s.declarationsOf c = i.declarations := by
  rw [declarationsOf, h]
  rfl

/-- A new insertion that has nothing above it changes nothing about what the others
have. -/
theorem declarationsOf_push (s : Store) (hi : i.declarations = []) (c : InsertionId) :
    (s.push i).declarationsOf c = s.declarationsOf c := by
  unfold declarationsOf
  rw [get?_push]
  split
  case isTrue h =>
    have hnone : s.get? c = none := Array.getElem?_eq_none (Nat.le_of_eq h.symm)
    rw [hnone]
    exact hi
  case isFalse => rfl

/-- Neither does a change elsewhere in an insertion. -/
theorem declarationsOf_modify (hf : ∀ i, s.get? id = some i → (f i).declarations = i.declarations)
    (c : InsertionId) : (s.modify id f).declarationsOf c = s.declarationsOf c := by
  unfold declarationsOf
  rw [get?_modify]
  split
  case isTrue h =>
    subst h
    cases hi : s.get? id with
    | none => rfl
    | some i => exact hf i hi
  case isFalse => rfl

theorem declarationsOf_addTypeAnnotation {s' : Store} {text : String}
    (h : s.addTypeAnnotation id text = .ok s') (c : InsertionId) :
    s'.declarationsOf c = s.declarationsOf c := by
  obtain ⟨i, -, -, rfl⟩ := addTypeAnnotation_eq_ok.mp h
  exact declarationsOf_modify (fun j _ => by cases j <;> rfl) c

theorem declarationsOf_attachReceiver {s' : Store} {k kept : InsertionId}
    (h : s.attachReceiver k id = .ok (s', kept)) (c : InsertionId) :
    s'.declarationsOf c = s.declarationsOf c := by
  obtain ⟨criteria, type, receiver, declarations, hk, hcases⟩ := attachReceiver_cases h
  obtain ⟨rfl, -, rfl⟩ | ⟨-, -, rfl⟩ | ⟨keptCriteria, keptType, keptInner, place, added, inner,
    -, -, hkept, -, rfl⟩ := hcases
  · refine declarationsOf_modify (fun i hi => ?_) c
    obtain rfl := Option.some.inj (hk.symm.trans hi)
    rfl
  · rfl
  · refine declarationsOf_modify (fun i hi => ?_) c
    obtain rfl := Option.some.inj (hkept.symm.trans hi)
    rfl

/-- **A declaration that is attached** goes above its constructor, behind those that are
there. -/
theorem declarationsOf_declare {criteria : CriteriaList} {type : JavaType}
    {receiver : Option InsertionId} {declarations : List InsertionId}
    (hc : s.get? c = some (.constructor criteria type receiver declarations))
    (ids : List InsertionId) (k : InsertionId) :
    (s.modify c (fun _ =>
        .constructor criteria type receiver (declarations ++ ids))).declarationsOf k
      = s.declarationsOf k ++ if k = c then ids else [] := by
  by_cases hk : k = c
  · subst hk
    rw [declarationsOf_of_get? (get?_modify_self hc), declarationsOf_of_get? hc, if_pos rfl]
    rfl
  · rw [if_neg hk, List.append_nil, declarationsOf, get?_modify_of_ne (Ne.symm hk)]
    rfl

/-! ## What the scene is not at fault for -/

theorem lookup_makes (s : Store) (id : InsertionId) :
    Makes (fun i => s.get? id = some i) (s.lookup id) := by
  unfold lookup
  cases s.get? id with
  | some i => exact rfl
  | none => exact .of_invariant _ _

theorem addTypeAnnotation_makes (s : Store) (id : InsertionId) (text : String) :
    Makes (fun s' => s.addTypeAnnotation id text = .ok s') (s.addTypeAnnotation id text) := by
  refine Makes.self ((s.lookup_makes id).bind (fun i _ => ?_))
  split
  · exact trivial
  · exact .of_invariant _ _

theorem attachReceiver_makes (s : Store) (c id : InsertionId) :
    Makes (fun r => s.attachReceiver c id = .ok r) (s.attachReceiver c id) := by
  refine Makes.self ((s.lookup_makes c).bind (fun i _ => ?_))
  split
  · exact trivial
  · split
    · exact trivial
    · refine (s.lookup_makes id).bind (fun j _ => ?_)
      split
      · split
        · exact trivial
        · exact .of_invariant _ _
      · exact .of_invariant _ _
  · exact .of_invariant _ _

theorem attachDeclaration_makes (s : Store) (c id : InsertionId) :
    Makes (fun s' => s.attachDeclaration c id = .ok s') (s.attachDeclaration c id) := by
  refine Makes.self ((s.lookup_makes c).bind (fun i _ => ?_))
  split
  · exact trivial
  · exact .of_invariant _ _

theorem attachDeclarations_makes (s : Store) (c id : InsertionId) (rest : List InsertionId) :
    Makes (fun s' => ∃ criteria type receiver declarations,
        s.get? c = some (.constructor criteria type receiver declarations)
        ∧ s' = s.modify c
            (fun _ => .constructor criteria type receiver (declarations ++ id :: rest)))
      ((id :: rest).foldlM (fun s j => s.attachDeclaration c j) s) := by
  have hmakes : Makes (fun _ => True)
      ((id :: rest).foldlM (fun s j => s.attachDeclaration c j) s) :=
    Makes.foldlM _ (fun s' _ j _ => (s'.attachDeclaration_makes c j).mono (fun _ _ => trivial))
      trivial
  refine hmakes.self.mono (fun s' hs' => ?_)
  -- the first one is attached, so there is a constructor to attach the others to
  have hfirst := hs'
  rw [List.foldlM_cons] at hfirst
  obtain ⟨first, hfirst, -⟩ := bind_eq_ok.mp hfirst
  obtain ⟨criteria, type, receiver, declarations, hc, -⟩ := attachDeclaration_eq_ok.mp hfirst
  rw [attachDeclarations_eq (id :: rest) hc] at hs'
  exact ⟨criteria, type, receiver, declarations, hc, (Except.ok.inj hs').symm⟩

theorem pushConstructor_makes (s : Store) (criteria : CriteriaList) :
    Makes (fun s' => s.pushConstructor criteria = .ok s') (s.pushConstructor criteria) := by
  refine Makes.self ?_
  unfold pushConstructor
  split
  · exact trivial
  · exact .of_invariant _ _

/-! ## Casts -/

/-- **Whether annotations can be written into a type** depends on their tags, and on the type
without its annotations. -/
theorem exists_decorate {criteria : CriteriaList} {whole : JavaType} :
    ∀ {inner inner' : List InsertionId} {t t' u : JavaType},
      inner.map s.tag? = inner'.map s'.tag? → t.bare = t'.bare →
      s.decorate criteria whole inner t = .ok u →
      ∃ u', s'.decorate criteria whole inner' t' = .ok u'
  | [], [], _, t', _, _, _, _ => ⟨t', rfl⟩
  | id :: rest, id' :: rest', t, t', u, htags, ht, h => by
    obtain ⟨htag, hrest⟩ := List.cons.inj htags
    rw [decorate] at h
    split at h
    case h_2 => cases h
    case h_1 text place separateLine hid =>
      have hplace : s.tag? id = some ("annotation", place) := by
        rw [tag?, hid]
        rfl
      obtain ⟨i', hid', hkind⟩ := tag?_eq_some.mp (htag.symm.trans hplace)
      have hsingle : i'.IsSingle := Insertion.isSingle_iff.mpr (congrArg Prod.fst hkind)
      cases i' with
      | single text' place' separateLine' =>
        obtain rfl : place' = place := congrArg Prod.snd hkind
        rw [decorate, hid']
        dsimp only
        split at h
        case h_1 => cases h
        case h_2 path hpath =>
          have hannotate := JavaType.bare_annotateAt? ht path text text'
          split at h
          case h_1 => cases h
          case h_2 v hv =>
            rw [hv] at hannotate
            obtain ⟨v', hv', hbare⟩ := Option.map_eq_some_iff.mp hannotate.symm
            rw [hv']
            exact exists_decorate hrest hbare.symm h
      | _ => exact hsingle.elim

/-- **Whether a cast can be made** depends on the tags of the annotations within. -/
theorem exists_pushCast {type : JavaType} {text : Option String} {inner inner' : List InsertionId}
    {criteria : CriteriaList} {r : Store} (h : inner.map s.tag? = inner'.map s'.tag?)
    (hok : s.pushCast type text inner criteria = .ok r) (text' : Option String) :
    ∃ r', s'.pushCast type text' inner' criteria = .ok r' := by
  obtain ⟨decorated, hdecorate, -⟩ := pushCast_eq_ok.mp hok
  have hbare : (annotated text type).bare = (annotated text' type).bare := by
    cases text <;> cases text' <;> simp [annotated]
  obtain ⟨decorated', hdecorate'⟩ := exists_decorate h hbare hdecorate
  exact ⟨_, pushCast_eq_ok.mpr ⟨decorated', hdecorate', rfl⟩⟩

end Store

end AnnotationPlan
