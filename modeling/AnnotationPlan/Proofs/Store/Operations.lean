import AnnotationPlan.Insertion.Gather
import AnnotationPlan.Proofs.Outcome

/-!
# What the operations of a store do

A store is looked at through the insertion that each number has (`Store.get?`), and
every operation is described by what it does to that: a new insertion gets the next
number, and a change is seen at its own number only. The operations that may fail are
described twice over – when they succeed and with what, so that a caller who knows the
insertions involved need not look inside.
-/

namespace AnnotationPlan

namespace Store

variable {s s' : Store} {id j : InsertionId} {i : Insertion} {f : Insertion → Insertion}

/-! ## The basic operations -/

@[simp] theorem size_push (s : Store) (i : Insertion) : (s.push i).size = s.size + 1 :=
  Array.size_push i

@[simp] theorem size_modify (s : Store) (id : InsertionId) (f : Insertion → Insertion) :
    (s.modify id f).size = s.size :=
  Array.size_modify

/-- A number that an insertion has is below the size. -/
theorem lt_size (h : s.get? id = some i) : id < s.size :=
  (Array.getElem?_eq_some_iff.mp h).1

/-- Every number below the size has an insertion. -/
theorem exists_get? (h : id < s.size) : ∃ i, s.get? id = some i :=
  ⟨_, Array.getElem?_eq_getElem h⟩

/-- **A new insertion** has the next number, and the others keep theirs. -/
theorem get?_push (s : Store) (i : Insertion) (j : InsertionId) :
    (s.push i).get? j = if j = s.size then some i else s.get? j :=
  Array.getElem?_push

@[simp] theorem get?_push_size (s : Store) (i : Insertion) :
    (s.push i).get? s.size = some i := by
  rw [get?_push, if_pos rfl]

theorem get?_push_of_lt (h : j < s.size) (i : Insertion) : (s.push i).get? j = s.get? j := by
  rw [get?_push, if_neg (Nat.ne_of_lt h)]

/-- **Two new insertions**, such as a cast and its parenthesis, have the next two numbers. -/
theorem get?_push_push_size (s : Store) (i k : Insertion) :
    ((s.push i).push k).get? s.size = some i := by
  rw [get?_push_of_lt (by simp), get?_push_size]

theorem get?_push_push_succ (s : Store) (i k : Insertion) :
    ((s.push i).push k).get? (s.size + 1) = some k := by
  rw [← size_push s i, get?_push_size]

theorem get?_push_push_of_lt (h : j < s.size) (i k : Insertion) :
    ((s.push i).push k).get? j = s.get? j := by
  have hbelow : j < (s.push i).size := size_push s i ▸ Nat.lt_succ_of_lt h
  rw [get?_push_of_lt hbelow, get?_push_of_lt h]

/-- **A change** is seen at its own number only. -/
theorem get?_modify (s : Store) (id : InsertionId) (f : Insertion → Insertion)
    (j : InsertionId) :
    (s.modify id f).get? j = if id = j then (s.get? j).map f else s.get? j := by
  unfold modify get?
  rw [Array.getElem?_modify]

theorem get?_modify_self (h : s.get? id = some i) : (s.modify id f).get? id = some (f i) := by
  rw [get?_modify, if_pos rfl, h, Option.map_some]

theorem get?_modify_of_ne (h : id ≠ j) : (s.modify id f).get? j = s.get? j := by
  rw [get?_modify, if_neg h]

/-- A store is known by the insertions that its numbers have. -/
theorem ext_get? (h : ∀ j, s.get? j = s'.get? j) : s = s' :=
  congrArg Store.mk (Array.ext_getElem? h)

/-- Putting an insertion in the place of another twice leaves the second. -/
theorem modify_modify_const (s : Store) (id : InsertionId) (i j : Insertion) :
    (s.modify id (fun _ => i)).modify id (fun _ => j) = s.modify id (fun _ => j) := by
  refine ext_get? (fun k => ?_)
  simp only [get?_modify]
  split
  · rw [Option.map_map]
    rfl
  · rfl

/-- Putting an insertion in its own place changes nothing. -/
theorem modify_const_self (h : s.get? id = some i) : s.modify id (fun _ => i) = s := by
  refine ext_get? (fun k => ?_)
  rw [get?_modify]
  split
  · rename_i hk
    rw [← hk, h, Option.map_some]
  · rfl

/-- Changing an insertion that is known is putting the changed one in its place. -/
theorem modify_eq_const (h : s.get? id = some i) :
    s.modify id f = s.modify id (fun _ => f i) := by
  refine ext_get? (fun j => ?_)
  rw [get?_modify, get?_modify]
  split
  case isTrue hj =>
    rw [← hj, h]
    rfl
  case isFalse => rfl

/-- Looking a number up succeeds if an insertion has it. -/
theorem lookup_eq_ok : s.lookup id = .ok i ↔ s.get? id = some i := by
  unfold lookup
  cases s.get? id <;> simp

/-! ## Gathering operations -/

/-- Whether an insertion has a type to annotate is decided by its kind, and annotating
it does not change that. -/
@[simp] theorem type?_mapType (g : JavaType → JavaType) (i : Insertion) :
    (i.mapType g).type? = i.type?.map g := by
  cases i <;> rfl

/-- **Adding a type annotation** works on every insertion that writes a type. -/
theorem addTypeAnnotation_eq_ok {text : String} :
    s.addTypeAnnotation id text = .ok s' ↔
      ∃ i, s.get? id = some i ∧ i.type?.isSome
        ∧ s' = s.modify id (Insertion.mapType (JavaType.annotate text)) := by
  unfold addTypeAnnotation
  simp only [bind_eq_ok, lookup_eq_ok]
  refine exists_congr (fun i => and_congr_right (fun _ => ?_))
  cases h : i.type? with
  | none => simp
  | some t => simp [Pure.pure, Except.pure, eq_comm]

theorem size_addTypeAnnotation {text : String} (h : s.addTypeAnnotation id text = .ok s') :
    s'.size = s.size := by
  obtain ⟨i, -, -, rfl⟩ := addTypeAnnotation_eq_ok.mp h
  exact size_modify s id _

/-- **Attaching a declaration** works on every constructor. -/
theorem attachDeclaration_eq_ok {c : InsertionId} :
    s.attachDeclaration c id = .ok s' ↔
      ∃ criteria type receiver declarations,
        s.get? c = some (.constructor criteria type receiver declarations)
        ∧ s' = s.modify c
            (fun _ => .constructor criteria type receiver (declarations ++ [id])) := by
  unfold attachDeclaration
  simp only [bind_eq_ok, lookup_eq_ok]
  constructor
  · rintro ⟨i, hi, h⟩
    cases i with
    | constructor criteria type receiver declarations =>
      exact ⟨criteria, type, receiver, declarations, hi, (Except.ok.inj h).symm⟩
    | _ => cases h
  · rintro ⟨criteria, type, receiver, declarations, hi, rfl⟩
    exact ⟨_, hi, rfl⟩

/-- **Attaching several declarations** puts them behind those that are there. -/
theorem attachDeclarations_eq {c : InsertionId} {criteria : CriteriaList} {type : JavaType}
    {receiver : Option InsertionId} :
    ∀ (ids : List InsertionId) {declarations : List InsertionId} {s : Store},
      s.get? c = some (.constructor criteria type receiver declarations) →
      ids.foldlM (fun s j => s.attachDeclaration c j) s
        = .ok (s.modify c (fun _ => .constructor criteria type receiver (declarations ++ ids)))
  | [], declarations, s, hc => by
    rw [List.append_nil, modify_const_self hc]
    rfl
  | id :: rest, declarations, s, hc => by
    have hfirst : s.attachDeclaration c id
        = .ok (s.modify c (fun _ => .constructor criteria type receiver (declarations ++ [id]))) :=
      attachDeclaration_eq_ok.mpr ⟨criteria, type, receiver, declarations, hc, rfl⟩
    rw [List.foldlM_cons, hfirst]
    show rest.foldlM _ (s.modify c _) = _
    rw [attachDeclarations_eq rest (get?_modify_self hc), modify_modify_const, List.append_assoc]
    rfl

/-- **The first receiver of a constructor** becomes its receiver. -/
theorem attachReceiver_first {c : InsertionId} {criteria : CriteriaList} {type : JavaType}
    {declarations : List InsertionId}
    (hc : s.get? c = some (.constructor criteria type none declarations)) :
    s.attachReceiver c id
      = .ok (s.modify c (fun _ => .constructor criteria type (some id) declarations), id) := by
  unfold attachReceiver
  rw [lookup_eq_ok.mpr hc]
  rfl

/-- **The receiver that a constructor has** changes nothing. -/
theorem attachReceiver_self {c : InsertionId} {criteria : CriteriaList} {type : JavaType}
    {declarations : List InsertionId}
    (hc : s.get? c = some (.constructor criteria type (some id) declarations)) :
    s.attachReceiver c id = .ok (s, id) := by
  unfold attachReceiver
  rw [lookup_eq_ok.mpr hc]
  exact if_pos rfl

/-- **A further receiver of a constructor** is merged into the first. -/
theorem attachReceiver_merge {c kept : InsertionId} {criteria keptCriteria place : CriteriaList}
    {type keptType added : JavaType} {declarations keptInner inner : List InsertionId}
    (hc : s.get? c = some (.constructor criteria type (some kept) declarations))
    (hne : kept ≠ id) (hid : s.get? id = some (.receiver place added inner))
    (hkept : s.get? kept = some (.receiver keptCriteria keptType keptInner)) :
    s.attachReceiver c id
      = .ok (s.modify kept (fun _ => .receiver keptCriteria
          (keptType.withAnnotations (addMissing keptType.annotations added.annotations))
          (addMissing keptInner inner)), kept) := by
  unfold attachReceiver
  rw [lookup_eq_ok.mpr hc]
  show (if kept = id then _ else _) = _
  rw [if_neg hne, lookup_eq_ok.mpr hid, hkept]
  rfl

/-- **What attaching a receiver does when it succeeds**: it becomes the receiver of the
constructor, or it is that already, or it is merged into the one that is. -/
theorem attachReceiver_cases {c kept : InsertionId}
    (h : s.attachReceiver c id = .ok (s', kept)) :
    ∃ criteria type receiver declarations,
      s.get? c = some (.constructor criteria type receiver declarations)
      ∧ ((receiver = none ∧ kept = id
            ∧ s' = s.modify c (fun _ => .constructor criteria type (some id) declarations))
        ∨ (receiver = some id ∧ kept = id ∧ s' = s)
        ∨ ∃ keptCriteria keptType keptInner place added inner,
            receiver = some kept ∧ kept ≠ id
            ∧ s.get? kept = some (.receiver keptCriteria keptType keptInner)
            ∧ s.get? id = some (.receiver place added inner)
            ∧ s' = s.modify kept (fun _ => .receiver keptCriteria
                (keptType.withAnnotations (addMissing keptType.annotations added.annotations))
                (addMissing keptInner inner))) := by
  rw [attachReceiver, bind_eq_ok] at h
  obtain ⟨i, hi, h⟩ := h
  rw [lookup_eq_ok] at hi
  split at h
  case h_1 criteria type declarations =>
    refine ⟨criteria, type, none, declarations, hi, Or.inl ⟨rfl, ?_⟩⟩
    cases h
    exact ⟨rfl, rfl⟩
  case h_2 criteria type k declarations =>
    refine ⟨criteria, type, some k, declarations, hi, Or.inr ?_⟩
    split at h
    case isTrue heq =>
      subst heq
      cases h
      exact Or.inl ⟨rfl, rfl, rfl⟩
    case isFalse hne =>
      rw [bind_eq_ok] at h
      obtain ⟨j, hj, h⟩ := h
      rw [lookup_eq_ok] at hj
      -- both have to be receivers, and every other case is an error
      split at h
      case h_1 place added inner =>
        split at h
        case h_1 keptCriteria keptType keptInner hkept =>
          cases h
          exact Or.inr ⟨keptCriteria, keptType, keptInner, place, added, inner, rfl, hne, hkept,
            hj, rfl⟩
        case h_2 => cases h
      case h_2 => cases h
  case h_3 => cases h

theorem size_attachReceiver {c kept : InsertionId} (h : s.attachReceiver c id = .ok (s', kept)) :
    s'.size = s.size := by
  obtain ⟨criteria, type, receiver, declarations, -, hcases⟩ := attachReceiver_cases h
  obtain ⟨-, -, rfl⟩ | ⟨-, -, rfl⟩ | ⟨keptCriteria, keptType, keptInner, place, added, inner,
    -, -, -, -, rfl⟩ := hcases
  · exact size_modify s c _
  · rfl
  · exact size_modify s kept _

/-- **A constructor can be made** wherever the criteria name a class. -/
theorem pushConstructor_eq_ok {criteria : CriteriaList} :
    s.pushConstructor criteria = .ok s' ↔
      ∃ className, criteria.compose.className? = some className
        ∧ s' = s.push (.constructor criteria (.named (Name.simple className)) none []) := by
  unfold pushConstructor
  cases criteria.compose.className? <;> simp [eq_comm]

/-- **A cast can be made** if the annotations within fit its type. -/
theorem pushCast_eq_ok {type : JavaType} {text : Option String} {inner : List InsertionId}
    {criteria : CriteriaList} :
    s.pushCast type text inner criteria = .ok s' ↔
      ∃ decorated, s.decorate criteria type inner (annotated text type) = .ok decorated
        ∧ s' = (s.push (.cast criteria decorated false)).push
            (.closeParenthesis criteria false) := by
  unfold pushCast
  rw [bind_eq_ok]
  refine exists_congr (fun decorated => and_congr_right (fun _ => ?_))
  exact ⟨fun h => (Except.ok.inj h).symm, fun h => congrArg Except.ok h.symm⟩

/-! ## Adding what is missing -/

section AddMissing

variable {α : Type} [DecidableEq α]

theorem addMissing_nil (xs : List α) : addMissing xs [] = xs := rfl

theorem addMissing_cons (xs : List α) (y : α) (ys : List α) :
    addMissing xs (y :: ys) = addMissing (if y ∈ xs then xs else xs ++ [y]) ys := rfl

/-- **What has been added to** is what was there and what was added. -/
theorem mem_addMissing {x : α} : ∀ {ys xs : List α}, x ∈ addMissing xs ys ↔ x ∈ xs ∨ x ∈ ys
  | [], xs => by simp [addMissing_nil]
  | y :: ys, xs => by
    rw [addMissing_cons, mem_addMissing]
    by_cases h : y ∈ xs
    · rw [if_pos h]
      constructor
      · rintro (hx | hx)
        · exact Or.inl hx
        · exact Or.inr (List.mem_cons_of_mem y hx)
      · rintro (hx | hx)
        · exact Or.inl hx
        · rcases List.mem_cons.mp hx with rfl | hx
          · exact Or.inl h
          · exact Or.inr hx
    · rw [if_neg h, List.mem_append, List.mem_singleton, List.mem_cons, or_assoc]

/-- **Nothing is added twice.** -/
theorem nodup_addMissing : ∀ {ys xs : List α}, xs.Nodup → (addMissing xs ys).Nodup
  | [], _, h => h
  | y :: ys, xs, h => by
    rw [addMissing_cons]
    split
    case isTrue => exact nodup_addMissing h
    case isFalse hy =>
      refine nodup_addMissing (List.nodup_append.mpr ⟨h, by simp, ?_⟩)
      intro x hx z hz hxz
      exact hy (List.mem_singleton.mp hz ▸ hxz ▸ hx)

/-- Adding two lists in a row. -/
theorem addMissing_append (xs ys zs : List α) :
    addMissing xs (ys ++ zs) = addMissing (addMissing xs ys) zs :=
  List.foldl_append

theorem addMissing_concat (xs ys : List α) (y : α) :
    addMissing xs (ys ++ [y])
      = if y ∈ addMissing xs ys then addMissing xs ys else addMissing xs ys ++ [y] :=
  addMissing_append xs ys [y]

/-- **Adding to what was added to** is adding everything at once. -/
theorem addMissing_assoc : ∀ (zs xs ys : List α),
    addMissing (addMissing xs ys) zs = addMissing xs (addMissing ys zs)
  | [], _, _ => rfl
  | z :: zs, xs, ys => by
    rw [addMissing_cons, addMissing_cons ys z zs, ← addMissing_assoc zs]
    by_cases hz : z ∈ ys
    · rw [if_pos hz, if_pos (mem_addMissing.mpr (Or.inr hz))]
    · rw [if_neg hz, addMissing_concat]

/-- Adding goes with a renaming. -/
theorem addMissing_map {β : Type} [DecidableEq β] {g : α → β}
    (hg : ∀ {x y : α}, g x = g y → x = y) (xs ys : List α) :
    addMissing (xs.map g) (ys.map g) = (addMissing xs ys).map g := by
  induction ys generalizing xs with
  | nil => rfl
  | cons y rest ih =>
    have hmem : g y ∈ xs.map g ↔ y ∈ xs := by
      refine ⟨fun h => ?_, List.mem_map_of_mem⟩
      obtain ⟨x, hx, hxy⟩ := List.mem_map.mp h
      exact hg hxy ▸ hx
    rw [List.map_cons, addMissing_cons, addMissing_cons, ← ih]
    by_cases hy : y ∈ xs
    · rw [if_pos hy, if_pos (hmem.mpr hy)]
    · rw [if_neg hy, if_neg (fun h => hy (hmem.mp h)), List.map_append, List.map_singleton]

/-- A list without repeats has none to drop. -/
theorem eraseDups_of_nodup : ∀ {xs : List α}, xs.Nodup → xs.eraseDups = xs
  | [], _ => rfl
  | x :: rest, h => by
    obtain ⟨hx, hrest⟩ := List.nodup_cons.mp h
    have hfilter : rest.filter (fun y => !y == x) = rest := by
      refine List.filter_eq_self.mpr (fun y hy => ?_)
      have hne : ¬ y = x := fun e => hx (e ▸ hy)
      simpa using hne
    rw [List.eraseDups_cons, hfilter, eraseDups_of_nodup hrest]

/-- **What adding leaves behind what was there**: the rest, each once, in order of first
occurrence. -/
theorem addMissing_eq_append : ∀ (ys xs : List α),
    addMissing xs ys = xs ++ (ys.filter (fun y => y ∉ xs)).eraseDups
  | [], xs => (List.append_nil xs).symm
  | y :: ys, xs => by
    rw [addMissing_cons]
    by_cases hy : y ∈ xs
    · rw [if_pos hy, addMissing_eq_append ys xs, List.filter_cons_of_neg (by simpa using hy)]
    · have hfilter : ys.filter (fun z => z ∉ xs ++ [y])
          = (ys.filter (fun z => z ∉ xs)).filter (fun z => !z == y) := by
        rw [List.filter_filter]
        refine List.filter_congr (fun z _ => ?_)
        rw [Bool.eq_iff_iff]
        simp [and_comm]
      rw [if_neg hy, addMissing_eq_append ys (xs ++ [y]),
        List.filter_cons_of_pos (by simpa using hy), List.eraseDups_cons, hfilter,
        List.append_assoc, List.singleton_append]

/-- Nothing is added where nothing is missing. -/
theorem addMissing_of_subset {xs ys : List α} (h : ∀ y ∈ ys, y ∈ xs) : addMissing xs ys = xs := by
  have hfilter : ys.filter (fun y => y ∉ xs) = [] :=
    List.filter_eq_nil_iff.mpr (fun y hy => by simpa using h y hy)
  rw [addMissing_eq_append, hfilter]
  exact List.append_nil xs

/-- **What has been added to** is both lists in a row with repeats dropped. -/
theorem addMissing_eq_eraseDups (ys : List α) {xs : List α} (h : xs.Nodup) :
    addMissing xs ys = (xs ++ ys).eraseDups := by
  have hdrop : ys.removeAll xs = ys.filter (fun y => y ∉ xs) :=
    List.filter_congr (fun y _ => by simp)
  rw [addMissing_eq_append, List.eraseDups_append, eraseDups_of_nodup h, hdrop]

end AddMissing

end Store

end AnnotationPlan
