import AnnotationPlan.Proofs.Store.Operations

/-!
# Stores put behind one another

The insertions of a class are made in the store that holds those of all classes before
it. They refer to one another only, so the same could be done in a store of their own,
with numbers that start at zero, and that store be put behind the other
(`Store.append`): its insertions then get the numbers that follow, and so do the numbers
within them (`Insertion.shift`).

Every operation of the library is the same before and after. With the numbers that it is
given moved up it does to the store behind another one what it does to the store by
itself, and fails with the same error where the scene is at fault.

The table of sources is moved in the same way (`Sources.append`). The two tables share no
number if those of the first are below the size of the first store (`Sources.Below`), and
then the pairs of the one come behind those of the other (`Sources.entries_append`).
-/

namespace AnnotationPlan

namespace Insertion

/-- **An insertion with the numbers in it moved up.** -/
def shift (n : Nat) : Insertion → Insertion
  | single text criteria separateLine => single text criteria separateLine
  | cast criteria type separateLine => cast criteria type separateLine
  | closeParenthesis criteria separateLine => closeParenthesis criteria separateLine
  | receiver criteria type inner => receiver criteria type (inner.map (· + n))
  | new criteria type inner => new criteria type (inner.map (· + n))
  | constructor criteria type parameter above =>
    constructor criteria type (parameter.map (· + n)) (above.map (· + n))

@[simp] theorem type?_shift (n : Nat) (i : Insertion) : (i.shift n).type? = i.type? := by
  cases i <;> rfl

/-- Changing the type and moving the numbers do not interfere. -/
theorem mapType_shift (n : Nat) (g : JavaType → JavaType) (i : Insertion) :
    (i.shift n).mapType g = (i.mapType g).shift n := by
  cases i <;> rfl

end Insertion

namespace Store

variable {s₀ s : Store}

/-- **A store behind another one**: its insertions get the numbers that follow. -/
def append (s₀ s : Store) : Store :=
  ⟨s₀.insertions ++ s.insertions.map (Insertion.shift s₀.size)⟩

theorem size_append (s₀ s : Store) : (s₀.append s).size = s.size + s₀.size := by
  unfold append size
  rw [Array.size_append, Array.size_map, Nat.add_comm]

/-- The insertions of the first store keep their numbers. -/
theorem get?_append_of_lt {id : InsertionId} (h : id < s₀.size) (s : Store) :
    (s₀.append s).get? id = s₀.get? id :=
  Array.getElem?_append_left h

/-- The insertions of the second store have theirs moved up. -/
theorem get?_append_add (s₀ s : Store) (id : InsertionId) :
    (s₀.append s).get? (id + s₀.size) = (s.get? id).map (Insertion.shift s₀.size) := by
  have hle : s₀.insertions.size ≤ id + s₀.size := Nat.le_add_left _ _
  unfold append get?
  rw [Array.getElem?_append_right hle, Array.getElem?_map]
  show Option.map _ s.insertions[id + s₀.size - s₀.size]? = _
  rw [Nat.add_sub_cancel]

@[simp] theorem append_empty (s₀ : Store) : s₀.append .empty = s₀ := by
  unfold append empty
  simp

/-! ## The basic operations -/

theorem push_append (s₀ s : Store) (i : Insertion) :
    (s₀.append s).push (i.shift s₀.size) = s₀.append (s.push i) := by
  unfold append push
  rw [Array.map_push, Array.append_push]

/-- A change that does not interfere with moving the numbers. -/
theorem modify_append (s₀ s : Store) (id : InsertionId) {f g : Insertion → Insertion}
    (h : ∀ i, g (i.shift s₀.size) = (f i).shift s₀.size) :
    (s₀.append s).modify (id + s₀.size) g = s₀.append (s.modify id f) := by
  refine ext_get? (fun j => ?_)
  rw [get?_modify]
  rcases Nat.lt_or_ge j s₀.size with hj | hj
  · have hne : ¬ id + s₀.size = j := fun e =>
      Nat.not_lt_of_le (Nat.le_add_left s₀.size id) (e ▸ hj)
    rw [if_neg hne, get?_append_of_lt hj, get?_append_of_lt hj]
  · obtain ⟨k, rfl⟩ := Nat.exists_eq_add_of_le' hj
    rw [get?_append_add, get?_append_add, get?_modify]
    by_cases hk : id = k
    · have hcomp : g ∘ Insertion.shift s₀.size = Insertion.shift s₀.size ∘ f := funext h
      rw [if_pos (congrArg (· + s₀.size) hk), if_pos hk, Option.map_map, Option.map_map, hcomp]
    · rw [if_neg (fun e => hk (Nat.add_right_cancel e)), if_neg hk]

/-- Putting an insertion in the place of another. -/
theorem replace_append (s₀ s : Store) (id : InsertionId) (i : Insertion) :
    (s₀.append s).modify (id + s₀.size) (fun _ => i.shift s₀.size)
      = s₀.append (s.modify id (fun _ => i)) :=
  modify_append s₀ s id (fun _ => rfl)

theorem lookup_append (s₀ s : Store) (id : InsertionId) :
    Carries (Insertion.shift s₀.size) (s.lookup id) ((s₀.append s).lookup (id + s₀.size)) := by
  unfold lookup
  rw [get?_append_add]
  cases s.get? id with
  | none => exact .of_invariant _ _ _
  | some i => exact .pure rfl

/-! ## Gathering operations -/

theorem addTypeAnnotation_append (s₀ s : Store) (id : InsertionId) (text : String) :
    Carries s₀.append ( s.addTypeAnnotation id text)
      ( addTypeAnnotation (s₀.append s) (id + s₀.size) text) := by
  refine (lookup_append s₀ s id).bind (fun i => ?_)
  rw [Insertion.type?_shift]
  cases i.type? with
  | none => exact .of_invariant _ _ _
  | some type => exact .pure (modify_append s₀ s id (Insertion.mapType_shift _ _))

theorem attachDeclaration_append (s₀ s : Store) (constructor declaration : InsertionId) :
    Carries s₀.append (s.attachDeclaration constructor declaration)
      ((s₀.append s).attachDeclaration (constructor + s₀.size) (declaration + s₀.size)) := by
  refine (lookup_append s₀ s constructor).bind (fun i => ?_)
  cases i with
  | constructor criteria type receiver declarations =>
    refine .pure ?_
    rw [← replace_append, Insertion.shift, List.map_append, List.map_singleton]
  | _ => exact .of_invariant _ _ _

/-- **Merging two receivers** of the second store. -/
theorem attachReceiver_append (s₀ s : Store) (constructor receiver : InsertionId) :
    Carries (Prod.map s₀.append (· + s₀.size)) (s.attachReceiver constructor receiver)
      ((s₀.append s).attachReceiver (constructor + s₀.size) (receiver + s₀.size)) := by
  refine (lookup_append s₀ s constructor).bind (fun i => ?_)
  cases i with
  | constructor criteria type parameter declarations =>
    cases parameter with
    | none =>
      exact .pure (congrArg (·, receiver + s₀.size) (replace_append s₀ s constructor
        (.constructor criteria type (some receiver) declarations)))
    | some kept =>
      dsimp only [Insertion.shift, Option.map_some]
      by_cases hkept : kept = receiver
      · rw [if_pos hkept, if_pos (congrArg (· + s₀.size) hkept)]
        exact .pure rfl
      · rw [if_neg hkept, if_neg (fun e => hkept (Nat.add_right_cancel e))]
        refine (lookup_append s₀ s receiver).bind (fun j => ?_)
        cases j with
        | receiver place added inner =>
          dsimp only [Insertion.shift]
          rw [get?_append_add]
          cases s.get? kept with
          | none => exact .of_invariant _ _ _
          | some k =>
            cases k with
            | receiver keptCriteria keptType keptInner =>
              refine .pure (congrArg (·, kept + s₀.size) ?_)
              rw [← replace_append, Insertion.shift, addMissing_map Nat.add_right_cancel]
            | _ => exact .of_invariant _ _ _
        | _ => exact .of_invariant _ _ _
  | _ => exact .of_invariant _ _ _

theorem pushReceiver_append (s₀ s : Store) (text : Option String) (criteria : CriteriaList)
    (inner : List InsertionId) :
    (s₀.append s).pushReceiver text criteria (inner.map (· + s₀.size))
      = s₀.append (s.pushReceiver text criteria inner) :=
  push_append s₀ s (.receiver criteria (annotated text .unnamed) inner)

theorem pushNew_append (s₀ s : Store) (text : Option String) (criteria : CriteriaList)
    (inner : List InsertionId) :
    (s₀.append s).pushNew text criteria (inner.map (· + s₀.size))
      = s₀.append (s.pushNew text criteria inner) :=
  push_append s₀ s (.new criteria (annotated text .unnamed) inner)

theorem pushConstructor_append (s₀ s : Store) (criteria : CriteriaList) :
    Carries s₀.append (s.pushConstructor criteria) ((s₀.append s).pushConstructor criteria) := by
  unfold pushConstructor
  cases criteria.compose.className? with
  | none => exact .of_invariant _ _ _
  | some name =>
    exact .pure (push_append s₀ s (.constructor criteria (.named (Name.simple name)) none []))

/-- What is written into a cast is the same. -/
theorem decorate_append (s₀ s : Store) (criteria : CriteriaList) (whole : JavaType) :
    ∀ (ids : List InsertionId) (t : JavaType),
      Carries id (s.decorate criteria whole ids t)
        ((s₀.append s).decorate criteria whole (ids.map (· + s₀.size)) t)
  | [], _ => .pure rfl
  | j :: rest, t => by
    rw [List.map_cons, decorate, decorate, get?_append_add]
    cases s.get? j with
    | none => exact .of_invariant _ _ _
    | some i =>
      cases i with
      | single text place separateLine =>
        dsimp only [Option.map_some, Insertion.shift]
        cases place.compose.typePath? with
        | none => exact .of_invariant _ _ _
        | some path =>
          dsimp only
          cases t.annotateAt? path text with
          | none => exact fun _ => rfl
          | some t' => exact decorate_append s₀ s criteria whole rest t'
      | _ => exact .of_invariant _ _ _

theorem pushCast_append (s₀ s : Store) (type : JavaType) (text : Option String)
    (inner : List InsertionId) (criteria : CriteriaList) :
    Carries s₀.append (s.pushCast type text inner criteria)
      ((s₀.append s).pushCast type text (inner.map (· + s₀.size)) criteria) := by
  refine (decorate_append s₀ s criteria type inner (annotated text type)).bind
    (fun decorated => .pure ?_)
  rw [← push_append s₀ _ (.closeParenthesis criteria false),
    ← push_append s₀ s (.cast criteria _ false)]
  rfl

end Store

namespace Sources

variable {s₀ : Sources} {n : Nat}

/-- **Sources of insertions below a number** only. -/
def Below (s : Sources) (n : Nat) : Prop :=
  ∀ id ∈ s.byInsertion.keys, id < n

theorem Below.mono {m : Nat} (h : s₀.Below n) (hle : n ≤ m) : s₀.Below m :=
  fun id hid => Nat.lt_of_lt_of_le (h id hid) hle

/-- Recording where an insertion below the number comes from. -/
theorem Below.put (h : s₀.Below n) {id : InsertionId} (hid : id < n) (u : AnnotationUse) :
    (s₀.put id u).Below n := by
  intro j hj
  rw [Sources.put, OrderedMap.keys_alter] at hj
  split at hj
  case isTrue => exact h j hj
  case isFalse =>
    rcases List.mem_append.mp hj with hj | hj
    · exact h j hj
    · exact List.mem_singleton.mp hj ▸ hid

/-- Recording several annotation uses for an insertion below the number. -/
theorem Below.puts {id : InsertionId} (hid : id < n) :
    ∀ (uses : List AnnotationUse) {s₀ : Sources}, s₀.Below n →
      (uses.foldl (Sources.put · id) s₀).Below n
  | [], _, h => h
  | u :: rest, _, h => puts hid rest (h.put hid u)

/-- **Sources behind others**: those of insertions that have their numbers moved up. -/
def append (s₀ : Sources) (n : Nat) (s : Sources) : Sources :=
  ⟨.ofList (s₀.byInsertion.entries ++ s.byInsertion.entries.map (Prod.map (· + n) id))⟩

/-- No insertion that was moved up is among those below. -/
theorem Below.notMem (h : s₀.Below n) (id : InsertionId) :
    id + n ∉ s₀.byInsertion.entries.map Prod.fst :=
  fun hid => Nat.not_lt_of_le (Nat.le_add_left n id) (h _ hid)

/-- **Put behind one another** the tables are in a row. -/
theorem entries_append (h : s₀.Below n) (s : Sources) :
    (s₀.append n s).byInsertion.entries
      = s₀.byInsertion.entries ++ s.byInsertion.entries.map (Prod.map (· + n) id) := by
  refine OrderedMap.entries_ofList ?_
  rw [List.map_append, List.map_map]
  refine List.nodup_append.mpr ⟨s₀.byInsertion.distinct, ?_, ?_⟩
  · have hkeys : Prod.fst ∘ Prod.map (· + n) id
        = (· + n) ∘ (Prod.fst : InsertionId × List AnnotationUse → InsertionId) := rfl
    rw [hkeys, ← List.map_map]
    exact List.Pairwise.map (· + n) (fun _ _ hne he => hne (Nat.add_right_cancel he))
      s.byInsertion.distinct
  · intro j hj k hk hjk
    obtain ⟨e, -, he⟩ := List.mem_map.mp hk
    have hkey : e.1 + n = j := he.trans hjk.symm
    exact h.notMem e.1 (hkey ▸ hj)

@[simp] theorem append_empty (s₀ : Sources) (n : Nat) : s₀.append n .empty = s₀ := by
  refine congrArg Sources.mk (OrderedMap.ext ?_)
  show (OrderedMap.ofList (s₀.byInsertion.entries ++ [])).entries = _
  rw [List.append_nil]
  exact OrderedMap.entries_ofList s₀.byInsertion.distinct

/-- Recording where an insertion of the second table comes from. -/
theorem put_append (h : s₀.Below n) (s : Sources) (id : InsertionId) (u : AnnotationUse) :
    (s₀.append n s).put (id + n) u = s₀.append n (s.put id u) := by
  refine congrArg Sources.mk (OrderedMap.ext ?_)
  show Entries.alter (id + n) _ (s₀.append n s).byInsertion.entries
    = (s₀.append n (s.put id u)).byInsertion.entries
  rw [entries_append h, entries_append h, Entries.alter_append _ (h.notMem id),
    Entries.alter_map Nat.add_right_cancel]
  rfl

/-- Recording several annotation uses for an insertion of the second table. -/
theorem puts_append (h : s₀.Below n) (id : InsertionId) :
    ∀ (uses : List AnnotationUse) (s : Sources),
      uses.foldl (Sources.put · (id + n)) (s₀.append n s)
        = s₀.append n (uses.foldl (Sources.put · id) s)
  | [], _ => rfl
  | u :: rest, s => by
    rw [List.foldl_cons, put_append h, puts_append h id rest, List.foldl_cons]

/-- Looking up where an insertion of the second table comes from. -/
theorem get_append (h : s₀.Below n) (s : Sources) (id : InsertionId) :
    (s₀.append n s).get (id + n) = s.get id := by
  unfold get OrderedMap.find?
  rw [entries_append h, Entries.find?_append (h.notMem id), Entries.find?_map Nat.add_right_cancel]

end Sources

end AnnotationPlan
