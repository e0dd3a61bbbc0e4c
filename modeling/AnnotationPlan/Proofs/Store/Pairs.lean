import AnnotationPlan.Proofs.Store.Wiring

/-!
# Casts and their parentheses

A cast is written in two pieces, the opening and the parenthesis that closes it, and
source text with one piece and not the other does not compile. The two are made together
and get two numbers in a row, and from then on they are moved together: a list of
insertions that is put somewhere is **paired** (`Store.Paired`) if it is made up of casts
with their parentheses and of other insertions. Lists of this kind can be put behind one
another, and the piece next to a cast or before a parenthesis can be read off them
(`Store.Paired.sideBySide`).
-/

namespace AnnotationPlan

namespace Insertion

/-- The opening of a cast. -/
def IsCast : Insertion → Prop
  | .cast .. => True
  | _ => False

/-- A parenthesis that closes a cast. -/
def IsParenthesis : Insertion → Prop
  | .closeParenthesis .. => True
  | _ => False

/-- An insertion that is no piece of a cast. -/
def IsWhole (i : Insertion) : Prop := ¬ i.IsCast ∧ ¬ i.IsParenthesis

/-- **A parenthesis closes a cast**: it goes to the same place, and it is on a line of its
own only if the cast is. -/
structure Closes (j i : Insertion) : Prop where
  /-- The first one is a parenthesis. -/
  isParenthesis : j.IsParenthesis
  /-- The second one is a cast. -/
  isCast : i.IsCast
  /-- They go to the same place. -/
  criteria_eq : j.criteria = i.criteria
  /-- They agree on whether they are on lines of their own. -/
  separateLine_eq : j.separateLine = i.separateLine

/-- Single annotations are no pieces of casts. -/
theorem IsSingle.isWhole {i : Insertion} (h : i.IsSingle) : i.IsWhole := by
  cases i with
  | single text criteria separateLine => exact ⟨fun h => h, fun h => h⟩
  | _ => exact h.elim

theorem Grows.isWhole {i j : Insertion} (h : i.Grows j) (hi : i.IsWhole) : j.IsWhole := by
  cases h <;> exact hi

end Insertion

open Insertion

namespace Store

variable {s s' : Store} {ids more : List InsertionId} {c j k : InsertionId}

/-- **The insertion after a cast closes it.** -/
def ClosedNext (s : Store) (c : InsertionId) : Prop :=
  ∃ i j, s.get? c = some i ∧ s.get? (c + 1) = some j ∧ j.Closes i

/-- **A list in which every cast is together with its parenthesis.** -/
inductive Paired (s : Store) : List InsertionId → Prop
  /-- Nothing is. -/
  | nil : s.Paired []
  /-- So is an insertion that is no piece of a cast, and then such a list. -/
  | whole {id : InsertionId} {rest : List InsertionId} (kind : s.Has IsWhole id)
      (paired : s.Paired rest) : s.Paired (id :: rest)
  /-- So is a cast with its parenthesis, and then such a list. -/
  | pair {id : InsertionId} {rest : List InsertionId} {criteria : CriteriaList}
      {type : JavaType} {separateLine : Bool}
      (opening : s.get? id = some (.cast criteria type separateLine))
      (closing : s.get? (id + 1) = some (.closeParenthesis criteria separateLine))
      (paired : s.Paired rest) : s.Paired (id :: (id + 1) :: rest)

namespace Paired

/-- Insertions that are no pieces of casts are a list of this kind. -/
theorem of_whole : ∀ {ids : List InsertionId}, (∀ j ∈ ids, s.Has IsWhole j) → s.Paired ids
  | [], _ => .nil
  | _ :: _, h =>
    .whole (h _ List.mem_cons_self) (of_whole (fun j hj => h j (List.mem_cons_of_mem _ hj)))

/-- **Such lists can be put behind one another.** -/
theorem append (h : s.Paired ids) (h' : s.Paired more) : s.Paired (ids ++ more) := by
  induction h with
  | nil => exact h'
  | whole kind _ ih => exact .whole kind ih
  | pair opening closing _ ih => exact .pair opening closing ih

/-- They remain so when the store grows. -/
theorem grows (h : s.Paired ids) (hgrows : s.Grows s') : s'.Paired ids := by
  induction h with
  | nil => exact .nil
  | whole kind _ ih => exact .whole (kind.grows hgrows (fun _ _ hg hi => hg.isWhole hi)) ih
  | pair opening closing _ ih =>
    obtain ⟨type', hcast, -⟩ := hgrows.get?_cast opening
    obtain ⟨j, hj, hgrown⟩ := hgrows _ _ closing
    cases hgrown
    exact .pair hcast hj ih

/-- Their members are in the store. -/
theorem lt_size (h : s.Paired ids) : ∀ j ∈ ids, j < s.size := by
  induction h with
  | nil => exact fun j hj => absurd hj List.not_mem_nil
  | whole kind _ ih => exact List.forall_mem_cons.mpr ⟨kind.lt_size, ih⟩
  | pair opening closing _ ih =>
    refine List.forall_mem_cons.mpr ⟨Store.lt_size opening, ?_⟩
    exact List.forall_mem_cons.mpr ⟨Store.lt_size closing, ih⟩

end Paired

/-- **Casts and parentheses stand side by side** in a list: the next member after a cast
is its parenthesis, and the one before a parenthesis is its cast. -/
structure SideBySide (s : Store) (ids : List InsertionId) : Prop where
  /-- The next member after a cast is its parenthesis. -/
  next : ∀ n c, ids[n]? = some c → s.Has IsCast c →
    ids[n + 1]? = some (c + 1) ∧ s.ClosedNext c
  /-- The member before a parenthesis is its cast. -/
  previous : ∀ n j, ids[n]? = some j → s.Has IsParenthesis j →
    ∃ m c, n = m + 1 ∧ j = c + 1 ∧ ids[m]? = some c ∧ s.ClosedNext c

/-- Two facts about one insertion that exclude one another. -/
theorem Has.elim {P Q : Insertion → Prop} (h : s.Has P j) (h' : s.Has Q j)
    (hPQ : ∀ i, P i → Q i → False) : False := by
  obtain ⟨i, hi, hP⟩ := h
  obtain ⟨k, hk, hQ⟩ := h'
  obtain rfl := Option.some.inj (hi.symm.trans hk)
  exact hPQ i hP hQ

/-- **In a paired list casts and parentheses stand side by side.** -/
theorem Paired.sideBySide (h : s.Paired ids) : s.SideBySide ids := by
  induction h with
  | nil => exact ⟨fun n c hc => by simp at hc, fun n j hj => by simp at hj⟩
  | @whole id rest kind paired ih =>
    constructor
    · rintro (_ | n) c hc hkind
      · obtain rfl := Option.some.inj hc
        exact (kind.elim hkind (fun _ h h' => h.1 h')).elim
      · exact ih.next n c hc hkind
    · rintro (_ | n) j hj hkind
      · obtain rfl := Option.some.inj hj
        exact (kind.elim hkind (fun _ h h' => h.2 h')).elim
      · obtain ⟨m, c, rfl, rfl, hm, hclosed⟩ := ih.previous n j hj hkind
        exact ⟨m + 1, c, rfl, rfl, hm, hclosed⟩
  | @pair id rest criteria type separateLine opening closing paired ih =>
    have hclosed : s.ClosedNext id := ⟨_, _, opening, closing, trivial, trivial, rfl, rfl⟩
    have hcast : s.Has IsCast id := ⟨_, opening, trivial⟩
    have hclosing : s.Has IsParenthesis (id + 1) := ⟨_, closing, trivial⟩
    have hdiffer : ∀ i : Insertion, i.IsCast → i.IsParenthesis → False := fun i h h' => by
      cases i <;> first | exact h | exact h'
    constructor
    · rintro (_ | _ | n) c hc hkind
      · obtain rfl := Option.some.inj hc
        exact ⟨rfl, hclosed⟩
      · obtain rfl := Option.some.inj hc
        exact (hkind.elim hclosing hdiffer).elim
      · exact ih.next n c hc hkind
    · rintro (_ | _ | n) j hj hkind
      · obtain rfl := Option.some.inj hj
        exact (hcast.elim hkind hdiffer).elim
      · obtain rfl := Option.some.inj hj
        exact ⟨0, id, rfl, rfl, rfl, hclosed⟩
      · obtain ⟨m, c, rfl, rfl, hm, hclosed'⟩ := ih.previous n j hj hkind
        exact ⟨m + 1 + 1, c, rfl, rfl, hm, hclosed'⟩

end Store

end AnnotationPlan
