import AnnotationPlan.Proofs.Store.Operations
import AnnotationPlan.Report.Response
import Mathlib.Data.List.Perm.Subperm
import Mathlib.Logic.Relation

/-!
# Insertions that refer to one another

A constructor refers to its receiver and to the annotations above it, a receiver and a
created object to the annotations within their types. Texts and records follow these
references, and they do so over a bounded number of steps only, since nothing in a
store itself forbids a circle.

Where there is none, the bound is never reached (`Store.within_of_acyclic`): the
insertions on the way to a reference are all different, so there are no more of them
than the store holds. Then every insertion has a text, and every plan an answer.
-/

namespace AnnotationPlan

/-- **What an insertion refers to.** -/
def Insertion.references (i : Insertion) : List InsertionId :=
  i.inner ++ i.receiver?.toList ++ i.declarations

namespace Store

variable {s : Store}

/-- **One insertion refers to another.** -/
def Refers (s : Store) (a b : InsertionId) : Prop :=
  ∃ i, s.get? a = some i ∧ b ∈ i.references

/-- **Nothing is missing**: what an insertion refers to is in the store. -/
def Closed (s : Store) : Prop := ∀ a b, s.Refers a b → b < s.size

/-- **There is no circle**: no insertion is reached from itself. -/
def Acyclic (s : Store) : Prop := ∀ a, ¬ Relation.TransGen s.Refers a a

/-- Different numbers of insertions are no more than there are insertions. -/
theorem length_le_size {path : List InsertionId} (hdistinct : path.Nodup)
    (hbound : ∀ a ∈ path, a < s.size) : path.length ≤ s.size := by
  have hsub : path ⊆ List.range s.size := fun a ha => List.mem_range.mpr (hbound a ha)
  have hle := (List.subperm_of_subset hdistinct hsub).length_le
  rwa [List.length_range] at hle

/-- The insertions on the way to a reference make up for the steps already taken. -/
theorem within_of_path (hclosed : s.Closed) (hacyclic : s.Acyclic)
    {P : Nat → InsertionId → Prop}
    (hstep : ∀ n id, id < s.size → (∀ b, s.Refers id b → P n b) → P (n + 1) id) :
    ∀ (n : Nat) (path : List InsertionId) (id : InsertionId), id < s.size → path.Nodup →
      (∀ a ∈ path, a < s.size ∧ Relation.TransGen s.Refers a id) →
      s.size ≤ n + path.length → P n id := by
  intro n
  -- the induction is on the steps left; `path` is where the earlier ones led
  induction n with
  | zero =>
    -- with no step left the path and `id` would be more numbers than there are
    intro path id hid hdistinct hpath hlen
    have hnew : id ∉ path := fun hmem => hacyclic id (hpath id hmem).2
    have hle : (id :: path).length ≤ s.size :=
      length_le_size (List.nodup_cons.mpr ⟨hnew, hdistinct⟩)
        (List.forall_mem_cons.mpr ⟨hid, fun a ha => (hpath a ha).1⟩)
    rw [List.length_cons] at hle
    omega
  | succ n ih =>
    intro path id hid hdistinct hpath hlen
    have hnew : id ∉ path := fun hmem => hacyclic id (hpath id hmem).2
    refine hstep n id hid (fun b hb => ?_)
    refine ih (id :: path) b (hclosed id b hb) (List.nodup_cons.mpr ⟨hnew, hdistinct⟩) ?_ ?_
    · refine List.forall_mem_cons.mpr ⟨⟨hid, .single hb⟩, fun a ha => ?_⟩
      exact ⟨(hpath a ha).1, (hpath a ha).2.tail hb⟩
    · rw [List.length_cons]
      omega

/-- **Insertions that refer to one another without a circle do so over fewer steps than
there are insertions.** So what holds after some number of steps because it holds for
all references after one step less, holds after as many steps as there are
insertions. -/
theorem within_of_acyclic (hclosed : s.Closed) (hacyclic : s.Acyclic)
    {P : Nat → InsertionId → Prop}
    (hstep : ∀ n id, id < s.size → (∀ b, s.Refers id b → P n b) → P (n + 1) id)
    {id : InsertionId} (hid : id < s.size) : P (s.size + 1) id :=
  within_of_path hclosed hacyclic hstep (s.size + 1) [] id hid List.nodup_nil
    (fun _ ha => absurd ha List.not_mem_nil) (by rw [List.length_nil]; omega)

/-! ## Texts and records -/

/-- Every receiver is inside a class, whose name its text needs. -/
def ReceiversInClass (s : Store) : Prop :=
  ∀ id criteria type inner, s.get? id = some (.receiver criteria type inner) →
    criteria.compose.isInClass = true

/-- A place that is in a class has the name of that class. -/
theorem exists_className? {criteria : Criteria} (h : criteria.isInClass = true) :
    ∃ className, criteria.className? = some className :=
  Option.isSome_iff_exists.mp h

/-- **Every insertion has a text**, unless insertions refer to one another in a circle. -/
theorem exists_render (hclosed : s.Closed) (hacyclic : s.Acyclic)
    (hreceivers : s.ReceiversInClass) {id : InsertionId} (hid : id < s.size) :
    ∃ text, s.render id = .ok text := by
  refine within_of_acyclic (P := fun n id => ∃ text, s.renderWithin n id = .ok text)
    hclosed hacyclic (fun n id hid ih => ?_) hid
  obtain ⟨i, hi⟩ := exists_get? hid
  rw [renderWithin, lookup_eq_ok.mpr hi]
  cases i with
  | single text criteria separateLine => exact ⟨text, rfl⟩
  | cast criteria type separateLine => exact ⟨_, rfl⟩
  | closeParenthesis criteria separateLine => exact ⟨_, rfl⟩
  | new criteria type inner => exact ⟨_, rfl⟩
  | receiver criteria type inner =>
    obtain ⟨className, hclass⟩ := exists_className? (hreceivers id criteria type inner hi)
    refine ⟨receiverText type.text className, ?_⟩
    simp only [Bind.bind, Except.bind]
    rw [hclass]
    rfl
  | constructor criteria type receiver declarations =>
    obtain ⟨above, habove⟩ : ∃ above, declarations.mapM (s.renderWithin n) = .ok above :=
      exists_mapM_ok (fun d hd => ih d ⟨_, hi, List.mem_append_right _ hd⟩)
    simp only [Bind.bind, Except.bind]
    rw [habove]
    cases receiver with
    | none => exact ⟨_, rfl⟩
    | some r =>
      obtain ⟨parameter, hparameter⟩ := ih r ⟨_, hi, by simp [Insertion.references,
        Insertion.receiver?]⟩
      dsimp only
      rw [hparameter]
      exact ⟨_, rfl⟩

end Store

namespace Plan

variable {p : Plan}

/-- **Every insertion has a record**, unless insertions refer to one another in a
circle. -/
theorem exists_record (hclosed : p.store.Closed) (hacyclic : p.store.Acyclic)
    (hreceivers : p.store.ReceiversInClass) {id : InsertionId} (hid : id < p.store.size) :
    ∃ record, p.record id = .ok record := by
  refine Store.within_of_acyclic (P := fun n id => ∃ record, p.recordWithin n id = .ok record)
    hclosed hacyclic (fun n id hid ih => ?_) hid
  obtain ⟨i, hi⟩ := Store.exists_get? hid
  obtain ⟨text, htext⟩ := Store.exists_render hclosed hacyclic hreceivers hid
  obtain ⟨inner, hinner⟩ : ∃ inner, i.inner.mapM (p.recordWithin n) = .ok inner :=
    exists_mapM_ok (fun b hb => ih b ⟨i, hi, by simp [Insertion.references, hb]⟩)
  rw [recordWithin, Store.lookup_eq_ok.mpr hi]
  simp only [Bind.bind, Except.bind]
  rw [hinner]
  cases i with
  | constructor criteria type receiver declarations =>
    obtain ⟨above, habove⟩ : ∃ above, declarations.mapM (p.recordWithin n) = .ok above :=
      exists_mapM_ok (fun d hd => ih d ⟨_, hi, List.mem_append_right _ hd⟩)
    cases receiver with
    | none =>
      simp only [Pure.pure, Except.pure, habove, htext]
      exact ⟨_, rfl⟩
    | some r =>
      obtain ⟨parameter, hparameter⟩ := ih r ⟨_, hi, by simp [Insertion.references,
        Insertion.receiver?]⟩
      simp only [Pure.pure, Except.pure, hparameter, habove, htext]
      exact ⟨_, rfl⟩
  | _ =>
    simp only [Pure.pure, Except.pure, htext]
    exact ⟨_, rfl⟩

/-- **Every plan has an answer**, unless insertions refer to one another in a circle. -/
theorem exists_response (hclosed : p.store.Closed) (hacyclic : p.store.Acyclic)
    (hreceivers : p.store.ReceiversInClass) (horder : ∀ id ∈ p.order, id < p.store.size) :
    ∃ v, p.response = .ok v := by
  obtain ⟨records, hrecords⟩ : ∃ records, p.records = .ok records :=
    exists_mapM_ok (fun id hid => exists_record hclosed hacyclic hreceivers (horder id hid))
  rw [response, hrecords]
  exact ⟨_, rfl⟩

end Plan

end AnnotationPlan
