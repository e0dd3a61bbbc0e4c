import AnnotationPlan.Criteria.Basic
import Mathlib.Data.List.Induction

/-!
# What criteria mean together

Composed criteria hold one criterion of each kind, the last one that was added, at the place
where the kind first came up. So narrowing a place by a criterion changes the answer to a
question only if the question reads that kind, and the questions each read one or two kinds
(`Criteria.Reads`).

For a sequence of criteria this says what the list that is made of it is, and what it is
composed to (`CriteriaList.compose_ofList`): the kinds in the order in which they first occur
in the sequence, and of each kind the last criterion (`Criterion.last?`).
-/

namespace AnnotationPlan

namespace OrderedMap

/-- A map after storing a value: the value at its key, and nothing else new. -/
theorem find?_insert {κ ν : Type} [DecidableEq κ] (m : OrderedMap κ ν) (k j : κ) (v : ν) :
    (m.insert k v).find? j = if j = k then some v else m.find? j := by
  by_cases h : j = k
  · subst h
    rw [if_pos rfl, find?_insert_self]
  · rw [if_neg h, find?_insert_of_ne m h]

end OrderedMap

/-! ## Questions -/

namespace Criteria

/-- **A question reads some kinds only**: criteria that have the same criteria of these kinds
answer it alike. -/
def Reads {α : Type} (question : Criteria → α) (kinds : List CriterionKind) : Prop :=
  ∀ cs ds : Criteria, (∀ k ∈ kinds, cs.get? k = ds.get? k) → question cs = question ds

theorem className?_reads : Reads className? [.inClass, .isClass] := by
  intro cs ds h
  simp only [className?, h .inClass (by simp), h .isClass (by simp)]

theorem method?_reads : Reads method? [.inMethod] := by
  intro cs ds h
  simp only [method?, h .inMethod (by simp)]

theorem typePath?_reads : Reads typePath? [.atLocation] := by
  intro cs ds h
  simp only [typePath?, h .atLocation (by simp)]

theorem astPath?_reads : Reads astPath? [.astPath] := by
  intro cs ds h
  simp only [astPath?, h .astPath (by simp)]

theorem isOnReceiver_reads : Reads isOnReceiver [.receiver] := by
  intro cs ds h
  simp only [isOnReceiver, h .receiver (by simp)]

theorem isOnNew_reads : Reads isOnNew [.new] := by
  intro cs ds h
  simp only [isOnNew, h .new (by simp)]

theorem isOnReturnType_reads : Reads isOnReturnType [.returnType] := by
  intro cs ds h
  simp only [isOnReturnType, h .returnType (by simp)]

theorem hasTypePath_reads : Reads hasTypePath [.atLocation] := by
  intro cs ds h
  simp only [hasTypePath, typePath?_reads cs ds h]

/-- Both the path in the syntax tree and the receiver count. -/
theorem targetsReceiver_reads : Reads targetsReceiver [.astPath, .receiver] := by
  intro cs ds h
  have hpath := astPath?_reads cs ds (fun k hk => h k (by simp_all))
  have hreceiver := isOnReceiver_reads cs ds (fun k hk => h k (by simp_all))
  rw [targetsReceiver, targetsReceiver, hpath, hreceiver]

/-- Both the path in the syntax tree and the creation count. -/
theorem targetsNew_reads : Reads targetsNew [.astPath, .new] := by
  intro cs ds h
  have hpath := astPath?_reads cs ds (fun k hk => h k (by simp_all))
  have hnew := isOnNew_reads cs ds (fun k hk => h k (by simp_all))
  rw [targetsNew, targetsNew, hpath, hnew]

theorem targetsImplicitConstructor_reads : Reads targetsImplicitConstructor [.inMethod] := by
  intro cs ds h
  rw [targetsImplicitConstructor, targetsImplicitConstructor, method?_reads cs ds h]

end Criteria

/-! ## One more criterion -/

namespace CriteriaList

/-- **Composing a narrowed place** adds the criterion to what was composed before. -/
theorem compose_add (l : CriteriaList) (c : Criterion) :
    (l.add c).compose = l.compose.add c := by
  unfold compose
  rw [toList_add, List.foldl_append]
  rfl

/-- **The criterion of a kind after narrowing the place**: the new one if it is of
that kind, and the old one otherwise. -/
theorem get?_compose_add (l : CriteriaList) (c : Criterion) (k : CriterionKind) :
    (l.add c).compose.get? k = if k = c.kind then some c else l.compose.get? k := by
  rw [compose_add]
  exact OrderedMap.find?_insert _ _ _ _

end CriteriaList

/-- **A criterion of a kind that a question does not read** does not change the answer. -/
theorem Criteria.Reads.compose_add {α : Type} {question : Criteria → α}
    {kinds : List CriterionKind} (h : Reads question kinds) {c : Criterion}
    (hc : c.kind ∉ kinds) (l : CriteriaList) :
    question (l.add c).compose = question l.compose := by
  refine h _ _ (fun k hk => ?_)
  have hne : k ≠ c.kind := fun hkind => hc (hkind ▸ hk)
  rw [CriteriaList.get?_compose_add, if_neg hne]

namespace CriteriaList

variable {l : CriteriaList} {c : Criterion}

/-- Only classes decide which class the place is in. -/
theorem className?_add (h : c.kind ≠ .inClass) (h' : c.kind ≠ .isClass) :
    (l.add c).compose.className? = l.compose.className? :=
  Criteria.className?_reads.compose_add (by simp [h, h']) l

/-- Only result types decide whether the place is on one. -/
theorem isOnReturnType_add (h : c.kind ≠ .returnType) :
    (l.add c).compose.isOnReturnType = l.compose.isOnReturnType :=
  Criteria.isOnReturnType_reads.compose_add (by simp [h]) l

/-- Only methods decide which method the place is in. -/
theorem method?_add (h : c.kind ≠ .inMethod) :
    (l.add c).compose.method? = l.compose.method? :=
  Criteria.method?_reads.compose_add (by simp [h]) l

/-- Only positions have a path into a type. -/
theorem typePath?_add (h : c.kind ≠ .atLocation) :
    (l.add c).compose.typePath? = l.compose.typePath? :=
  Criteria.typePath?_reads.compose_add (by simp [h]) l

/-- Only creations decide whether the place is on one. -/
theorem isOnNew_add (h : c.kind ≠ .new) :
    (l.add c).compose.isOnNew = l.compose.isOnNew :=
  Criteria.isOnNew_reads.compose_add (by simp [h]) l

/-- The path in the syntax tree is the last one. -/
theorem astPath?_add_astPath (l : CriteriaList) (path : AstPath) :
    (l.add (.astPath path)).compose.astPath? = some path := by
  simp only [Criteria.astPath?, get?_compose_add, Criterion.kind, if_true]

/-- The path into a type is that of the last position. -/
theorem typePath?_add_atLocation (l : CriteriaList) (path : TypePath) :
    (l.add (.atLocation path)).compose.typePath? = some path := by
  simp only [Criteria.typePath?, get?_compose_add, Criterion.kind, if_true]

end CriteriaList

/-! ## A sequence of criteria -/

namespace Criterion

/-- **The last criterion of a kind** in a sequence. -/
def last? (cs : List Criterion) (k : CriterionKind) : Option Criterion :=
  (cs.filter (fun c => c.kind = k)).getLast?

theorem last?_snoc (cs : List Criterion) (c : Criterion) (k : CriterionKind) :
    last? (cs ++ [c]) k = if k = c.kind then some c else last? cs k := by
  by_cases h : c.kind = k
  · simp [last?, h]
  · rw [if_neg (Ne.symm h)]
    simp [last?, h]

/-- The last criterion of a kind is of the kind. -/
theorem kind_of_last? {cs : List Criterion} {k : CriterionKind} {c : Criterion}
    (h : last? cs k = some c) : c.kind = k := by
  have hmem := List.mem_of_getLast? h
  exact of_decide_eq_true (List.mem_filter.mp hmem).2

/-- **Two sequences end alike in some kinds**: they have the same last criterion of each. -/
def EndAlike (kinds : List CriterionKind) (cs ds : List Criterion) : Prop :=
  ∀ k ∈ kinds, last? cs k = last? ds k

instance (kinds : List CriterionKind) (cs ds : List Criterion) :
    Decidable (EndAlike kinds cs ds) :=
  inferInstanceAs (Decidable (∀ k ∈ kinds, _))

end Criterion

namespace CriteriaList

open Criterion (last? EndAlike)

variable (cs : List Criterion)

theorem ofList_snoc (c : Criterion) : ofList (cs ++ [c]) = (ofList cs).add c :=
  List.foldl_append

/-- **The criteria are gone through in the order in which they were added.** -/
theorem toList_ofList : (ofList cs).toList = cs := by
  induction cs using List.reverseRecOn with
  | nil => rfl
  | append_singleton cs c ih => rw [ofList_snoc, toList_add, ih]

/-- **All criteria are counted.** -/
theorem length_ofList : (ofList cs).length = cs.length := by
  rw [(ofList cs).counted, ← List.length_reverse]
  exact congrArg List.length (toList_ofList cs)

/-- The criterion of a kind is the last one. -/
theorem get?_compose_ofList (k : CriterionKind) : (ofList cs).compose.get? k = last? cs k := by
  induction cs using List.reverseRecOn with
  | nil => rfl
  | append_singleton cs c ih => rw [ofList_snoc, get?_compose_add, Criterion.last?_snoc, ih]

/-- What comes last is a new first occurrence only if it did not occur before. -/
theorem eraseDups_snoc {α : Type} [DecidableEq α] (xs : List α) (x : α) :
    (xs ++ [x]).eraseDups = if x ∈ xs then xs.eraseDups else xs.eraseDups ++ [x] := by
  rw [List.eraseDups_append]
  by_cases h : x ∈ xs <;> simp [List.removeAll, h, List.eraseDups_cons]

/-- The kinds come in the order in which they first occur. -/
theorem keys_compose_ofList :
    (ofList cs).compose.byKind.keys = (cs.map Criterion.kind).eraseDups := by
  induction cs using List.reverseRecOn with
  | nil => rfl
  | append_singleton cs c ih =>
    rw [ofList_snoc, compose_add, List.map_append, List.map_singleton, eraseDups_snoc]
    refine (OrderedMap.keys_alter _ _ _).trans ?_
    simp only [ih, List.mem_eraseDups]

/-- What is held for a kind is the last criterion of this kind. -/
theorem mem_entries_compose_ofList {k : CriterionKind} {c : Criterion} :
    (k, c) ∈ (ofList cs).compose.byKind.entries ↔ last? cs k = some c := by
  rw [← get?_compose_ofList]
  exact ⟨Entries.find?_of_mem (ofList cs).compose.byKind.distinct, Entries.mem_of_find?⟩

/-- **One criterion of each kind**, in the order in which the kinds first occur. -/
theorem kinds_compose_ofList :
    (ofList cs).compose.toList.map Criterion.kind = (cs.map Criterion.kind).eraseDups := by
  rw [← keys_compose_ofList, Criteria.toList, OrderedMap.values, OrderedMap.keys, List.map_map]
  refine List.map_congr_left (fun e he => ?_)
  exact Criterion.kind_of_last? ((mem_entries_compose_ofList cs).mp he)

/-- **The criterion of each kind is the last one.** -/
theorem mem_compose_ofList {c : Criterion} :
    c ∈ (ofList cs).compose.toList ↔ last? cs c.kind = some c := by
  refine ⟨fun hc => ?_, fun hc => ?_⟩
  · obtain ⟨⟨k, _⟩, hentry, rfl⟩ := List.mem_map.mp hc
    have hlast := (mem_entries_compose_ofList cs).mp hentry
    rwa [Criterion.kind_of_last? hlast]
  · exact List.mem_map.mpr ⟨_, (mem_entries_compose_ofList cs).mpr hc, rfl⟩

variable {cs} {ds : List Criterion}

/-- **A question depends on the last criteria** of the kinds that it reads. -/
theorem answer_congr {α : Type} {question : Criteria → α} {kinds : List CriterionKind}
    (h : Criteria.Reads question kinds) (hends : EndAlike kinds cs ds) :
    question (ofList cs).compose = question (ofList ds).compose := by
  refine h _ _ (fun k hk => ?_)
  rw [get?_compose_ofList, get?_compose_ofList, hends k hk]

variable (cs ds)

/-- **What a sequence of criteria comes to.** The list that is made by adding them one after
another goes through them in order and has their number, and different sequences make
different lists. Composed, it has the kinds in the order in which they first occur, each with
its last criterion; one more criterion of the list is one more of what it is composed to. So
no question depends on anything but the last criteria of the kinds that it reads. -/
theorem compose_ofList :
    (ofList cs).toList = cs ∧ (ofList cs).length = cs.length
      ∧ (ofList cs = ofList ds ↔ cs = ds)
      ∧ (ofList cs).compose.toList.map Criterion.kind = (cs.map Criterion.kind).eraseDups
      ∧ (∀ c, c ∈ (ofList cs).compose.toList ↔ last? cs c.kind = some c)
      ∧ (∀ c, ((ofList cs).add c).compose = (ofList cs).compose.add c)
      ∧ (EndAlike [.inClass, .isClass] cs ds →
          (ofList cs).compose.className? = (ofList ds).compose.className?)
      ∧ (EndAlike [.inMethod] cs ds →
          (ofList cs).compose.method? = (ofList ds).compose.method?
            ∧ (ofList cs).compose.targetsImplicitConstructor
              = (ofList ds).compose.targetsImplicitConstructor)
      ∧ (EndAlike [.atLocation] cs ds →
          (ofList cs).compose.typePath? = (ofList ds).compose.typePath?
            ∧ (ofList cs).compose.hasTypePath = (ofList ds).compose.hasTypePath)
      ∧ (EndAlike [.astPath] cs ds →
          (ofList cs).compose.astPath? = (ofList ds).compose.astPath?)
      ∧ (EndAlike [.astPath, .receiver] cs ds →
          (ofList cs).compose.targetsReceiver = (ofList ds).compose.targetsReceiver)
      ∧ (EndAlike [.astPath, .new] cs ds →
          (ofList cs).compose.targetsNew = (ofList ds).compose.targetsNew) := by
  refine ⟨toList_ofList cs, length_ofList cs, ⟨fun h => ?_, congrArg ofList⟩,
    kinds_compose_ofList cs, fun _ => mem_compose_ofList cs, compose_add _,
    answer_congr Criteria.className?_reads, fun h => ⟨answer_congr Criteria.method?_reads h,
      answer_congr Criteria.targetsImplicitConstructor_reads h⟩,
    fun h => ⟨answer_congr Criteria.typePath?_reads h,
      answer_congr Criteria.hasTypePath_reads h⟩,
    answer_congr Criteria.astPath?_reads, answer_congr Criteria.targetsReceiver_reads,
    answer_congr Criteria.targetsNew_reads⟩
  rw [← toList_ofList cs, h, toList_ofList]

/-- A method in a nested class and the same method after another one: the receivers are in
different classes, and both are receivers. -/
theorem compose_ofList_receivers :
    EndAlike [.astPath, .receiver]
        [.inClass "a.C" true, .inClass "a.C" false, .inMethod "m()V", .receiver "m()V"]
        [.receiver "k()V", .inClass "b.D" true, .receiver "m()V"]
      ∧ (ofList [.inClass "a.C" true, .inClass "a.C" false, .inMethod "m()V",
          .receiver "m()V"]).compose.targetsReceiver
        = (ofList [.receiver "k()V", .inClass "b.D" true,
          .receiver "m()V"]).compose.targetsReceiver := by
  have hends : EndAlike [.astPath, .receiver]
      [.inClass "a.C" true, .inClass "a.C" false, .inMethod "m()V", .receiver "m()V"]
      [.receiver "k()V", .inClass "b.D" true, .receiver "m()V"] := by decide
  obtain ⟨-, -, -, -, -, -, -, -, -, -, hreceiver, -⟩ := compose_ofList
    [.inClass "a.C" true, .inClass "a.C" false, .inMethod "m()V", .receiver "m()V"]
    [.receiver "k()V", .inClass "b.D" true, .receiver "m()V"]
  exact ⟨hends, hreceiver hends⟩

example : (ofList [.inClass "a.C" true, .inMethod "m()V", .inClass "a.C" false]).compose.toList
    = [.inClass "a.C" false, .inMethod "m()V"] := by decide

end CriteriaList

end AnnotationPlan
