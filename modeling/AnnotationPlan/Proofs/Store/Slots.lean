import AnnotationPlan.Proofs.Store.Receivers

/-!
# What a constructor has for a receiver

A constructor is made without a receiver. The first call that attaches one to it fills its slot,
and from then on the slot never changes (`Operation.receiverOf_perform`): what is attached later
is merged into the receiver that is there. Merging looks at both, and fails unless they are
receivers. The call that fills the slot looks at the constructor only. It takes any number, also
that of another kind of insertion or of none.

So over any run of operations each slot holds what the call that filled it was given
(`Operation.receiverOf_performAll`), and the slots make sense if and only if these calls were
given receivers (`Operation.receiver_slots`).
-/

namespace AnnotationPlan

namespace Store

variable {s s' : Store} {c r id : InsertionId} {i : Insertion}

/-- A constructor that has no receiver yet. -/
def IsVacant (s : Store) (c : InsertionId) : Prop :=
  s.Has (fun i => i.IsConstructor ∧ i.receiver? = none) c

/-- **What a constructor has for a receiver is one.** -/
def HasReceivers (s : Store) : Prop :=
  ∀ c r, s.receiverOf c = some r → s.Has Insertion.IsReceiver r

theorem IsVacant.get?_constructor (h : s.IsVacant c) :
    ∃ criteria type declarations,
      s.get? c = some (.constructor criteria type none declarations) := by
  obtain ⟨i, hi, hkind, hreceiver⟩ := h
  cases i with
  | constructor criteria type receiver declarations =>
    cases hreceiver
    exact ⟨criteria, type, declarations, hi⟩
  | _ => exact hkind.elim

/-! ## Slots and changes -/

/-- **A slot that is filled stays as it is.** -/
theorem Grows.receiverOf (h : s.Grows s') (hr : s.receiverOf c = some r) :
    s'.receiverOf c = some r := by
  obtain ⟨i, hi, hreceiver⟩ := Option.bind_eq_some_iff.mp hr
  cases i with
  | constructor criteria type receiver declarations =>
    obtain ⟨t', receiver', declarations', hi', -, keeps, -⟩ := h.get?_constructor hi
    rw [Store.receiverOf, hi']
    exact keeps r hreceiver
  | _ => cases hreceiver

/-- A new insertion has no receiver, and the others keep theirs. -/
theorem receiverOf_push (hi : i.receiver? = none) (s : Store) (c : InsertionId) :
    (s.push i).receiverOf c = s.receiverOf c := by
  unfold receiverOf
  rw [get?_push]
  by_cases hc : c = s.size
  · have hnone : s.get? c = none := Array.getElem?_eq_none (Nat.le_of_eq hc.symm)
    rw [if_pos hc, hnone]
    exact hi
  · rw [if_neg hc]

/-- A change that keeps the receiver of what it changes. -/
theorem receiverOf_modify {f : Insertion → Insertion}
    (h : ∀ i, s.get? id = some i → (f i).receiver? = i.receiver?) (c : InsertionId) :
    (s.modify id f).receiverOf c = s.receiverOf c := by
  unfold receiverOf
  by_cases hc : id = c
  · subst hc
    rw [get?_modify, if_pos rfl]
    cases hi : s.get? id with
    | none => rfl
    | some i => exact h i hi
  · rw [get?_modify_of_ne hc]

end Store

namespace Insertion

theorem receiver?_mapType (f : JavaType → JavaType) (i : Insertion) :
    (i.mapType f).receiver? = i.receiver? := by
  cases i <;> rfl

end Insertion

namespace Operation

open Store

variable {s : Store} {c r : InsertionId}

/-! ## One operation -/

/-- **What an operation may leave behind**, as far as receivers are concerned. -/
inductive Leaves (op : Operation) (s : Store) : Store → Prop
  /-- The store as it was. -/
  | same : Leaves op s s
  /-- One more insertion, without a receiver. -/
  | push {i : Insertion} (hi : i.receiver? = none) : Leaves op s (s.push i)
  /-- Two more. -/
  | pair {i j : Insertion} (hi : i.receiver? = none) (hj : j.receiver? = none) :
    Leaves op s ((s.push i).push j)
  /-- An insertion that has grown, with the receiver that it had. -/
  | change {id : InsertionId} {f : Insertion → Insertion}
    (hf : ∀ i, s.get? id = some i → i.Grows (f i) ∧ (f i).receiver? = i.receiver?) :
    Leaves op s (s.modify id f)
  /-- A constructor that has got the receiver that it was given. -/
  | fill {c r : InsertionId} {criteria : CriteriaList} {type : JavaType}
    {declarations : List InsertionId} (hop : op = .attachReceiver c r)
    (hc : s.get? c = some (.constructor criteria type none declarations)) :
    Leaves op s (s.modify c (fun _ => .constructor criteria type (some r) declarations))

/-- An insertion in the place of one that it has grown from. -/
theorem leaves_replace {op : Operation} {id : InsertionId} {i j : Insertion}
    (hi : s.get? id = some i) (hij : i.Grows j) (hreceiver : j.receiver? = i.receiver?) :
    Leaves op s (s.modify id (fun _ => j)) := by
  refine .change (fun k hk => ?_)
  cases hi.symm.trans hk
  exact ⟨hij, hreceiver⟩

/-- What an operation that succeeds leaves behind. -/
theorem leaves_apply {op : Operation} {ids : List InsertionId} {s' : Store}
    (h : op.apply s = .ok (ids, s')) : Leaves op s s' := by
  cases op with
  | single text criteria separateLine =>
    cases h
    exact .push rfl
  | receiver text criteria inner =>
    cases h
    exact .push rfl
  | new text criteria inner =>
    cases h
    exact .push rfl
  | cast type text inner criteria =>
    obtain ⟨_, hs, he⟩ := map_eq_ok.mp h
    cases he
    obtain ⟨decorated, -, rfl⟩ := pushCast_eq_ok.mp hs
    exact .pair rfl rfl
  | constructor criteria =>
    obtain ⟨_, hs, he⟩ := map_eq_ok.mp h
    cases he
    obtain ⟨className, -, rfl⟩ := pushConstructor_eq_ok.mp hs
    exact .push rfl
  | annotate id text =>
    obtain ⟨_, hs, he⟩ := map_eq_ok.mp h
    cases he
    obtain ⟨i, -, -, rfl⟩ := addTypeAnnotation_eq_ok.mp hs
    exact .change (fun j _ => ⟨j.grows_annotate text, j.receiver?_mapType _⟩)
  | attachDeclaration c id =>
    obtain ⟨_, hs, he⟩ := map_eq_ok.mp h
    cases he
    obtain ⟨criteria, type, receiver, declarations, hc, rfl⟩ := attachDeclaration_eq_ok.mp hs
    exact leaves_replace hc
      (.constructor (.refl type) (fun _ h => h) (List.subset_append_left _ _)) rfl
  | attachReceiver c r =>
    obtain ⟨⟨s'', kept⟩, hs, he⟩ := map_eq_ok.mp h
    cases he
    obtain ⟨criteria, type, receiver, declarations, hc, hcases⟩ := attachReceiver_cases hs
    obtain ⟨rfl, -, rfl⟩ | ⟨-, -, rfl⟩ | ⟨place, own, inner, place', added, more, -, -, hkept,
      -, rfl⟩ := hcases
    · exact .fill rfl hc
    · exact .same
    · exact leaves_replace hkept (grows_merge place own added inner more) rfl

/-- **What an operation leaves behind**, whether or not it succeeds. -/
theorem leaves_perform (op : Operation) (s : Store) : Leaves op s (op.perform.on s).2 := by
  rw [on_perform]
  cases h : op.apply s with
  | error e => exact .same
  | ok answer => exact leaves_apply h

namespace Leaves

variable {op : Operation} {s' : Store}

theorem grows (h : Leaves op s s') : s.Grows s' := by
  cases h with
  | same => exact .refl s
  | push hi => exact grows_push s _
  | pair hi hj => exact (grows_push s _).trans (grows_push _ _)
  | change hf => exact grows_modify (fun i hi => (hf i hi).1)
  | fill hop hc =>
    refine grows_replace hc (.constructor (.refl _) (fun _ h => ?_) (List.Subset.refl _))
    cases h

/-- What a slot holds it held before, or the slot was filled. -/
theorem receiverOf (h : Leaves op s s') (hr : s'.receiverOf c = some r) :
    s.receiverOf c = some r ∨ (op = .attachReceiver c r ∧ s.IsVacant c) := by
  cases h with
  | same => exact Or.inl hr
  | push hi => exact Or.inl (receiverOf_push hi s c ▸ hr)
  | pair hi hj =>
    rw [receiverOf_push hj, receiverOf_push hi] at hr
    exact Or.inl hr
  | change hf => exact Or.inl (receiverOf_modify (fun i hi => (hf i hi).2) c ▸ hr)
  | @fill c' r' _ _ _ hop hc =>
    by_cases hsame : c' = c
    · subst hsame
      rw [Store.receiverOf, get?_modify_self hc] at hr
      cases hr
      exact Or.inr ⟨hop, _, hc, trivial, rfl⟩
    · rw [Store.receiverOf, get?_modify_of_ne hsame] at hr
      exact Or.inl hr

end Leaves

/-- **An empty slot takes what it is given**, whatever that is. -/
theorem receiverOf_perform_of_isVacant (h : s.IsVacant c) :
    ((attachReceiver c r).perform.on s).2.receiverOf c = some r := by
  obtain ⟨criteria, type, declarations, hc⟩ := h.get?_constructor
  rw [on_perform, apply, Store.attachReceiver_first hc]
  show (s.modify c _).receiverOf c = some r
  rw [receiverOf, get?_modify_self hc]
  rfl

/-- **A slot holds what it held**, or else the operation has filled it. -/
theorem receiverOf_perform (op : Operation) (s : Store) :
    (op.perform.on s).2.receiverOf c = some r ↔
      s.receiverOf c = some r ∨ (op = .attachReceiver c r ∧ s.IsVacant c) := by
  refine ⟨(op.leaves_perform s).receiverOf, ?_⟩
  rintro (h | ⟨rfl, h⟩)
  · exact (op.leaves_perform s).grows.receiverOf h
  · exact receiverOf_perform_of_isVacant h

/-! ## A run of operations -/

/-- **The call that fills a slot**: the one that attaches a receiver to a constructor which has
none when its turn comes. -/
def Fills (ops : List Operation) (s : Store) (c r : InsertionId) : Prop :=
  ∃ before after, ops = before ++ .attachReceiver c r :: after
    ∧ (performAll before s).IsVacant c

theorem not_fills_nil (s : Store) : ¬ Fills [] s c r := by
  rintro ⟨before, after, h, -⟩
  cases before <;> cases h

theorem fills_cons (op : Operation) (ops : List Operation) (s : Store) :
    Fills (op :: ops) s c r ↔
      (op = .attachReceiver c r ∧ s.IsVacant c) ∨ Fills ops (op.perform.on s).2 c r := by
  constructor
  · rintro ⟨before, after, h, hvacant⟩
    cases before with
    | nil =>
      cases h
      exact Or.inl ⟨rfl, hvacant⟩
    | cons first before =>
      cases h
      exact Or.inr ⟨before, after, rfl, hvacant⟩
  · rintro (⟨rfl, hvacant⟩ | ⟨before, after, rfl, hvacant⟩)
    · exact ⟨[], ops, rfl, hvacant⟩
    · exact ⟨op :: before, after, rfl, hvacant⟩

/-- **No run of operations takes anything out of the store.** -/
theorem grows_performAll : ∀ (ops : List Operation) (s : Store), s.Grows (performAll ops s)
  | [], s => .refl s
  | op :: rest, s => (op.leaves_perform s).grows.trans (grows_performAll rest _)

/-- **After a run of operations a slot holds** what it held before, or what the call that filled
it was given. -/
theorem receiverOf_performAll : ∀ (ops : List Operation) (s : Store),
    (performAll ops s).receiverOf c = some r ↔ s.receiverOf c = some r ∨ Fills ops s c r
  | [], s => by
    show s.receiverOf c = some r ↔ _
    simp [not_fills_nil]
  | op :: rest, s => by
    show (performAll rest (op.perform.on s).2).receiverOf c = some r ↔ _
    rw [receiverOf_performAll rest, receiverOf_perform, fills_cons, or_assoc]

theorem receiverOf_empty (c : InsertionId) : Store.empty.receiverOf c = none := rfl

/-- **What a constructor has for a receiver** after any operations, failing ones included: the
number given to the call that attached the first one, and no other. So all of it are receivers
exactly if those calls were given the numbers of receivers, and this is so in particular if each
of the numbers was that of a receiver already when it was given. -/
theorem receiver_slots (ops : List Operation) :
    (∀ c r, (performAll ops .empty).receiverOf c = some r ↔ Fills ops .empty c r)
    ∧ ((performAll ops .empty).HasReceivers ↔
        ∀ c r, Fills ops .empty c r → (performAll ops .empty).Has Insertion.IsReceiver r)
    ∧ ((∀ before c r after, ops = before ++ .attachReceiver c r :: after →
          (performAll before .empty).IsVacant c →
          (performAll before .empty).Has Insertion.IsReceiver r) →
        (performAll ops .empty).HasReceivers) := by
  have hslots : ∀ c r, (performAll ops .empty).receiverOf c = some r ↔ Fills ops .empty c r := by
    intro c r
    rw [receiverOf_performAll, receiverOf_empty]
    simp
  have hall : (performAll ops .empty).HasReceivers ↔
      ∀ c r, Fills ops .empty c r → (performAll ops .empty).Has Insertion.IsReceiver r :=
    forall_congr' (fun c => forall_congr' (fun r => imp_congr_left (hslots c r)))
  refine ⟨hslots, hall, fun hgiven => hall.mpr (fun c r hfills => ?_)⟩
  -- what is a receiver when it is given is one in the end
  obtain ⟨before, after, rfl, hvacant⟩ := hfills
  have hthen := hgiven before c r after rfl hvacant
  have hgrows := grows_performAll (.attachReceiver c r :: after) (performAll before .empty)
  rw [performAll, List.foldl_append]
  exact hthen.grows hgrows (fun _ _ h => h.isReceiver)

/-- An annotation is attached to a constructor that has no receiver. -/
theorem annotation_fills_slot :
    ¬ (performAll [.constructor (.ofList [.inClass "a.C" true]), .single "@A" .empty false,
        .attachReceiver 0 1] .empty).HasReceivers := by
  intro h
  obtain ⟨i, hi, hreceiver⟩ := h 0 1 rfl
  cases hi
  exact hreceiver

end Operation

end AnnotationPlan
