import AnnotationPlan.Proofs.Draft.Single

/-!
# Gathered annotations find their place

All annotations on a receiver, on the type of a created object and on a cast go into one
insertion. It is made with the first of them (`Made`), the constructor may take it up at
once, and the others are added to it. Only in the end is it put into the output, if it
was not taken up; until then it is in hand (`Draft.gather_yields`). A cast takes what is
in hand of its own type, and that is written into it.
-/

namespace AnnotationPlan

open Insertion

/-- The insertions within its type that a form takes out of the hand: a cast takes them
all. -/
def Form.takes (form : Form) (inner : List InsertionId) : List InsertionId :=
  if form.isCast then inner else []

/-- **What was made to gather the annotations on a spot**: one insertion, or a cast and
its parenthesis. -/
inductive Made (p : Spot) (s : Store) (id : InsertionId) : List InsertionId → Prop
  /-- A receiver. -/
  | receiver {type inner} (form : p.form = .receiver)
      (get : s.get? id = some (.receiver p.criteria type inner)) : Made p s id [id]
  /-- The type of a created object. -/
  | new {type inner} (form : p.form = .new)
      (get : s.get? id = some (.new p.criteria type inner)) : Made p s id [id]
  /-- A cast. -/
  | cast {type written} (form : p.form = .cast type)
      (get : s.get? id = some (.cast p.criteria written false))
      (close : s.get? (id + 1) = some (.closeParenthesis p.criteria false)) :
      Made p s id [id, id + 1]

namespace Made

variable {p : Spot} {s s' : Store} {id : InsertionId} {made : List InsertionId}

/-- What was made goes on being there. -/
theorem grows (h : Made p s id made) (hgrows : s.Grows s') : Made p s' id made := by
  cases h with
  | receiver form get =>
    obtain ⟨i, hi, hgrown⟩ := hgrows id _ get
    cases hgrown
    exact .receiver form hi
  | new form get =>
    obtain ⟨i, hi, hgrown⟩ := hgrows id _ get
    cases hgrown
    exact .new form hi
  | cast form get close =>
    obtain ⟨i, hi, hgrown⟩ := hgrows id _ get
    obtain ⟨j, hj, hgrown'⟩ := hgrows (id + 1) _ close
    cases hgrown
    cases hgrown'
    exact .cast form hi hj

/-- What was made has numbers from the first one on, and is in the store. -/
theorem mem (h : Made p s id made) : ∀ j ∈ made, id ≤ j ∧ j < s.size := by
  cases h with
  | receiver form get =>
    exact List.forall_mem_singleton.mpr ⟨Nat.le_refl _, Store.lt_size get⟩
  | new form get =>
    exact List.forall_mem_singleton.mpr ⟨Nat.le_refl _, Store.lt_size get⟩
  | cast form get close =>
    refine List.forall_mem_cons.mpr ⟨⟨Nat.le_refl _, Store.lt_size get⟩, ?_⟩
    exact List.forall_mem_singleton.mpr ⟨Nat.le_succ _, Store.lt_size close⟩

/-- What was made is a cast with its parenthesis, or no piece of a cast. -/
theorem paired (h : Made p s id made) : s.Paired made := by
  cases h with
  | receiver form get => exact .whole ⟨_, get, fun h => h, fun h => h⟩ .nil
  | new form get => exact .whole ⟨_, get, fun h => h, fun h => h⟩ .nil
  | cast form get close => exact .pair get close .nil

/-- Nothing is made for annotations that are not gathered. -/
theorem form_ne_single (h : Made p s id made) : p.form ≠ .single := by
  intro hsingle
  cases h with
  | receiver form get => cases form.symm.trans hsingle
  | new form get => cases form.symm.trans hsingle
  | cast form get close => cases form.symm.trans hsingle

/-- The annotations are gathered in an insertion with a type, which is no constructor. -/
theorem has (h : Made p s id made) :
    s.Has (fun i => i.type?.isSome ∧ ¬ i.IsConstructor) id := by
  cases h with
  | receiver form get => exact ⟨_, get, rfl, fun h => h⟩
  | new form get => exact ⟨_, get, rfl, fun h => h⟩
  | cast form get close => exact ⟨_, get, rfl, fun h => h⟩

/-- What is no receiver may stand above a constructor of its class. -/
theorem declarable (h : Made p s id made) (hform : p.form ≠ .receiver) :
    ∀ j ∈ made, s.Has
      (fun i => i.IsDeclarable ∧ i.className? = p.criteria.compose.className?) j := by
  cases h with
  | receiver form get => exact absurd form hform
  | new form get => exact List.forall_mem_singleton.mpr ⟨_, get, trivial, rfl⟩
  | cast form get close =>
    refine List.forall_mem_cons.mpr ⟨⟨_, get, trivial, rfl⟩, ?_⟩
    exact List.forall_mem_singleton.mpr ⟨_, close, trivial, rfl⟩

end Made

namespace Draft

variable {ctx : Context} {p : Spot} {base : Nat} {className : Option String} {d e : Draft}
  {n : Note} {id : InsertionId} {made inner : List InsertionId}

/-- **The insertion that gathers is made.** -/
theorem create_yields (ctx : Context) (hform : p.form ≠ .single)
    (hinner : ∀ j ∈ inner, d.store.Has IsWithin j) (text : Option String) :
    Yields (fun r => Made p r.1.store d.store.size r.2 ∧ r.1.placed = d.placed
        ∧ ∀ base hand written, Step ctx p base ⟨d, hand ++ p.form.takes inner, written⟩
            ⟨r.1, hand ++ r.2,
              written ++ (p.form.takes inner).map (fun j => (j, d.store.size))⟩)
      (create p.form p.criteria inner text d) := by
  cases form : p.form with
  | single => exact absurd form hform
  | receiver =>
    refine Yields.pure ⟨.receiver form (Store.get?_push_size _ _), rfl, ?_⟩
    intro base hand written
    simpa [Form.takes, Form.isCast] using Step.receiver text inner form hinner
  | new =>
    refine Yields.pure ⟨.new form (Store.get?_push_size _ _), rfl, ?_⟩
    intro base hand written
    simpa [Form.takes, Form.isCast] using Step.new text inner form hinner
  | cast type =>
    show Yields _ (d.store.pushCast type text inner p.criteria >>= _)
    refine (Store.pushCast_yields hinner).self.bind (fun store ⟨hstore, _⟩ => Yields.pure ?_)
    obtain ⟨-, ⟨decorated, hcast⟩, hclose, -⟩ := Store.pushCast_spec hstore
    exact ⟨.cast form hcast hclose, rfl,
      fun base hand written => .cast type text form hinner hstore⟩

/-- What is no receiver is absorbed by going onto the name of the constructor or above
it. -/
theorem absorbInto_of_not_receiver {i : Insertion} {c : InsertionId} {criteria : Criteria}
    {rest : List InsertionId} (hi : d.store.get? id = some i) (hkind : ¬ i.IsReceiver) :
    d.absorbInto c criteria n (id :: rest)
      = (if criteria.isOnReturnType then do
            let store ← d.store.addTypeAnnotation c n.text
            pure (({ d with store } : Draft).unplace (id :: rest), true)
          else if n.typeOnly then pure (d, false)
          else do
            let store ← (id :: rest).foldlM (fun s j => s.attachDeclaration c j) d.store
            pure (({ d with store } : Draft).unplace (id :: rest), true)) := by
  rw [absorbInto, hi]
  cases i with
  | receiver criteria type inner => exact absurd trivial hkind
  | _ => rfl

/-- A receiver that can be attached is absorbed. -/
theorem exists_absorbReceiver {c kept : InsertionId} {store : Store}
    (h : d.store.attachReceiver c id = .ok (store, kept)) : ∃ f, d.absorbReceiver c id = .ok f := by
  rw [absorbReceiver, h]
  show ∃ f, (if kept = id then _ else _) = _
  split
  · exact ⟨_, rfl⟩
  · exact ⟨_, rfl⟩

section AbsorbInto

variable {c : InsertionId} (hd : d.Sound className) (on : ctx.OnConstructor p.toPosition)
  (hmade : Made p d.store id made) (hout : ∀ j ∈ made, j ∉ d.placed)
  (hc : d.constructor = some c)
include hd on hmade hout hc

/-- A receiver that was made goes to the constructor. -/
theorem absorbInto_receiver_yields (hform : p.form = .receiver) :
    Yields (fun r => ∀ base hand written, Steps ctx p base ⟨d, hand ++ made, written⟩
        ⟨r.1, hand ++ (if r.2 then [] else made), written⟩)
      (d.absorbInto c p.criteria.compose n made) := by
  cases hmade with
  | new form get => exact absurd (form.symm.trans hform) (by simp)
  | cast form get close => exact absurd (form.symm.trans hform) (by simp)
  | receiver form get =>
    obtain ⟨store, kept, hattach⟩ := hd.wired.exists_attachReceiver
      ((hd.constructor_has c hc).imp (fun _ h => ⟨h.1, h.2.1⟩)) ⟨_, get, trivial⟩
    obtain ⟨f, hf⟩ := exists_absorbReceiver hattach
    rw [absorbInto, get]
    show Yields _ (d.absorbReceiver c id >>= _)
    rw [hf]
    refine Yields.pure (fun base hand written => ?_)
    -- it was never put into the output, so taking it out again changes nothing
    have hunplace : f.unplace [id] = f :=
      unplace_of_notMem ((absorbReceiver_spec hf).2.1 ▸ hout)
    show Steps ctx p base _ ⟨f.unplace [id], hand ++ [], written⟩
    rw [hunplace, List.append_nil]
    exact .single (.receive on form ⟨_, get, trivial, rfl⟩ hc hf)

/-- Anything else that was made goes above the constructor, or stays in hand if only types
can have the annotation. -/
theorem absorbInto_declaration_yields (hp : p.Fits className)
    (note : ctx.HasNote p.toPosition n) (hform : p.form ≠ .receiver) :
    Yields (fun r => ∀ base hand written, Steps ctx p base ⟨d, hand ++ made, written⟩
        ⟨r.1, hand ++ (if r.2 then [] else made), written⟩)
      (d.absorbInto c p.criteria.compose n made) := by
  have hkind := hmade.declarable hform
  obtain ⟨criteria, type, receiver, declarations, hget, -⟩ := hd.get?_constructor hc
  obtain ⟨rest, rfl⟩ : ∃ rest, made = id :: rest := by cases hmade <;> exact ⟨_, rfl⟩
  obtain ⟨i, hi, hdeclarable, -⟩ := hkind id List.mem_cons_self
  have hnot : ¬ i.IsReceiver := by
    intro h
    cases i <;> first | exact h | exact hdeclarable
  -- only single annotations are on results, so what gathers several is on none
  have hresult : ¬ p.criteria.compose.isOnReturnType = true :=
    fun h => hmade.form_ne_single (hp.returnType h)
  rw [absorbInto_of_not_receiver hi hnot, if_neg hresult]
  split
  case isTrue => exact Yields.pure (fun base hand written => .refl)
  case isFalse type =>
    have hstore := Store.attachDeclarations_eq (id :: rest) hget
    rw [hstore]
    have hunplace : ∀ store, ({ d with store } : Draft).unplace (id :: rest)
        = { d with store } := fun store => unplace_of_notMem hout
    refine Yields.pure (fun base hand written => ?_)
    show Steps ctx p base _
      ⟨({ d with store := _ } : Draft).unplace (id :: rest), hand ++ [], written⟩
    rw [hunplace, List.append_nil]
    exact .single
      (.declare n (id :: rest) note on (by simpa using type) hkind hmade.paired hc hstore)

end AbsorbInto

/-- **What was made finds its place** if the constructor takes it up, and stays in hand
otherwise. -/
theorem absorb_made_yields (hd : d.Sound className) (hp : p.Fits className)
    (note : ctx.HasNote p.toPosition n) (hmade : Made p d.store id made)
    (hout : ∀ j ∈ made, j ∉ d.placed) :
    Yields (fun r => ∀ base hand written, Steps ctx p base ⟨d, hand ++ made, written⟩
        ⟨r.1, hand ++ (if r.2 then [] else made), written⟩)
      (absorb ctx p.criteria p.criteria.compose d n made) := by
  by_cases on : ctx.OnConstructor p.toPosition
  case neg =>
    rw [absorb_of_not_on on]
    exact fun _ _ _ => .refl
  obtain ⟨e, c, he, hc, hplaced, hsteps⟩ := exists_ensureConstructor hp on note d
  obtain ⟨hsound, hgrows⟩ := (hsteps 0 [] []).sound hp hd
  have hmade' := hmade.grows hgrows
  have hout' : ∀ j ∈ made, j ∉ e.placed := by
    intro j hj
    rcases hplaced with hplaced | hplaced <;> rw [hplaced]
    · exact hout j hj
    · intro h
      rcases List.mem_cons.mp h with rfl | h
      · exact Nat.lt_irrefl _ (hmade.mem _ hj).2
      · exact hout j hj h
  rw [absorb_of_on on, he]
  show Yields _ (e.absorbInto c p.criteria.compose n made)
  by_cases hform : p.form = .receiver
  case pos =>
    refine (absorbInto_receiver_yields hsound on hmade' hout' hc hform).mono (fun r hr => ?_)
    exact fun base hand written => (hsteps base _ written).trans (hr base hand written)
  case neg =>
    refine (absorbInto_declaration_yields hsound on hmade' hout' hc hp note hform).mono
      (fun r hr => ?_)
    exact fun base hand written => (hsteps base _ written).trans (hr base hand written)

/-- **Further annotations are added to what gathers them.** -/
theorem addNotes_yields (hd : d.Sound className) (hp : p.Fits className)
    (hid : d.store.Has (fun i => i.type?.isSome ∧ ¬ i.IsConstructor) id) (hbase : base ≤ id)
    {notes : List Note} (hnotes : ∀ n ∈ notes, ctx.HasNote p.toPosition n) :
    Yields (fun e => ∀ hand written,
        Steps ctx p base ⟨d, hand, written⟩ ⟨e, hand, written⟩)
      (notes.foldlM (addNote id) d) := by
  refine Yields.foldlM notes (fun e hsteps n hn => ?_) (fun _ _ => .refl)
  have hgrows := ((hsteps [] []).sound hp hd).2
  have hid' : e.store.Has (fun i => i.type?.isSome ∧ ¬ i.IsConstructor) id :=
    hid.grows hgrows (fun _ _ h hi => by cases h <;> exact hi)
  obtain ⟨store, hstore⟩ :=
    Store.exists_addTypeAnnotation (hid'.imp (fun _ h => ⟨h.1, h.2.1⟩)) n.text
  have hadd : addNote id e n = .ok (({ e with store } : Draft).record id n) := by
    rw [addNote, hstore]
    rfl
  rw [hadd]
  exact fun hand written => (hsteps hand written).tail
    (.annotate n (hnotes n hn) hbase (hid'.imp (fun _ h => ⟨h.1, h.2.2⟩)) hadd)

/-- Without annotations something is made only if it has to be written in any case. -/
theorem gather_nil_yields (ctx : Context) (hform : p.form ≠ .single)
    (hinner : ∀ j ∈ inner, d.store.Has IsWithin j) :
    Yields (fun e => (p.form.isCast = true → ∃ made, Made p e.store d.store.size made)
        ∧ ∀ hand written,
            Steps ctx p d.store.size ⟨d, hand ++ p.form.takes inner, written⟩
              ⟨e, hand, written ++ (p.form.takes inner).map (fun j => (j, d.store.size))⟩)
      (gather ctx p.form p.criteria p.criteria.compose inner d []) := by
  rw [gather]
  split
  case isTrue =>
    refine (create_yields ctx hform hinner none).bind
      (fun ⟨e, made⟩ ⟨hmade, _, hcreate⟩ => Yields.pure ⟨fun _ => ⟨made, hmade⟩, ?_⟩)
    exact fun hand written => .tail (.single (hcreate _ hand written))
      (.place made hmade.paired)
  case isFalse hnone =>
    have hcast : p.form.isCast = false := by
      cases h : p.form.isCast with
      | false => rfl
      | true => simp [h] at hnone
    have htakes : p.form.takes inner = [] := by simp [Form.takes, hcast]
    refine Yields.pure ⟨fun h => by simp [hcast] at h, fun hand written => ?_⟩
    rw [htakes, List.map_nil, List.append_nil, List.append_nil]

/-- **All annotations on a spot are gathered.** What a cast takes is written into it, and
nothing that was made stays in hand. -/
theorem gather_yields (hd : d.Sound className) (hp : p.Fits className)
    (hform : p.form ≠ .single) (hinner : ∀ j ∈ inner, d.store.Has IsWithin j)
    {notes : List Note} (hnotes : ∀ n ∈ notes, ctx.HasNote p.toPosition n) :
    Yields (fun e => (p.form.isCast = true → ∃ made, Made p e.store d.store.size made)
        ∧ ∀ hand written,
            Steps ctx p d.store.size ⟨d, hand ++ p.form.takes inner, written⟩
              ⟨e, hand, written ++ (p.form.takes inner).map (fun j => (j, d.store.size))⟩)
      (gather ctx p.form p.criteria p.criteria.compose inner d notes) := by
  cases notes with
  | nil => exact gather_nil_yields ctx hform hinner
  | cons n rest =>
    obtain ⟨note, hrest⟩ := List.forall_mem_cons.mp hnotes
    refine (create_yields ctx hform hinner (some n.text)).bind
      (fun ⟨e, made⟩ ⟨hmade, hplaced, hcreate⟩ => ?_)
    have he := (hcreate 0 [] []).sound hp hd
    have hrecord : (e.record d.store.size n).Sound className :=
      he.of_grows (.refl _) he.wired rfl rfl
    have hout : ∀ j ∈ made, j ∉ (e.record d.store.size n).placed := by
      intro j hj hmem
      have hlt := hd.placed_lt j (hplaced ▸ hmem)
      exact Nat.not_lt_of_le (hmade.mem j hj).1 hlt
    refine (absorb_made_yields hrecord hp note hmade hout).bind (fun ⟨f, absorbed⟩ habsorb => ?_)
    obtain ⟨hf, hgrows⟩ := (habsorb 0 [] []).sound hp hrecord
    refine (addNotes_yields hf hp (hmade.grows hgrows).has (Nat.le_refl _) hrest).bind
      (fun g hadd => Yields.pure ?_)
    have hgrows' := ((hadd [] []).sound hp hf).2
    -- making, absorbing and adding; all that is left is to put it into the output
    have hall : ∀ hand written, Steps ctx p d.store.size
        ⟨d, hand ++ p.form.takes inner, written⟩
        ⟨g, hand ++ (if absorbed then [] else made),
          written ++ (p.form.takes inner).map (fun j => (j, d.store.size))⟩ := by
      intro hand written
      have hrecorded := (Relation.ReflTransGen.single (hcreate d.store.size hand written)).tail
        (.record _ n hmade.has.lt_size)
      exact hrecorded.trans ((habsorb _ hand _).trans (hadd _ _))
    have hmade' := (hmade.grows hgrows).grows hgrows'
    cases absorbed with
    | true => exact ⟨fun _ => ⟨made, hmade'⟩, fun hand written => by simpa using hall hand written⟩
    | false =>
      refine ⟨fun _ => ⟨made, hmade'⟩, fun hand written => ?_⟩
      exact (hall hand written).tail (.place made hmade'.paired)

end Draft

end AnnotationPlan
