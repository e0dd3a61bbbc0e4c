import AnnotationPlan.Proofs.Draft.Step

/-!
# Single annotations find their place

Working off a site takes the steps of `Step` and no others, and nothing but the scene
can stop it. This is shown going up from the operations on the constructor; here it is
shown for annotations that become insertions of their own. Such an annotation is in hand
only for a moment (`Draft.addSingle_yields`): it is written on the name of the
constructor, goes above it, or is put into the output, unless it is withheld for the type
around it.

The program puts an annotation into the output first and takes it out again when the
constructor absorbs it. In steps this is the same as waiting for the decision
(`Draft.absorb_single_yields`), so no step ever takes anything out of the output.
-/

namespace AnnotationPlan.Draft

variable {ctx : Context} {p : Spot} {base : Nat} {className : Option String} {d e : Draft}
  {n : Note} {id : InsertionId} {hand : List InsertionId}
  {written : List (InsertionId × InsertionId)}

/-! ## Putting into the output and taking out again -/

/-- Taking out what is not in the output changes nothing. -/
theorem unplace_of_notMem : ∀ {ids : List InsertionId} {d : Draft},
    (∀ id ∈ ids, id ∉ d.placed) → d.unplace ids = d
  | [], _, _ => rfl
  | id :: rest, d, h => by
    have hid : d.placed.erase id = d.placed := List.erase_of_not_mem (h id List.mem_cons_self)
    have hrest := unplace_of_notMem (fun j hj => h j (List.mem_cons_of_mem id hj))
    rw [unplace, List.foldl_cons, hid]
    exact hrest

/-- What was just put into the output and is taken out was never there. -/
theorem unplace_place (d : Draft) (id : InsertionId) : (d.place [id]).unplace [id] = d := by
  unfold place unplace
  simp

/-! ## The constructor -/

/-- Away from the constructor nothing is absorbed. -/
theorem absorb_of_not_on (h : ¬ ctx.OnConstructor p.toPosition) (made : List InsertionId) :
    absorb ctx p.criteria p.criteria.compose d n made = .ok (d, false) :=
  if_neg h

/-- On the constructor there is one first, and then it is decided what it absorbs. -/
theorem absorb_of_on (h : ctx.OnConstructor p.toPosition) (made : List InsertionId) :
    absorb ctx p.criteria p.criteria.compose d n made
      = d.ensureConstructor p.criteria
          >>= fun r => r.1.absorbInto r.2 p.criteria.compose n made :=
  if_pos h

/-- **A constructor is there** after asking for it, and only it may be new in the
output. -/
theorem exists_ensureConstructor (hp : p.Fits className) (on : ctx.OnConstructor p.toPosition)
    (note : ctx.HasNote p.toPosition n) (d : Draft) :
    ∃ e c, d.ensureConstructor p.criteria = .ok (e, c) ∧ e.constructor = some c
      ∧ (e.placed = d.placed ∨ e.placed = d.store.size :: d.placed)
      ∧ ∀ base hand written, Steps ctx p base ⟨d, hand, written⟩ ⟨e, hand, written⟩ := by
  cases hc : d.constructor with
  | some c =>
    refine ⟨d, c, ?_, hc, Or.inl rfl, fun _ _ _ => .refl⟩
    rw [ensureConstructor, hc]
  | none =>
    obtain ⟨name, rfl⟩ := Option.ne_none_iff_exists'.mp (hp.className_ne_none on)
    have hname := hp.className?_eq
    have hmade : d.store.pushConstructor p.criteria
        = .ok (d.store.push (.constructor p.criteria (.named (Name.simple name)) none [])) :=
      Store.pushConstructor_eq_ok.mpr ⟨name, hname, rfl⟩
    refine ⟨_, d.store.size, ?_, rfl, Or.inr rfl,
      fun base hand written => .single (.construct n note on hc hmade)⟩
    rw [ensureConstructor, hc]
    show (d.store.pushConstructor p.criteria >>= _) = _
    rw [hmade]
    rfl

/-- **Asking for the constructor with an insertion in the output** that is still in hand
otherwise: once it is taken out again nothing is left of the difference. -/
theorem ensureConstructor_place {criteria : CriteriaList} {c : InsertionId}
    (h : d.ensureConstructor criteria = .ok (e, c)) (hid : id < d.store.size) :
    ∃ e', (d.place [id]).ensureConstructor criteria = .ok (e', c) ∧ e'.store = e.store
      ∧ ∀ store, ({ e' with store } : Draft).unplace [id] = { e with store } := by
  unfold ensureConstructor at h ⊢
  rw [show (d.place [id]).constructor = d.constructor from rfl]
  cases hc : d.constructor with
  | some k =>
    rw [hc] at h
    cases h
    exact ⟨_, rfl, rfl, fun store => unplace_place { d with store } id⟩
  | none =>
    rw [hc] at h
    rw [bind_eq_ok] at h
    obtain ⟨store, hstore, h⟩ := h
    cases h
    refine ⟨_, bind_eq_ok.mpr ⟨store, hstore, rfl⟩, rfl, fun store' => ?_⟩
    have hne : ¬ d.store.size = id := Nat.ne_of_gt hid
    unfold place unplace
    simp [List.erase_cons_tail, hne]

/-! ## Single annotations -/

/-- A withheld annotation stays in hand, even on the constructor. -/
theorem absorb_withheld_yields (hp : p.Fits className) (note : ctx.HasNote p.toPosition n)
    (d : Draft) :
    Yields (fun r => ∀ base hand written,
        Steps ctx p base ⟨d, hand, written⟩ ⟨r.1, hand, written⟩)
      (absorb ctx p.criteria p.criteria.compose d n []) := by
  by_cases on : ctx.OnConstructor p.toPosition
  · obtain ⟨e, c, he, -, -, hsteps⟩ := exists_ensureConstructor hp on note d
    rw [absorb_of_on on, he]
    exact hsteps
  · rw [absorb_of_not_on on]
    exact fun _ _ _ => .refl

/-- **An annotation in hand finds its place**: on the name of the constructor, above it,
or in the output. -/
theorem absorb_single_yields (hd : d.Sound className) (hp : p.Fits className)
    (note : ctx.HasNote p.toPosition n) (hid : d.store.get? id = some (p.insertion n)) :
    Yields (fun r => ∀ base hand written,
        Steps ctx p base ⟨d, hand ++ [id], written⟩ ⟨r.1, hand, written⟩)
      (absorb ctx p.criteria p.criteria.compose (d.place [id]) n [id]) := by
  have hlt := Store.lt_size hid
  have hpaired : ∀ {s : Store}, s.get? id = some (p.insertion n) → s.Paired [id] :=
    fun h => .whole ⟨_, h, Insertion.IsSingle.isWhole trivial⟩ .nil
  by_cases on : ctx.OnConstructor p.toPosition
  case neg =>
    rw [absorb_of_not_on on]
    exact fun base hand written => .single (.place [id] (hpaired hid))
  obtain ⟨e, c, he, hc, -, hsteps⟩ := exists_ensureConstructor hp on note d
  obtain ⟨hsound, hgrows⟩ := (hsteps 0 [] []).sound hp hd
  obtain ⟨e', he', hstore, hunplace⟩ := ensureConstructor_place he hlt
  have hsingle : e'.store.get? id = some (p.insertion n) := hstore ▸ hgrows.get?_single hid
  obtain ⟨criteria, type, receiver, declarations, hget, -⟩ := hsound.get?_constructor hc
  rw [absorb_of_on on, he']
  show Yields _ (e'.absorbInto c p.criteria.compose n [id])
  rw [absorbInto, hsingle]
  show Yields _ (if p.criteria.compose.isOnReturnType = true then _ else _)
  split
  case isTrue result =>
    -- on the result: the text goes onto the name, and the insertion out of the output
    rw [hstore]
    have hmade : e.store.addTypeAnnotation c n.text
        = .ok (e.store.modify c (Insertion.mapType (JavaType.annotate n.text))) :=
      Store.addTypeAnnotation_eq_ok.mpr ⟨_, hget, rfl, rfl⟩
    rw [hmade]
    intro base hand written
    refine (hsteps base (hand ++ [id]) written).tail ?_
    show Step ctx p base _ ⟨({ e' with store := _ } : Draft).unplace [id], hand, written⟩
    rw [hunplace]
    exact .fold n note on result (hstore ▸ hsingle) hc hmade
  case isFalse result =>
    split
    case isTrue type =>
      -- only types can have it, so it stays in the output, where it was put first
      obtain ⟨f, k, hf, -, -, hsteps'⟩ := exists_ensureConstructor hp on note (d.place [id])
      rw [he'] at hf
      cases hf
      intro base hand written
      exact .head (.place [id] (hpaired hid)) (hsteps' base hand written)
    case isFalse type =>
      rw [hstore]
      have hmade := Store.attachDeclarations_eq [id] hget
      rw [hmade]
      intro base hand written
      refine (hsteps base (hand ++ [id]) written).tail ?_
      show Step ctx p base _ ⟨({ e' with store := _ } : Draft).unplace [id], hand, written⟩
      rw [hunplace]
      have hget' : e.store.get? id = some (p.insertion n) := hstore ▸ hsingle
      refine .declare n [id] note on (by simpa using type) ?_ (hpaired hget') hc hmade
      exact List.forall_mem_singleton.mpr
        ⟨p.insertion n, hget', trivial, p.className?_insertion n⟩

/-- **A note becomes an insertion of its own**, and finds its place at once unless it is
withheld. -/
theorem addSingle_yields (hd : d.Sound className) (hp : p.Fits className)
    (hform : p.form = .single) (note : ctx.HasNote p.toPosition n) (withhold : Bool) :
    Yields (fun r => r.1.store.get? r.2 = some (p.insertion n)
        ∧ ∀ base hand written, Steps ctx p base ⟨d, hand, written⟩
            ⟨r.1, hand ++ (if withhold then [r.2] else []), written⟩)
      (addSingle ctx p.criteria p.criteria.compose withhold d n) := by
  let e : Draft :=
    ({ d with store := d.store.push (p.insertion n) } : Draft).record d.store.size n
  have hsingle : ∀ base hand written, Step ctx p base ⟨d, hand, written⟩
      ⟨e, hand ++ [d.store.size], written⟩ := fun base hand written => .single n hform note
  have he : e.Sound className := (hsingle 0 [] []).sound hp hd
  have hget : e.store.get? d.store.size = some (p.insertion n) := Store.get?_push_size _ _
  cases withhold with
  | true =>
    show Yields _ (absorb ctx p.criteria p.criteria.compose e n [] >>= _)
    refine (absorb_withheld_yields hp note e).bind (fun r hr => Yields.pure ⟨?_, ?_⟩)
    · exact ((hr 0 [] []).sound hp he).2.get?_single hget
    · exact fun base hand written =>
        .head (hsingle base hand written) (hr base (hand ++ [d.store.size]) written)
  | false =>
    show Yields _ (absorb ctx p.criteria p.criteria.compose (e.place [d.store.size]) n
      [d.store.size] >>= _)
    refine (absorb_single_yields he hp note hget).bind (fun r hr => Yields.pure ⟨?_, ?_⟩)
    · exact ((hr 0 [] []).sound hp he).2.get?_single hget
    · intro base hand written
      show Steps ctx p base _ ⟨r.1, hand ++ [], written⟩
      rw [List.append_nil]
      exact .head (hsingle base hand written) (hr base hand written)

/-- **Several notes become insertions of their own**, one after another. -/
theorem addSingles_yields (hp : p.Fits className) (hform : p.form = .single)
    (withhold : Bool) : ∀ {notes : List Note} {d : Draft}, d.Sound className →
      (∀ n ∈ notes, ctx.HasNote p.toPosition n) →
      Yields (fun r => (∀ id ∈ r.2, ∃ n, r.1.store.get? id = some (p.insertion n))
          ∧ ∀ base hand written, Steps ctx p base ⟨d, hand, written⟩
              ⟨r.1, hand ++ (if withhold then r.2 else []), written⟩)
        (addSingles ctx p.criteria p.criteria.compose withhold d notes)
  | [], d, hd, _ => by
    refine Yields.pure ⟨fun id hid => absurd hid List.not_mem_nil, fun base hand written => ?_⟩
    rw [ite_self, List.append_nil]
  | n :: rest, d, hd, hnotes => by
    obtain ⟨note, hrest⟩ := List.forall_mem_cons.mp hnotes
    refine (addSingle_yields hd hp hform note withhold).bind (fun ⟨e, id⟩ ⟨hget, hfirst⟩ => ?_)
    have he := ((hfirst 0 [] []).sound hp hd).1
    refine (addSingles_yields hp hform withhold he hrest).bind
      (fun ⟨f, ids⟩ ⟨hgets, hsteps⟩ => Yields.pure ⟨?_, fun base hand written => ?_⟩)
    · have hgrows := ((hsteps 0 [] []).sound hp he).2
      exact List.forall_mem_cons.mpr ⟨⟨n, hgrows.get?_single hget⟩, hgets⟩
    · have hall := (hfirst base hand written).trans (hsteps base _ written)
      cases withhold <;> simpa using hall

end AnnotationPlan.Draft
