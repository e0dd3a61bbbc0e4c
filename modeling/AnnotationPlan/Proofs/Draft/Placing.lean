import AnnotationPlan.Proofs.Draft.Visit

/-!
# Where in the output insertions are put

The output is in the order in which insertions are put into it, and that is not the order in
which they are made: some are put into it in the end only, others are taken out of it
again, and what is withheld is put into it when something else has been made already. Yet
at every spot only the insertions made there are put into the output (`Draft.Later`), with
one exception: what was withheld within a type comes into the output when the type itself
is worked off. It comes there before anything that is made for the type, and in the order
in which it was made (`Draft.IsFresh`); and in the meantime nothing else has come into the
output (`Draft.placed_visitAllNested`), provided that what is within the type is recognized
as such, that is, has a path.
-/

namespace AnnotationPlan

/-- Declarations above a constructor make no insertions. -/
theorem Store.size_attachDeclarations {c : InsertionId} {s' : Store} :
    ∀ {ids : List InsertionId} {s : Store},
      ids.foldlM (fun s j => s.attachDeclaration c j) s = .ok s' → s'.size = s.size
  | [], _, h => by
    cases h
    rfl
  | id :: rest, s, h => by
    rw [List.foldlM_cons] at h
    obtain ⟨t, ht, h⟩ := bind_eq_ok.mp h
    obtain ⟨_, _, _, _, -, rfl⟩ := attachDeclaration_eq_ok.mp ht
    exact (size_attachDeclarations h).trans (size_modify s c _)

namespace Draft

variable {ctx : Context} {d e f : Draft} {l : CriteriaList} {criteria : Criteria} {n : Note}
  {id c : InsertionId} {ids made inner : List InsertionId} {withhold absorbed : Bool} {form : Form}

/-- The output is in the store. -/
def IsBounded (d : Draft) : Prop := ∀ id ∈ d.placed, id < d.store.size

/-- **A later draft**: the store is no smaller, and what was put into the output since was
made since. -/
structure Later (d e : Draft) : Prop where
  /-- The store is no smaller. -/
  size_le : d.store.size ≤ e.store.size
  /-- The output was only added to, with insertions made since. -/
  placed : ∃ new, e.placed = new ++ d.placed
    ∧ ∀ id ∈ new, d.store.size ≤ id ∧ id < e.store.size

namespace Later

theorem of_eq (hsize : d.store.size ≤ e.store.size) (hplaced : e.placed = d.placed) :
    d.Later e :=
  ⟨hsize, [], hplaced, fun _ hid => absurd hid List.not_mem_nil⟩

theorem refl (d : Draft) : d.Later d := of_eq (Nat.le_refl _) rfl

theorem trans (h : d.Later e) (h' : e.Later f) : d.Later f := by
  obtain ⟨hsize, new, hnew, hmade⟩ := h
  obtain ⟨hsize', new', hnew', hmade'⟩ := h'
  refine ⟨Nat.le_trans hsize hsize', new' ++ new, ?_, fun id hid => ?_⟩
  · rw [hnew', hnew, List.append_assoc]
  · rcases List.mem_append.mp hid with hid | hid
    · exact ⟨Nat.le_trans hsize (hmade' id hid).1, (hmade' id hid).2⟩
    · exact ⟨(hmade id hid).1, Nat.lt_of_lt_of_le (hmade id hid).2 hsize'⟩

/-- A larger store. -/
theorem store (h : d.Later e) (hsize : e.store.size ≤ f.store.size)
    (hplaced : f.placed = e.placed) : d.Later f :=
  h.trans (of_eq hsize hplaced)

/-- The output of a later draft is in its store. -/
theorem isBounded (h : d.Later e) (hd : d.IsBounded) : e.IsBounded := by
  obtain ⟨hsize, new, hnew, hmade⟩ := h
  intro id hid
  rcases List.mem_append.mp (hnew ▸ hid) with hid | hid
  · exact (hmade id hid).2
  · exact Nat.lt_of_lt_of_le (hd id hid) hsize

/-- Insertions made since are put into the output. -/
theorem place (h : d.Later e) (hids : ∀ id ∈ ids, d.store.size ≤ id ∧ id < e.store.size) :
    d.Later (e.place ids) := by
  obtain ⟨hsize, new, hnew, hmade⟩ := h
  refine ⟨hsize, ids.reverse ++ new, ?_, fun id hid => ?_⟩
  · show ids.reverse ++ e.placed = _
    rw [hnew, List.append_assoc]
  · rcases List.mem_append.mp hid with hid | hid
    · exact hids id (List.mem_reverse.mp hid)
    · exact hmade id hid

/-- **Insertions made since are taken out of the output**, and what was there before
remains. -/
theorem unplace (hd : d.IsBounded) : ∀ {ids : List InsertionId} {e : Draft}, d.Later e →
    (∀ id ∈ ids, d.store.size ≤ id) → d.Later (e.unplace ids)
  | [], _, h, _ => h
  | id :: rest, e, h, hids => by
    obtain ⟨hid, hrest⟩ := List.forall_mem_cons.mp hids
    obtain ⟨hsize, new, hnew, hmade⟩ := h
    have hold : id ∉ d.placed := fun hmem => Nat.not_lt.mpr hid (hd id hmem)
    have herase : e.placed.erase id = new.erase id ++ d.placed := by
      rw [hnew, List.erase_append]
      split
      case isTrue => rfl
      case isFalse hmem => rw [List.erase_of_not_mem hold, List.erase_of_not_mem hmem]
    have hfirst : d.Later { e with placed := e.placed.erase id } :=
      ⟨hsize, _, herase, fun j hj => hmade j (List.mem_of_mem_erase hj)⟩
    have hall : d.Later (Draft.unplace { e with placed := e.placed.erase id } rest) :=
      unplace hd hfirst hrest
    exact hall

end Later

/-! ## The constructor -/

/-- The constructor is put into the output when it is made. -/
theorem later_ensureConstructor (h : d.ensureConstructor l = .ok (e, c)) : d.Later e := by
  unfold ensureConstructor at h
  split at h
  case h_1 =>
    cases h
    exact .refl d
  case h_2 =>
    obtain ⟨store, hstore, h⟩ := bind_eq_ok.mp h
    obtain ⟨name, -, rfl⟩ := Store.pushConstructor_eq_ok.mp hstore
    cases h
    have hsize := Store.size_push d.store (.constructor l (.named (Name.simple name)) none [])
    refine Later.place (.of_eq ?_ rfl) (List.forall_mem_singleton.mpr ⟨Nat.le_refl _, ?_⟩)
    · exact Nat.le_of_lt (hsize ▸ Nat.lt_succ_self _)
    · exact hsize ▸ Nat.lt_succ_self _


/-- What the constructor takes up is taken out of the output. -/
theorem later_absorbInto (hd : d.IsBounded) (h : d.Later e)
    (hmade : ∀ id ∈ made, d.store.size ≤ id)
    (hrun : e.absorbInto c criteria n made = .ok (f, absorbed)) :
    d.Later f ∧ e.store.size ≤ f.store.size := by
  have htaken : ∀ {g : Draft}, g.store.size = e.store.size → g.placed = e.placed →
      d.Later (g.unplace made) ∧ e.store.size ≤ (g.unplace made).store.size :=
    fun hsize hplaced => ⟨.unplace hd (h.store (Nat.le_of_eq hsize.symm) hplaced) hmade,
      Nat.le_of_eq hsize.symm⟩
  cases made with
  | nil =>
    cases hrun
    exact ⟨h, Nat.le_refl _⟩
  | cons id rest =>
    rw [absorbInto] at hrun
    split at hrun
    case h_1 =>
      obtain ⟨g, hg, hrun⟩ := bind_eq_ok.mp hrun
      obtain ⟨⟨kept, hattach⟩, hplaced, -⟩ := absorbReceiver_spec hg
      cases hrun
      exact htaken (Store.size_attachReceiver hattach) hplaced
    case h_2 =>
      split at hrun
      case isTrue =>
        obtain ⟨store, hstore, hrun⟩ := bind_eq_ok.mp hrun
        cases hrun
        exact htaken (Store.size_addTypeAnnotation hstore) rfl
      case isFalse =>
        split at hrun
        case isTrue =>
          cases hrun
          exact ⟨h, Nat.le_refl _⟩
        case isFalse =>
          obtain ⟨store, hstore, hrun⟩ := bind_eq_ok.mp hrun
          cases hrun
          exact htaken (Store.size_attachDeclarations hstore) rfl

/-- **Absorbing** only takes out of the output what was put into it since. -/
theorem later_absorb (hd : d.IsBounded) (h : d.Later e)
    (hmade : ∀ id ∈ made, d.store.size ≤ id)
    (hrun : absorb ctx l criteria e n made = .ok (f, absorbed)) :
    d.Later f ∧ e.store.size ≤ f.store.size := by
  unfold absorb at hrun
  split at hrun
  case isTrue =>
    obtain ⟨⟨g, c⟩, hensure, hrun⟩ := bind_eq_ok.mp hrun
    have hg := later_ensureConstructor hensure
    obtain ⟨hf, hsize⟩ := later_absorbInto hd (h.trans hg) hmade hrun
    exact ⟨hf, Nat.le_trans hg.size_le hsize⟩
  case isFalse =>
    cases hrun
    exact ⟨h, Nat.le_refl _⟩

/-! ## Positions -/

/-- **Fresh numbers**: those of insertions made from one draft on to another, in the order in
which they were made. -/
structure IsFresh (d e : Draft) (ids : List InsertionId) : Prop where
  /-- The insertions were made in between. -/
  between : ∀ id ∈ ids, d.store.size ≤ id ∧ id < e.store.size
  /-- They are in order. -/
  ordered : ids.Pairwise (· < ·)

namespace IsFresh

theorem nil (d e : Draft) : IsFresh d e [] :=
  ⟨fun _ hid => absurd hid List.not_mem_nil, .nil⟩

/-- Numbers from one draft to the next, and from there on. -/
theorem append {more : List InsertionId} (h : IsFresh d e ids) (hd : d.Later e)
    (h' : IsFresh e f more) (he : e.Later f) : IsFresh d f (ids ++ more) where
  between := fun id hid => by
    rcases List.mem_append.mp hid with hid | hid
    · exact ⟨(h.between id hid).1, Nat.lt_of_lt_of_le (h.between id hid).2 he.size_le⟩
    · exact ⟨Nat.le_trans hd.size_le (h'.between id hid).1, (h'.between id hid).2⟩
  ordered := List.pairwise_append.mpr ⟨h.ordered, h'.ordered, fun j hj k hk =>
    Nat.lt_of_lt_of_le (h.between j hj).2 (h'.between k hk).1⟩

end IsFresh

/-- A single number is fresh. -/
theorem IsFresh.singleton (hid : d.store.size ≤ id) (hlt : id < e.store.size) :
    IsFresh d e [id] :=
  ⟨List.forall_mem_singleton.mpr ⟨hid, hlt⟩, List.pairwise_singleton _ _⟩

/-- **An insertion of its own** is put into the output at most. -/
theorem later_addSingle (hd : d.IsBounded)
    (h : addSingle ctx l criteria withhold d n = .ok (e, id)) : d.Later e ∧ IsFresh d e [id] := by
  let pushed : Draft := { d with
    store := d.store.push (.single n.text (singleCriteria l criteria) (!n.typeOnly)) }
  have hsize : pushed.store.size = d.store.size + 1 := Store.size_push _ _
  have hlt : d.store.size < pushed.store.size := hsize ▸ Nat.lt_succ_self _
  have hmade : ∀ j ∈ (if withhold then [] else [d.store.size] : List InsertionId),
      d.store.size ≤ j ∧ j < pushed.store.size := by
    cases withhold with
    | true => exact fun j hj => absurd hj List.not_mem_nil
    | false => exact List.forall_mem_singleton.mpr ⟨Nat.le_refl _, hlt⟩
  have hpushed : d.Later (pushed.place (if withhold then [] else [d.store.size])) :=
    Later.place (.of_eq (Nat.le_of_lt hlt) rfl) hmade
  have hrecorded : d.Later
      ((pushed.place (if withhold then [] else [d.store.size])).record d.store.size n) :=
    hpushed.store (Nat.le_refl _) rfl
  obtain ⟨⟨f, absorbed⟩, hrun, h⟩ := bind_eq_ok.mp h
  cases h
  obtain ⟨he, hgrown⟩ := later_absorb hd hrecorded (fun j hj => (hmade j hj).1) hrun
  exact ⟨he, .singleton (Nat.le_refl _) (Nat.lt_of_lt_of_le hlt hgrown)⟩

/-- **Insertions of their own** are put into the output at most. -/
theorem later_addSingles : ∀ {notes : List Note} {d : Draft} {ids : List InsertionId},
    d.IsBounded → addSingles ctx l criteria withhold d notes = .ok (e, ids) →
    d.Later e ∧ IsFresh d e ids
  | [], d, _, _, h => by
    cases h
    exact ⟨.refl _, .nil _ _⟩
  | n :: rest, d, _, hd, h => by
    obtain ⟨⟨f, id⟩, hf, h⟩ := bind_eq_ok.mp h
    obtain ⟨⟨g, more⟩, hg, h⟩ := bind_eq_ok.mp h
    cases h
    obtain ⟨hlater, hid⟩ := later_addSingle hd hf
    obtain ⟨hlater', hmore⟩ := later_addSingles (hlater.isBounded hd) hg
    exact ⟨hlater.trans hlater', hid.append hlater hmore hlater'⟩

/-- What gathers annotations is not put into the output when it is made. -/
theorem create_spec {text : Option String} (h : create form l inner text d = .ok (e, made)) :
    e.placed = d.placed ∧ IsFresh d e made ∧ d.store.size ≤ e.store.size := by
  have hpush : ∀ i, d.store.size < (d.store.push i).size := fun i =>
    Store.size_push d.store i ▸ Nat.lt_succ_self _
  cases form with
  | receiver =>
    cases h
    exact ⟨rfl, .singleton (Nat.le_refl _) (hpush _), Nat.le_of_lt (hpush _)⟩
  | new =>
    cases h
    exact ⟨rfl, .singleton (Nat.le_refl _) (hpush _), Nat.le_of_lt (hpush _)⟩
  | cast type =>
    obtain ⟨store, hstore, h⟩ := bind_eq_ok.mp h
    have hsize := (Store.pushCast_spec hstore).1
    cases h
    have hlt : d.store.size + 1 < store.size := hsize ▸ Nat.lt_succ_self _
    have hlt' : d.store.size < store.size := Nat.lt_of_succ_lt hlt
    refine ⟨rfl, ⟨?_, ?_⟩, Nat.le_of_lt hlt'⟩
    · refine List.forall_mem_cons.mpr ⟨⟨Nat.le_refl _, hlt'⟩, ?_⟩
      exact List.forall_mem_singleton.mpr ⟨Nat.le_succ _, hlt⟩
    · exact List.pairwise_pair.mpr (Nat.lt_succ_self _)
  | single =>
    cases h
    exact ⟨rfl, .nil d d, Nat.le_refl _⟩

/-- Further annotations leave the output alone. -/
theorem later_addNotes : ∀ {notes : List Note} {d : Draft},
    notes.foldlM (addNote id) d = .ok e → d.Later e
  | [], d, h => by
    cases h
    exact .refl _
  | n :: rest, d, h => by
    rw [List.foldlM_cons] at h
    obtain ⟨f, hf, h⟩ := bind_eq_ok.mp h
    obtain ⟨hstore, hplaced, -⟩ := addNote_spec hf
    exact (Later.of_eq (Nat.le_of_eq (Store.size_addTypeAnnotation hstore).symm) hplaced).trans
      (later_addNotes h)

/-- **What gathers annotations** is put into the output at most. -/
theorem later_gather {notes : List Note} (hd : d.IsBounded)
    (h : gather ctx form l criteria inner d notes = .ok e) : d.Later e := by
  cases notes with
  | nil =>
    rw [gather] at h
    split at h
    case isTrue =>
      obtain ⟨⟨f, made⟩, hf, h⟩ := bind_eq_ok.mp h
      obtain ⟨hplaced, hmade, hsize⟩ := create_spec hf
      cases h
      exact (Later.of_eq hsize hplaced).place hmade.between
    case isFalse =>
      cases h
      exact .refl d
  | cons n rest =>
    obtain ⟨⟨f, made⟩, hf, h⟩ := bind_eq_ok.mp h
    obtain ⟨⟨g, absorbed⟩, hg, h⟩ := bind_eq_ok.mp h
    obtain ⟨k, hk, h⟩ := bind_eq_ok.mp h
    cases h
    obtain ⟨hplaced, hmade, hsize⟩ := create_spec hf
    have hcreated : d.Later (f.record d.store.size n) := .of_eq hsize hplaced
    obtain ⟨hlater, hsize'⟩ := later_absorb hd hcreated (fun j hj => (hmade.between j hj).1) hg
    have hnotes := later_addNotes hk
    split
    case isTrue => exact hlater.trans hnotes
    case isFalse =>
      refine (hlater.trans hnotes).place (fun j hj => ⟨(hmade.between j hj).1, ?_⟩)
      exact Nat.lt_of_lt_of_le (hmade.between j hj).2 (Nat.le_trans hsize' hnotes.size_le)

/-- **At a position within a type** only what is made there is put into the output. -/
theorem later_visitNested {p : Position} (hd : d.IsBounded)
    (h : visitNested ctx withhold d p = .ok (e, ids)) : d.Later e ∧ IsFresh d e ids := by
  rw [visitNested] at h
  obtain ⟨notes, -, h⟩ := bind_eq_ok.mp h
  split at h
  case h_1 => exact later_addSingles hd h
  case h_2 =>
    obtain ⟨f, hf, h⟩ := bind_eq_ok.mp h
    cases h
    exact ⟨later_gather hd hf, .nil _ _⟩

/-- At the positions within a type only what is made there is put into the output. -/
theorem later_visitAllNested : ∀ {positions : List Position} {d : Draft} {ids : List InsertionId},
    d.IsBounded → visitAllNested ctx withhold d positions = .ok (e, ids) →
    d.Later e ∧ IsFresh d e ids
  | [], d, _, _, h => by
    cases h
    exact ⟨.refl _, .nil _ _⟩
  | p :: rest, d, _, hd, h => by
    obtain ⟨⟨f, ids⟩, hf, h⟩ := bind_eq_ok.mp h
    obtain ⟨⟨g, more⟩, hg, h⟩ := bind_eq_ok.mp h
    cases h
    obtain ⟨hlater, hids⟩ := later_visitNested hd hf
    obtain ⟨hlater', hmore⟩ := later_visitAllNested (hlater.isBounded hd) hg
    exact ⟨hlater.trans hlater', hids.append hlater hmore hlater'⟩

/-! ## What is withheld -/

/-- A withheld annotation within a type is not put into the output, and it does not ask for
a constructor. -/
theorem placed_addSingle (hpath : criteria.hasTypePath = true)
    (h : addSingle ctx l criteria true d n = .ok (e, id)) : e.placed = d.placed := by
  obtain ⟨⟨f, absorbed⟩, hrun, h⟩ := bind_eq_ok.mp h
  unfold absorb at hrun
  rw [if_neg (by simp [hpath])] at hrun
  cases hrun
  cases h
  rfl

/-- Nor do several of them. -/
theorem placed_addSingles (hpath : criteria.hasTypePath = true) :
    ∀ {notes : List Note} {d : Draft} {ids : List InsertionId},
      addSingles ctx l criteria true d notes = .ok (e, ids) → e.placed = d.placed
  | [], _, _, h => by
    cases h
    rfl
  | n :: rest, d, _, h => by
    obtain ⟨⟨f, id⟩, hf, h⟩ := bind_eq_ok.mp h
    obtain ⟨⟨g, more⟩, hg, h⟩ := bind_eq_ok.mp h
    cases h
    exact (placed_addSingles hpath hg).trans (placed_addSingle hpath hf)

/-- **What is withheld within a type** is not put into the output. -/
theorem placed_visitAllNested : ∀ {positions : List Position} {d : Draft}
    {ids : List InsertionId}, (∀ p ∈ positions, p.criteria.compose.hasTypePath = true) →
    visitAllNested ctx true d positions = .ok (e, ids) → e.placed = d.placed
  | [], d, _, _, h => by
    cases h
    rfl
  | p :: rest, d, _, hpaths, h => by
    obtain ⟨hpath, hrest⟩ := List.forall_mem_cons.mp hpaths
    obtain ⟨⟨f, ids⟩, hf, h⟩ := bind_eq_ok.mp h
    obtain ⟨⟨g, more⟩, hg, h⟩ := bind_eq_ok.mp h
    cases h
    rw [placed_visitAllNested hrest hg]
    rw [visitNested] at hf
    obtain ⟨notes, -, hf⟩ := bind_eq_ok.mp hf
    have hsingle : Form.classify p.criteria.compose none = .single := by
      simp [Form.classify, hpath]
    rw [hsingle] at hf
    exact placed_addSingles hpath hf

/-! ## Sites -/

/-- **What is made at a site itself** comes into the output behind what was withheld. -/
theorem later_visitOwn {s : Site} (hd : (release s d inner).IsBounded)
    (h : visitOwn ctx s d inner = .ok e) : (release s d inner).Later e := by
  rw [visitOwn] at h
  obtain ⟨notes, -, h⟩ := bind_eq_ok.mp h
  split at h
  case h_1 =>
    obtain ⟨⟨f, ids⟩, hf, h⟩ := bind_eq_ok.mp h
    cases h
    exact (later_addSingles hd hf).1
  case h_2 => exact later_gather hd h

end Draft

end AnnotationPlan
