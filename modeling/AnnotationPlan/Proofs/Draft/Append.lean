import AnnotationPlan.Proofs.Draft.Visit
import AnnotationPlan.Proofs.Store.Append

/-!
# Drafts put behind one another

What comes of a class is added to a draft that holds what came of all that was before it.
Nothing is ever done to what is there already, so a class can as well be worked off from
the empty draft, and what comes of it be put behind the other draft (`Draft.append`).
This is shown for every function on the way from the store up to a visit, each by those
that it calls (`Draft.visits_append`).

It takes a draft that is **closed**: the numbers in it are those of its own insertions,
so that none of them is mistaken for a new one, and where a constructor may be written it
has none, so that none is taken for that of the next class.
-/

namespace AnnotationPlan

/-- Names merged with names that were merged. -/
theorem Formatter.mergeImports_assoc (xs ys zs : List String) :
    mergeImports (mergeImports xs ys) zs = mergeImports xs (mergeImports ys zs) :=
  Store.addMissing_assoc zs xs ys

namespace Draft

variable {ctx : Context} {d₀ d : Draft}

/-- **A draft behind another one**: the insertions of the one come after those of the
other, and so does everything else. -/
def append (d₀ d : Draft) : Draft where
  store := d₀.store.append d.store
  placed := d.placed.map (· + d₀.store.size) ++ d₀.placed
  sources := d₀.sources.append d₀.store.size d.sources
  imports := Formatter.mergeImports d₀.imports d.imports
  warnings := d₀.warnings ++ d.warnings
  constructor := (d.constructor.map (· + d₀.store.size)).or d₀.constructor

theorem size_append (d₀ d : Draft) :
    (d₀.append d).store.size = d.store.size + d₀.store.size :=
  Store.size_append d₀.store d.store

/-- **A closed draft**: one that others may be put behind. -/
structure Closed (ctx : Context) (d₀ : Draft) : Prop where
  /-- The output is in the store. -/
  placed_lt : ∀ id ∈ d₀.placed, id < d₀.store.size
  /-- The sources are those of insertions in the store. -/
  sources_below : d₀.sources.Below d₀.store.size
  /-- If constructors are written, none is there that could be taken for a new one. -/
  constructor_eq : ctx.writesConstructor = true → d₀.constructor = none

/-- Warnings alone add nothing else. -/
theorem append_warnings (d₀ : Draft) (warnings : List Warning) :
    d₀.append { Draft.empty with warnings } = { d₀ with warnings := d₀.warnings ++ warnings } := by
  unfold append empty
  simp [Formatter.mergeImports]

/-- The empty draft adds nothing. -/
theorem append_empty (d₀ : Draft) : d₀.append .empty = d₀ := by
  have hnone := append_warnings d₀ []
  rwa [List.append_nil] at hnone

/-! ## The output and the sources -/

theorem place_append (d₀ d : Draft) (ids : List InsertionId) :
    (d₀.append d).place (ids.map (· + d₀.store.size)) = d₀.append (d.place ids) := by
  unfold place append
  rw [List.map_append, List.map_reverse, List.append_assoc]

/-- Taking out what was put behind. -/
theorem unplace_append (h₀ : d₀.Closed ctx) : ∀ (ids : List InsertionId) (d : Draft),
    (d₀.append d).unplace (ids.map (· + d₀.store.size)) = d₀.append (d.unplace ids)
  | [], _ => rfl
  | id :: rest, d => by
    have hnot : id + d₀.store.size ∉ d₀.placed := fun hid =>
      Nat.not_lt_of_le (Nat.le_add_left _ id) (h₀.placed_lt _ hid)
    have herase : (d.placed.map (· + d₀.store.size) ++ d₀.placed).erase (id + d₀.store.size)
        = (d.placed.erase id).map (· + d₀.store.size) ++ d₀.placed := by
      rw [List.map_erase (f := (· + d₀.store.size)) (fun _ _ => Nat.add_right_cancel)]
      by_cases hmem : id + d₀.store.size ∈ d.placed.map (· + d₀.store.size)
      · rw [List.erase_append_left _ hmem]
      · rw [List.erase_append_right _ hmem, List.erase_of_not_mem hnot,
          List.erase_of_not_mem hmem]
    have hfirst : (d₀.append d).unplace ((id :: rest).map (· + d₀.store.size))
        = (d₀.append { d with placed := d.placed.erase id }).unplace
            (rest.map (· + d₀.store.size)) := by
      unfold unplace append
      rw [List.map_cons, List.foldl_cons, herase]
    rw [hfirst, unplace_append h₀ rest]
    rfl

theorem record_append (h₀ : d₀.Closed ctx) (d : Draft) (id : InsertionId) (n : Note) :
    (d₀.append d).record (id + d₀.store.size) n = d₀.append (d.record id n) := by
  unfold record append
  rw [Sources.put_append h₀.sources_below, Formatter.mergeImports_assoc]

/-! ## The constructor of a class -/

theorem ensureConstructor_append (h₀ : d₀.Closed ctx) (hwrites : ctx.writesConstructor = true)
    (d : Draft) (place : CriteriaList) :
    Carries (Prod.map d₀.append (· + d₀.store.size)) (d.ensureConstructor place)
      ((d₀.append d).ensureConstructor place) := by
  have hconstructor : (d₀.append d).constructor = d.constructor.map (· + d₀.store.size) := by
    rw [append, h₀.constructor_eq hwrites, Option.or_none]
  unfold ensureConstructor
  rw [hconstructor]
  cases d.constructor with
  | some c => exact .pure rfl
  | none =>
    refine (Store.pushConstructor_append d₀.store d.store place).bind (fun store => .pure ?_)
    show (({ d₀.append d with
        store := d₀.store.append store
        constructor := some (d₀.store.append d.store).size } : Draft).place
          [(d₀.store.append d.store).size], (d₀.store.append d.store).size) = _
    rw [Store.size_append]
    exact congrArg (·, d.store.size + d₀.store.size)
      (place_append d₀ { d with store, constructor := some d.store.size } [d.store.size])

theorem absorbReceiver_append (h₀ : d₀.Closed ctx) (d : Draft) (c id : InsertionId) :
    Carries d₀.append (d.absorbReceiver c id)
      ((d₀.append d).absorbReceiver (c + d₀.store.size) (id + d₀.store.size)) := by
  refine (Store.attachReceiver_append d₀.store d.store c id).bind (fun ⟨store, kept⟩ => ?_)
  dsimp only [Prod.map]
  by_cases hkept : kept = id
  · rw [if_pos hkept, if_pos (congrArg (· + d₀.store.size) hkept)]
    exact .pure rfl
  · rw [if_neg hkept, if_neg (fun e => hkept (Nat.add_right_cancel e))]
    refine .pure ?_
    show { d₀.append d with
      store := d₀.store.append store
      sources := ((d₀.sources.append d₀.store.size d.sources).get (id + d₀.store.size)).foldl
        (Sources.put · (kept + d₀.store.size))
        (d₀.sources.append d₀.store.size d.sources) } = _
    rw [Sources.get_append h₀.sources_below, Sources.puts_append h₀.sources_below]
    rfl

/-- What goes onto the name of the constructor or above it. -/
theorem declare_append (h₀ : d₀.Closed ctx) (d : Draft) (c : InsertionId) (criteria : Criteria)
    (n : Note) (made : List InsertionId) :
    Carries (Prod.map d₀.append id)
      (if criteria.isOnReturnType then do
          let store ← d.store.addTypeAnnotation c n.text
          pure (({ d with store } : Draft).unplace made, true)
        else if n.typeOnly then pure (d, false)
        else do
          let store ← made.foldlM (fun s j => s.attachDeclaration c j) d.store
          pure (({ d with store } : Draft).unplace made, true))
      (if criteria.isOnReturnType then do
          let store ← Store.addTypeAnnotation (d₀.append d).store (c + d₀.store.size) n.text
          pure (({ d₀.append d with store } : Draft).unplace (made.map (· + d₀.store.size)), true)
        else if n.typeOnly then pure (d₀.append d, false)
        else do
          let store ← (made.map (· + d₀.store.size)).foldlM
            (fun s j => s.attachDeclaration (c + d₀.store.size) j) (d₀.append d).store
          pure (({ d₀.append d with store } : Draft).unplace (made.map (· + d₀.store.size)),
            true)) := by
  have hunplace : ∀ store, ({ d₀.append d with store := d₀.store.append store } : Draft).unplace
      (made.map (· + d₀.store.size)) = d₀.append (({ d with store } : Draft).unplace made) :=
    fun store => unplace_append h₀ made { d with store }
  split
  · refine (Store.addTypeAnnotation_append d₀.store d.store c n.text).bind (fun store => .pure ?_)
    exact congrArg (·, true) (hunplace store)
  · split
    · exact .pure rfl
    · have hdeclared : Carries d₀.store.append
          (made.foldlM (fun s j => s.attachDeclaration c j) d.store)
          ((made.map (· + d₀.store.size)).foldlM
            (fun s j => s.attachDeclaration (c + d₀.store.size) j) (d₀.append d).store) :=
        Carries.foldlM (fun s j => Store.attachDeclaration_append d₀.store s c j) made d.store
      exact hdeclared.bind (fun store => .pure (congrArg (·, true) (hunplace store)))

theorem absorbInto_append (h₀ : d₀.Closed ctx) (d : Draft) (c : InsertionId)
    (criteria : Criteria) (n : Note) (made : List InsertionId) :
    Carries (Prod.map d₀.append id) (d.absorbInto c criteria n made)
      ((d₀.append d).absorbInto (c + d₀.store.size) criteria n
        (made.map (· + d₀.store.size))) := by
  cases made with
  | nil => exact .pure rfl
  | cons id rest =>
    have hdeclare := declare_append h₀ d c criteria n (id :: rest)
    have hget : (d₀.append d).store.get? (id + d₀.store.size)
        = (d.store.get? id).map (Insertion.shift d₀.store.size) :=
      Store.get?_append_add d₀.store d.store id
    rw [List.map_cons] at hdeclare ⊢
    rw [absorbInto, absorbInto, hget]
    -- the first insertion decides, and it is a receiver before and after, or neither time
    cases d.store.get? id with
    | none => exact hdeclare
    | some i =>
      cases i with
      | receiver place type inner =>
        refine (absorbReceiver_append h₀ d c id).bind (fun e => .pure ?_)
        exact congrArg (·, true) (unplace_append h₀ (id :: rest) e)
      | _ => exact hdeclare

theorem absorb_append (h₀ : d₀.Closed ctx) (place : CriteriaList) (criteria : Criteria)
    (d : Draft) (n : Note) (made : List InsertionId) :
    Carries (Prod.map d₀.append id) (absorb ctx place criteria d n made)
      (absorb ctx place criteria (d₀.append d) n (made.map (· + d₀.store.size))) := by
  unfold absorb
  split
  case isTrue h =>
    have hwrites : ctx.writesConstructor = true := by
      simp only [Bool.and_eq_true] at h
      exact h.1.2
    exact (ensureConstructor_append h₀ hwrites d place).bind
      (fun r => absorbInto_append h₀ r.1 r.2 criteria n made)
  case isFalse => exact .pure rfl

/-! ## Positions -/

/-- A single annotation that is made and recorded. -/
theorem push_append (h₀ : d₀.Closed ctx) (d : Draft) (i : Insertion) (n : Note)
    (made : List InsertionId) :
    (({ d₀.append d with store := (d₀.append d).store.push (i.shift d₀.store.size) } : Draft).place
        (made.map (· + d₀.store.size))).record (d₀.append d).store.size n
      = d₀.append ((({ d with store := d.store.push i } : Draft).place made).record
          d.store.size n) := by
  rw [← record_append h₀, ← place_append, ← size_append]
  unfold append
  rw [← Store.push_append]

theorem addSingle_append (h₀ : d₀.Closed ctx) (place : CriteriaList) (criteria : Criteria)
    (withhold : Bool) (d : Draft) (n : Note) :
    Carries (Prod.map d₀.append (· + d₀.store.size)) (addSingle ctx place criteria withhold d n)
      (addSingle ctx place criteria withhold (d₀.append d) n) := by
  have hmade : (if withhold then [] else [(d₀.append d).store.size])
      = (if withhold then [] else [d.store.size]).map (· + d₀.store.size) := by
    rw [size_append]
    cases withhold <;> rfl
  have hpush := push_append h₀ d
    (.single n.text (singleCriteria place criteria) (!n.typeOnly)) n
    (if withhold then [] else [d.store.size])
  unfold addSingle
  dsimp only
  rw [hmade]
  rw [Insertion.shift] at hpush
  rw [hpush, size_append]
  exact (absorb_append h₀ place criteria _ n _).bind (fun r => .pure rfl)

theorem addSingles_append (h₀ : d₀.Closed ctx) (place : CriteriaList) (criteria : Criteria)
    (withhold : Bool) : ∀ (notes : List Note) (d : Draft),
    Carries (Prod.map d₀.append (List.map (· + d₀.store.size)))
      (addSingles ctx place criteria withhold d notes)
      (addSingles ctx place criteria withhold (d₀.append d) notes)
  | [], _ => .pure rfl
  | n :: rest, d =>
    (addSingle_append h₀ place criteria withhold d n).bind (fun r =>
      (addSingles_append h₀ place criteria withhold rest r.1).bind (fun _ => .pure rfl))

theorem create_append (d₀ d : Draft) (form : Form) (place : CriteriaList)
    (inner : List InsertionId) (text : Option String) :
    Carries (Prod.map d₀.append (List.map (· + d₀.store.size))) (create form place inner text d)
      (create form place (inner.map (· + d₀.store.size)) text (d₀.append d)) := by
  unfold create
  rw [size_append]
  cases form with
  | receiver =>
    refine .pure (congrArg (·, [d.store.size + d₀.store.size]) ?_)
    unfold append
    rw [← Store.pushReceiver_append]
  | new =>
    refine .pure (congrArg (·, [d.store.size + d₀.store.size]) ?_)
    unfold append
    rw [← Store.pushNew_append]
  | cast type =>
    refine (Store.pushCast_append d₀.store d.store type text inner place).bind
      (fun store => .pure ?_)
    rw [Nat.add_right_comm]
    rfl
  | single => exact .pure rfl

theorem addNote_append (h₀ : d₀.Closed ctx) (id : InsertionId) (d : Draft) (n : Note) :
    Carries d₀.append (addNote id d n) (addNote (id + d₀.store.size) (d₀.append d) n) := by
  refine (Store.addTypeAnnotation_append d₀.store d.store id n.text).bind (fun store => .pure ?_)
  exact record_append h₀ { d with store } id n

theorem gather_append (h₀ : d₀.Closed ctx) (form : Form) (place : CriteriaList)
    (criteria : Criteria) (inner : List InsertionId) (d : Draft) (notes : List Note) :
    Carries d₀.append (gather ctx form place criteria inner d notes)
      (gather ctx form place criteria (inner.map (· + d₀.store.size)) (d₀.append d) notes) := by
  cases notes with
  | nil =>
    rw [gather, gather, List.isEmpty_map]
    split
    case isTrue =>
      exact (create_append d₀ d form place inner none).bind
        (fun r => .pure (place_append d₀ r.1 r.2))
    case isFalse => exact .pure rfl
  | cons n rest =>
    rw [gather, gather, size_append]
    refine (create_append d₀ d form place inner (some n.text)).bind (fun r => ?_)
    dsimp only [Prod.map]
    rw [record_append h₀]
    refine (absorb_append h₀ place criteria (r.1.record d.store.size n) n r.2).bind (fun a => ?_)
    have hrest : Carries d₀.append (rest.foldlM (addNote d.store.size) a.1)
        (rest.foldlM (addNote (d.store.size + d₀.store.size)) (d₀.append a.1)) :=
      .foldlM_self (addNote_append h₀ d.store.size) rest a.1
    refine hrest.bind (fun e => .pure ?_)
    dsimp only [Prod.map, id]
    rw [place_append]
    split <;> rfl

theorem visitNested_append (h₀ : d₀.Closed ctx) (withhold : Bool) (d : Draft) (p : Position) :
    Carries (Prod.map d₀.append (List.map (· + d₀.store.size))) (visitNested ctx withhold d p)
      (visitNested ctx withhold (d₀.append d) p) := by
  refine Carries.bind_self _ (fun notes => ?_)
  have hgather : ∀ form : Form, Carries (Prod.map d₀.append (List.map (· + d₀.store.size)))
      (gather ctx form p.criteria p.criteria.compose [] d notes >>= fun e => pure (e, []))
      (gather ctx form p.criteria p.criteria.compose [] (d₀.append d) notes
        >>= fun e => pure (e, [])) := fun form =>
    (gather_append h₀ form p.criteria p.criteria.compose [] d notes).bind (fun _ => .pure rfl)
  cases Form.classify p.criteria.compose none with
  | single => exact addSingles_append h₀ p.criteria p.criteria.compose withhold notes d
  | _ => exact hgather _

theorem visitAllNested_append (h₀ : d₀.Closed ctx) (withhold : Bool) :
    ∀ (positions : List Position) (d : Draft),
      Carries (Prod.map d₀.append (List.map (· + d₀.store.size)))
        (visitAllNested ctx withhold d positions)
        (visitAllNested ctx withhold (d₀.append d) positions)
  | [], _ => .pure rfl
  | p :: rest, d =>
    (visitNested_append h₀ withhold d p).bind (fun r =>
      (visitAllNested_append h₀ withhold rest r.1).bind
        (fun more => .pure (congrArg (d₀.append more.1, ·) List.map_append.symm)))

theorem release_append (d₀ d : Draft) (s : Site) (inner : List InsertionId) :
    release s (d₀.append d) (inner.map (· + d₀.store.size)) = d₀.append (release s d inner) := by
  unfold release
  split
  case isTrue => exact place_append d₀ d inner
  case isFalse => rfl

theorem visitOwn_append (h₀ : d₀.Closed ctx) (s : Site) (d : Draft) (inner : List InsertionId) :
    Carries d₀.append (visitOwn ctx s d inner)
      (visitOwn ctx s (d₀.append d) (inner.map (· + d₀.store.size))) := by
  refine Carries.bind_self _ (fun notes => ?_)
  rw [release_append]
  cases s.spot.form with
  | single =>
    exact (addSingles_append h₀ s.criteria s.criteria.compose false notes _).bind
      (fun _ => .pure rfl)
  | _ => exact gather_append h₀ _ s.criteria s.criteria.compose inner _ notes

/-- **A visit** to a site. -/
theorem visit_append (h₀ : d₀.Closed ctx) (d : Draft) (s : Site) :
    Carries d₀.append (visit ctx d s) (visit ctx (d₀.append d) s) := by
  rw [visit_eq, visit_eq]
  exact (visitAllNested_append h₀ s.withholds s.nested d).bind
    (fun r => visitOwn_append h₀ s r.1 r.2)

/-- **Sites worked off behind another draft** are worked off as from the start: what comes of
them is put behind that draft. -/
theorem visits_append (h₀ : d₀.Closed ctx) (sites : List Site) (d : Draft) :
    Carries d₀.append (sites.foldlM (visit ctx) d) (sites.foldlM (visit ctx) (d₀.append d)) :=
  .foldlM_self (visit_append h₀) sites d

end Draft

end AnnotationPlan
