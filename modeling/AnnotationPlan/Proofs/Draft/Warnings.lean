import AnnotationPlan.Proofs.Draft.Visit

/-!
# Warnings are only carried along

No function looks at the warnings that a draft has, and none but the beginning of a class
adds one. So working off sites goes with exchanging the warnings
(`Draft.visits_withWarnings`): what comes of the sites is the same, and so is the error if
there is one. Each function takes this over from those that it calls.
-/

namespace AnnotationPlan.Draft

variable {ctx : Context} {warnings : List Warning}

/-- A draft with other warnings. -/
def withWarnings (d : Draft) (warnings : List Warning) : Draft := { d with warnings }

/-- A number that comes with a draft. -/
abbrev withWarningsFst {α : Type} (warnings : List Warning) : Draft × α → Draft × α :=
  Prod.map (·.withWarnings warnings) id

/-! ## The constructor of a class -/

theorem ensureConstructor_withWarnings (d : Draft) (place : CriteriaList) :
    Carries (withWarningsFst warnings) (d.ensureConstructor place)
      ((d.withWarnings warnings).ensureConstructor place) := by
  unfold ensureConstructor
  rw [show (d.withWarnings warnings).constructor = d.constructor from rfl]
  cases d.constructor with
  | some c => exact .pure rfl
  | none => exact .bind_self _ (fun _ => .pure rfl)

theorem absorbReceiver_withWarnings (d : Draft) (c id : InsertionId) :
    Carries (withWarnings · warnings) (d.absorbReceiver c id)
      ((d.withWarnings warnings).absorbReceiver c id) := by
  refine .bind_self _ (fun ⟨store, kept⟩ => ?_)
  dsimp only
  split
  · exact .pure rfl
  · exact .pure rfl

theorem absorbInto_withWarnings (d : Draft) (c : InsertionId) (criteria : Criteria) (n : Note)
    (made : List InsertionId) :
    Carries (withWarningsFst warnings) (d.absorbInto c criteria n made)
      ((d.withWarnings warnings).absorbInto c criteria n made) := by
  cases made with
  | nil => exact .pure rfl
  | cons id rest =>
    rw [absorbInto, absorbInto, show (d.withWarnings warnings).store = d.store from rfl]
    split
    · exact (absorbReceiver_withWarnings d c id).bind (fun _ => .pure rfl)
    · split
      · exact .bind_self _ (fun _ => .pure rfl)
      · split
        · exact .pure rfl
        · exact .bind_self _ (fun _ => .pure rfl)

theorem absorb_withWarnings (place : CriteriaList) (criteria : Criteria) (d : Draft) (n : Note)
    (made : List InsertionId) :
    Carries (withWarningsFst warnings) (absorb ctx place criteria d n made)
      (absorb ctx place criteria (d.withWarnings warnings) n made) := by
  unfold absorb
  split
  · exact (ensureConstructor_withWarnings d place).bind
      (fun r => absorbInto_withWarnings r.1 r.2 criteria n made)
  · exact .pure rfl

/-! ## Positions -/

theorem addSingle_withWarnings (place : CriteriaList) (criteria : Criteria) (withhold : Bool)
    (d : Draft) (n : Note) :
    Carries (withWarningsFst warnings) (addSingle ctx place criteria withhold d n)
      (addSingle ctx place criteria withhold (d.withWarnings warnings) n) :=
  (absorb_withWarnings place criteria _ n _).bind (fun _ => .pure rfl)

theorem addSingles_withWarnings (place : CriteriaList) (criteria : Criteria) (withhold : Bool) :
    ∀ (notes : List Note) (d : Draft),
      Carries (withWarningsFst warnings) (addSingles ctx place criteria withhold d notes)
        (addSingles ctx place criteria withhold (d.withWarnings warnings) notes)
  | [], _ => .pure rfl
  | n :: rest, d =>
    (addSingle_withWarnings place criteria withhold d n).bind (fun r =>
      (addSingles_withWarnings place criteria withhold rest r.1).bind (fun _ => .pure rfl))

theorem create_withWarnings (form : Form) (place : CriteriaList) (inner : List InsertionId)
    (text : Option String) (d : Draft) :
    Carries (withWarningsFst warnings) (create form place inner text d)
      (create form place inner text (d.withWarnings warnings)) := by
  cases form with
  | cast type => exact .bind_self _ (fun _ => .pure rfl)
  | _ => exact .pure rfl

theorem addNote_withWarnings (id : InsertionId) (d : Draft) (n : Note) :
    Carries (withWarnings · warnings) (addNote id d n)
      (addNote id (d.withWarnings warnings) n) :=
  .bind_self _ (fun _ => .pure rfl)

theorem gather_withWarnings (form : Form) (place : CriteriaList) (criteria : Criteria)
    (inner : List InsertionId) (d : Draft) (notes : List Note) :
    Carries (withWarnings · warnings) (gather ctx form place criteria inner d notes)
      (gather ctx form place criteria inner (d.withWarnings warnings) notes) := by
  cases notes with
  | nil =>
    rw [gather, gather]
    split
    · exact (create_withWarnings form place inner none d).bind (fun _ => .pure rfl)
    · exact .pure rfl
  | cons n rest =>
    refine (create_withWarnings form place inner (some n.text) d).bind (fun r => ?_)
    refine (absorb_withWarnings place criteria (r.1.record d.store.size n) n r.2).bind
      (fun a => ?_)
    refine (Carries.foldlM_self (addNote_withWarnings d.store.size) rest a.1).bind
      (fun e => .pure ?_)
    dsimp only [Prod.map, id]
    split <;> rfl

theorem visitNested_withWarnings (withhold : Bool) (d : Draft) (p : Position) :
    Carries (withWarningsFst warnings) (visitNested ctx withhold d p)
      (visitNested ctx withhold (d.withWarnings warnings) p) := by
  refine .bind_self _ (fun notes => ?_)
  have hgather : ∀ form : Form, Carries (withWarningsFst warnings)
      (gather ctx form p.criteria p.criteria.compose [] d notes
        >>= fun e => pure (e, ([] : List InsertionId)))
      (gather ctx form p.criteria p.criteria.compose [] (d.withWarnings warnings) notes
        >>= fun e => pure (e, [])) := fun form =>
    (gather_withWarnings form p.criteria p.criteria.compose [] d notes).bind (fun _ => .pure rfl)
  cases Form.classify p.criteria.compose none with
  | single => exact addSingles_withWarnings p.criteria p.criteria.compose withhold notes d
  | _ => exact hgather _

theorem visitAllNested_withWarnings (withhold : Bool) : ∀ (positions : List Position) (d : Draft),
    Carries (withWarningsFst warnings) (visitAllNested ctx withhold d positions)
      (visitAllNested ctx withhold (d.withWarnings warnings) positions)
  | [], _ => .pure rfl
  | p :: rest, d =>
    (visitNested_withWarnings withhold d p).bind (fun r =>
      (visitAllNested_withWarnings withhold rest r.1).bind (fun _ => .pure rfl))

theorem visitOwn_withWarnings (s : Site) (d : Draft) (inner : List InsertionId) :
    Carries (withWarnings · warnings) (visitOwn ctx s d inner)
      (visitOwn ctx s (d.withWarnings warnings) inner) := by
  have hrelease : release s (d.withWarnings warnings) inner
      = (release s d inner).withWarnings warnings := by
    unfold release
    split <;> rfl
  refine .bind_self _ (fun notes => ?_)
  rw [hrelease]
  cases s.spot.form with
  | single =>
    exact (addSingles_withWarnings s.criteria s.criteria.compose false notes _).bind
      (fun _ => .pure rfl)
  | _ => exact gather_withWarnings _ s.criteria s.criteria.compose inner _ notes

/-- **A visit** to a site. -/
theorem visit_withWarnings (d : Draft) (s : Site) :
    Carries (withWarnings · warnings) (visit ctx d s) (visit ctx (d.withWarnings warnings) s) := by
  rw [visit_eq, visit_eq]
  exact (visitAllNested_withWarnings s.withholds s.nested d).bind
    (fun r => visitOwn_withWarnings s r.1 r.2)

/-- **Sites worked off with other warnings** leave the same but for the warnings. -/
theorem visits_withWarnings (sites : List Site) (d : Draft) :
    Carries (withWarnings · warnings) (sites.foldlM (visit ctx) d)
      (sites.foldlM (visit ctx) (d.withWarnings warnings)) :=
  .foldlM_self visit_withWarnings sites d

end AnnotationPlan.Draft
