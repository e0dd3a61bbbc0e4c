import AnnotationPlan.Proofs.Store.Wiring

/-!
# Annotations written into casts

The annotations within the type of a cast are written into it one after another, each
at the position that its criteria name. Since a type only gains annotations, all of
them are there in the end, and go on being there (`Store.WrittenIn`). The only thing
that can go wrong with annotations on positions within a type is that the type has no
such position, and that is the fault of the scene.
-/

namespace AnnotationPlan.Store

variable {s s' : Store} {id c : InsertionId}

/-- **A single annotation is written in a cast**: its text is among the annotations at
the position of the type of the cast that its criteria name. -/
def WrittenIn (s : Store) (id c : InsertionId) : Prop :=
  ∃ text place separateLine criteria type path t,
    s.get? id = some (.single text place separateLine)
    ∧ s.get? c = some (.cast criteria type false)
    ∧ place.compose.typePath? = some path
    ∧ type.at? path = some t ∧ text ∈ t.annotations

/-- What is written stays written. -/
theorem WrittenIn.grows (h : s.WrittenIn id c) (hgrows : s.Grows s') : s'.WrittenIn id c := by
  obtain ⟨text, place, separateLine, criteria, type, path, t, hid, hc, hpath, ht, htext⟩ := h
  obtain ⟨type', hc', htype⟩ := hgrows.get?_cast hc
  obtain ⟨t', ht', -, hsub⟩ := htype path.steps t ht
  exact ⟨text, place, separateLine, criteria, type', path, t', hgrows.get?_single hid, hc',
    hpath, ht', hsub text htext⟩

/-- **Writing annotations into a type**: the type grows, and each annotation is at the
position that its criteria name. -/
theorem decorate_spec {criteria : CriteriaList} {whole : JavaType} :
    ∀ {inner : List InsertionId} {t t' : JavaType},
      s.decorate criteria whole inner t = .ok t' →
      t.Grows t' ∧ ∀ j ∈ inner, ∃ text place separateLine path u,
        s.get? j = some (.single text place separateLine)
        ∧ place.compose.typePath? = some path
        ∧ t'.at? path = some u ∧ text ∈ u.annotations
  | [], t, t', h => by
    obtain rfl : t = t' := Except.ok.inj h
    exact ⟨.refl t, fun j hj => absurd hj List.not_mem_nil⟩
  | id :: rest, t, t', h => by
    rw [decorate] at h
    split at h
    case h_1 text place separateLine hid =>
      split at h
      case h_1 => cases h
      case h_2 path hpath =>
        split at h
        case h_1 => cases h
        case h_2 annotated hannotated =>
          obtain ⟨hgrows, u, hu, htext⟩ := JavaType.annotateAt?_spec hannotated
          obtain ⟨hgrows', hrest⟩ := decorate_spec h
          refine ⟨hgrows.trans hgrows', List.forall_mem_cons.mpr ⟨?_, hrest⟩⟩
          -- the first one is still there when the others have been written
          obtain ⟨u', hu', -, hsub⟩ := hgrows' path.steps u hu
          exact ⟨text, place, separateLine, path, u', hid, hpath, hu', hsub text htext⟩
    case h_2 => cases h

/-- **Annotations within types fail to be written only if the type does not have their
position.** -/
theorem decorate_yields {criteria : CriteriaList} {whole : JavaType} :
    ∀ {inner : List InsertionId} {t : JavaType}, (∀ j ∈ inner, s.Has Insertion.IsWithin j) →
      Yields (fun _ => True) (s.decorate criteria whole inner t)
  | [], t, _ => trivial
  | id :: rest, t, h => by
    obtain ⟨hid, hrest⟩ := List.forall_mem_cons.mp h
    obtain ⟨i, hi, hsingle, path, hpath⟩ := hid
    cases i with
    | single text place separateLine =>
      rw [decorate, hi]
      dsimp only
      rw [show place.compose.typePath? = some path from hpath]
      dsimp only
      cases t.annotateAt? path text with
      | none => exact (rfl : PlanError.code _ = _)
      | some t' => exact decorate_yields hrest
    | _ => exact hsingle.elim

/-- **A cast with annotations within** can be made unless they do not fit its type. -/
theorem pushCast_yields {type : JavaType} {text : Option String} {inner : List InsertionId}
    {criteria : CriteriaList} (h : ∀ j ∈ inner, s.Has Insertion.IsWithin j) :
    Yields (fun _ => True) (s.pushCast type text inner criteria) :=
  (decorate_yields h).bind (fun _ _ => trivial)

/-- **What making a cast does**: the cast and its parenthesis get the next two numbers,
the type of the cast has grown, and all annotations within are written in it. -/
theorem pushCast_spec {type : JavaType} {text : Option String} {inner : List InsertionId}
    {criteria : CriteriaList} (h : s.pushCast type text inner criteria = .ok s') :
    s'.size = s.size + 2
    ∧ (∃ decorated, s'.get? s.size = some (.cast criteria decorated false))
    ∧ s'.get? (s.size + 1) = some (.closeParenthesis criteria false)
    ∧ ∀ j ∈ inner, s'.WrittenIn j s.size := by
  have hgrows := grows_pushCast h
  obtain ⟨decorated, hdecorate, rfl⟩ := pushCast_eq_ok.mp h
  have hcast := get?_push_push_size s (.cast criteria decorated false)
    (.closeParenthesis criteria false)
  refine ⟨by simp, ⟨decorated, hcast⟩, get?_push_push_succ s _ _, fun j hj => ?_⟩
  obtain ⟨text, place, separateLine, path, u, hget, hpath, hu, htext⟩ :=
    (decorate_spec hdecorate).2 j hj
  exact ⟨text, place, separateLine, criteria, decorated, path, u, hgrows.get?_single hget,
    hcast, hpath, hu, htext⟩

/-- A cast and its parenthesis come behind what is there. -/
theorem get?_pushCast_of_lt {type : JavaType} {text : Option String} {inner : List InsertionId}
    {criteria : CriteriaList} (h : s.pushCast type text inner criteria = .ok s')
    (hid : id < s.size) : s'.get? id = s.get? id := by
  obtain ⟨decorated, -, rfl⟩ := pushCast_eq_ok.mp h
  exact get?_push_push_of_lt hid _ _

end AnnotationPlan.Store
