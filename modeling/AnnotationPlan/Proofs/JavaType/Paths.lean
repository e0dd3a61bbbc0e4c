import AnnotationPlan.Proofs.JavaType.Decoration

/-!
# Paths within paths

A path that is joined from two leads to a position in two stages: the first path leads to a
position of the type, and the second one to a position of what is there. That is so for looking
and for changing. What is found is what the second path finds at the end of the first
(`JavaType.atSteps?_append`), and what is changed is that very place: the change is made inside
of what is at the end of the first path, and the result is put back where it was found
(`JavaType.modifySteps?_append`).

Writing an annotation is such a change. It moves no position, and it is seen at the end of its
own path and nowhere else – not on the way there, and not further inside
(`JavaType.at?_join_annotateAt?`).
-/

namespace AnnotationPlan.JavaType

variable {t t' : JavaType} {path : TypePath}

/-- **Change the position that a path leads to.** -/
def modifyAt? (f : JavaType → JavaType) (path : TypePath) (t : JavaType) : Option JavaType :=
  modifySteps? f path.steps t

theorem modifySteps?_cons (f : JavaType → JavaType) (s : TypePath.Step)
    (rest : List TypePath.Step) (t : JavaType) :
    modifySteps? f (s :: rest) t = (t.step? s).bind (fun inside =>
      (modifySteps? f rest inside).map (fun changed => setStep s changed t)) := by
  rw [modifySteps?]
  simp only [Option.pure_def, Option.bind_eq_bind, Option.map_eq_bind]
  rfl

/-- **Steps after steps** are taken from where the first ones lead to. -/
theorem atSteps?_append (more : List TypePath.Step) :
    ∀ (steps : List TypePath.Step) (t : JavaType),
      atSteps? (steps ++ more) t = (atSteps? steps t).bind (atSteps? more)
  | [], _ => rfl
  | s :: rest, t => by
    rw [List.cons_append, atSteps?_cons, atSteps?_cons, Option.bind_assoc]
    exact congrArg _ (funext (atSteps?_append more rest))

/-- **A change behind steps after steps** is made where the first ones lead to, and what comes
of it is put there. -/
theorem modifySteps?_append (f : JavaType → JavaType) (more : List TypePath.Step) :
    ∀ (steps : List TypePath.Step) (t : JavaType),
      modifySteps? f (steps ++ more) t
        = (atSteps? steps t).bind (fun u => (modifySteps? f more u).bind (fun v =>
            modifySteps? (fun _ => v) steps t))
  | [], t => by
    show modifySteps? f more t = (modifySteps? f more t).bind some
    exact (Option.bind_fun_some _).symm
  | s :: rest, t => by
    rw [List.cons_append, modifySteps?_cons, atSteps?_cons]
    cases hstep : t.step? s with
    | none => rfl
    | some inside =>
      -- both sides go into the same place and fill it with the same type
      simp only [modifySteps?_cons, hstep, Option.bind_some]
      rw [modifySteps?_append f more rest inside]
      simp only [Option.map_bind, Function.comp_def]

/-- A path leads nowhere if its first part does, or its second part from where the first one
leads to. -/
theorem at?_join_eq_none_iff (t : JavaType) (p q : TypePath) :
    t.at? (p.join q) = none ↔ t.at? p = none ∨ ∃ u, t.at? p = some u ∧ u.at? q = none := by
  have hjoin : t.at? (p.join q) = (t.at? p).bind (at? q) := atSteps?_append q.steps p.steps t
  rw [hjoin]
  cases t.at? p with
  | none => simp
  | some u => simp

/-- **An annotation is written at the end of a path that fits**, behind those that are there, and
neither the positions nor the annotations at any other one change. -/
theorem annotateAt?_of_fits {p : TypePath} (h : t.Fits p) (text : String) :
    ∃ t' as, t.annotateAt? p text = some t'
      ∧ (∀ r, t'.Fits r ↔ t.Fits r)
      ∧ t.annotationsAt? p = some as ∧ t'.annotationsAt? p = some (as ++ [text])
      ∧ ∀ r, r ≠ p → t'.annotationsAt? r = t.annotationsAt? r := by
  obtain ⟨t', ht'⟩ := Option.isSome_iff_exists.mp ((annotateAt?_isSome_iff t p text).mpr h)
  obtain ⟨u, hu⟩ := Option.isSome_iff_exists.mp h
  have has : t.annotationsAt? p = some u.annotations := by rw [annotationsAt?, hu, Option.map_some]
  refine ⟨t', u.annotations, ht', fits_congr (bare_eq_of_annotateAt? ht'), has, ?_, ?_⟩
  · rw [annotationsAt?_annotateAt? ht', has, if_pos rfl, Option.map_some]
  · intro r hr
    rw [annotationsAt?_annotateAt? ht', if_neg (Ne.symm hr)]
    simp

/-- **Positions and paths.** A path that is joined from two leads to the position that the second
one leads to in what the first one leads to; there is none exactly if one of the two leads
nowhere. It is the same place of the whole type: whatever is changed there is changed inside of
what the first path leads to, and the result put where that was found. And an annotation can be
written at the end of every path that fits the type; then the same paths fit as before, the
annotations there have the new one behind them, and those at the ends of all other paths are
what they were. -/
theorem at?_join_annotateAt? (t : JavaType) (p q : TypePath) :
    t.at? (p.join q) = (t.at? p).bind (at? q)
    ∧ (t.at? (p.join q) = none ↔ t.at? p = none ∨ ∃ u, t.at? p = some u ∧ u.at? q = none)
    ∧ (∀ f, t.modifyAt? f (p.join q)
        = (t.at? p).bind (fun u => (u.modifyAt? f q).bind (fun v => t.modifyAt? (fun _ => v) p)))
    ∧ ∀ text, t.annotateAt? p text = t.modifyAt? (annotate text) p
      ∧ (t.Fits p → ∃ t' as, t.annotateAt? p text = some t'
        ∧ (∀ r, t'.Fits r ↔ t.Fits r)
        ∧ t.annotationsAt? p = some as ∧ t'.annotationsAt? p = some (as ++ [text])
        ∧ ∀ r, r ≠ p → t'.annotationsAt? r = t.annotationsAt? r) :=
  ⟨atSteps?_append q.steps p.steps t, at?_join_eq_none_iff t p q,
    fun f => modifySteps?_append f q.steps p.steps t,
    fun text => ⟨rfl, fun h => annotateAt?_of_fits h text⟩⟩

/-- A map to lists that are known from above only, with annotations on the lists and on their
elements. -/
def mapToLists : JavaType :=
  .declared [] "Map" [named "K", .wildcard [] .upper
    (some (.declared ["@A"] "List" [.declared ["@B"] "E" [] none] none))] none

/-- The elements are found by way of the lists, and an annotation on the lists leaves them
alone. -/
theorem at?_join_annotateAt?_mapToLists :
    mapToLists.Fits ⟨[.argument 1, .wildcard]⟩
    ∧ mapToLists.at? (TypePath.join ⟨[.argument 1, .wildcard]⟩ ⟨[.argument 0]⟩)
        = some (.declared ["@B"] "E" [] none)
    ∧ ∃ t', mapToLists.annotateAt? ⟨[.argument 1, .wildcard]⟩ "@C" = some t'
        ∧ t'.annotationsAt? ⟨[.argument 1, .wildcard]⟩ = some ["@A", "@C"]
        ∧ t'.annotationsAt? ⟨[.argument 1, .wildcard, .argument 0]⟩ = some ["@B"] := by
  have hfits : mapToLists.Fits ⟨[.argument 1, .wildcard]⟩ := by decide
  obtain ⟨hjoin, -, -, hannotate⟩ :=
    at?_join_annotateAt? mapToLists ⟨[.argument 1, .wildcard]⟩ ⟨[.argument 0]⟩
  obtain ⟨t', as, ht', -, has, has', hothers⟩ := (hannotate "@C").2 hfits
  obtain rfl : ["@A"] = as := Option.some.inj has
  exact ⟨hfits, hjoin, t', ht', has', hothers _ (by decide)⟩

end AnnotationPlan.JavaType
