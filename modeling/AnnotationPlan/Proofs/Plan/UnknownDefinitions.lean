import AnnotationPlan.Proofs.AnnotationUse.Known
import AnnotationPlan.Proofs.Plan.Safety
import AnnotationPlan.Proofs.Scene.Passing

/-!
# Unknown definitions are reported

A run that succeeds has written all annotations on the sites of the scene, and whatever
becomes of an annotation, it is written first. So all annotations that are read, and all
that these hold, are of known definitions, and a run on a scene where the definition of one
of them is unknown fails (`Plan.ofScene_unknownDefinition`).

Which annotations are read is told by the way to the element that they are on
(`Role.along?`). The others may be of unknown definitions: in a class that stands for a
package nothing counts but what is on the class itself (`Plan.packageScene_succeeds`).
-/

namespace AnnotationPlan

/-! ## One site -/

namespace Formatter

variable {f : Formatter} {u : AnnotationUse}

/-- **The annotations on a position that could be written** could be written one by one. -/
theorem written_of_notes {place : CriteriaList} {uses : List AnnotationUse} {notes : List Note}
    (h : f.notes place uses = .ok notes) (hu : u ∈ uses) : f.Written (.nested u) := by
  unfold Formatter.notes at h
  cases hfold : uses.foldlM f.addNote [] with
  | error e =>
    rw [hfold] at h
    cases h
  | ok all =>
    obtain ⟨before, after, hnote⟩ := exists_ok_of_foldlM hfold u hu
    obtain ⟨w, hw, -⟩ := bind_eq_ok.mp hnote
    exact ⟨w, hw⟩

end Formatter

namespace Draft

variable {ctx : Context} {u : AnnotationUse}

/-- Working off the positions within a type writes the annotations on all of them. -/
theorem written_of_visitAllNested {withhold : Bool} :
    ∀ {positions : List Position} {d : Draft} {r : Draft × List InsertionId},
      visitAllNested ctx withhold d positions = .ok r →
      ∀ q ∈ positions, u ∈ q.annotations → ctx.formatter.Written (.nested u)
  | [], _, _, _, q, hq, _ => absurd hq List.not_mem_nil
  | q' :: rest, d, r, h, q, hq, hu => by
    obtain ⟨r', hfirst, h⟩ := bind_eq_ok.mp h
    obtain ⟨r'', hrest, -⟩ := bind_eq_ok.mp h
    rcases List.mem_cons.mp hq with rfl | hq
    · obtain ⟨notes, hnotes, -⟩ := bind_eq_ok.mp hfirst
      exact Formatter.written_of_notes hnotes hu
    · exact written_of_visitAllNested hrest q hq hu

/-- **Working off a site writes all annotations that it shows**, whatever they become. -/
theorem written_of_visit {s : Site} {d e : Draft} (h : visit ctx d s = .ok e) (hu : s.Shows u) :
    ctx.formatter.Written (.nested u) := by
  rw [visit_eq] at h
  obtain ⟨r, hnested, hown⟩ := bind_eq_ok.mp h
  obtain ⟨p, hp, hu⟩ := hu
  rcases List.mem_append.mp hp with hp | hp
  · obtain ⟨q, hq, rfl⟩ := List.mem_map.mp hp
    exact written_of_visitAllNested hnested q hq hu
  · obtain rfl := List.mem_singleton.mp hp
    obtain ⟨notes, hnotes, -⟩ := bind_eq_ok.mp hown
    exact Formatter.written_of_notes hnotes hu

end Draft

/-! ## A scene -/

namespace Plan

/-- Working off a part writes all annotations that its sites show. -/
theorem written_of_visitPart {formatter : Formatter} {settings : Settings}
    {lookup : ConstructorLookup} {part : Part} {d e : Draft} {u : AnnotationUse}
    (h : visitPart formatter settings lookup d part = .ok e) (hu : Site.OneShows u part.sites) :
    formatter.Written (.nested u) := by
  obtain ⟨s, hs, hu⟩ := hu
  cases part with
  | nameless name => cases h
  | package name annotations =>
    obtain ⟨_, _, hvisit⟩ := exists_ok_of_foldlM h s hs
    exact Draft.written_of_visit hvisit hu
  | type name c =>
    obtain ⟨_, _, hvisit⟩ := exists_ok_of_foldlM h s hs
    exact Draft.written_of_visit hvisit hu

section Run

variable {scene : Scene} {way : List Segment} {x : Element} {r : Role} {u v : AnnotationUse}
  {policy : NamePolicy} {lookup : ConstructorLookup} {settings : Settings}

/-- **A run that succeeds has written every annotation that is read.** -/
theorem written_of_ofSceneWith {plan : Plan}
    (h : ofSceneWith policy scene lookup settings = .ok plan)
    (hway : (Element.scene scene).Leads way x) (hrole : Role.scene.along? way = some r)
    (hreads : r.readsItself = true) (hu : u ∈ x.annotations) :
    Formatter.Written ⟨scene.definitions, policy⟩ (.nested u) := by
  obtain ⟨d, hd, -⟩ := bind_eq_ok.mp h
  obtain ⟨part, hpart, hshows⟩ := hway.shows hu (r := .scene) trivial hrole hreads
  obtain ⟨_, _, hvisit⟩ := exists_ok_of_foldlM hd part hpart
  rcases hshows with hshows | ⟨name, rfl⟩
  · exact written_of_visitPart hvisit hshows
  · cases hvisit

/-- A scene with an annotation of an unknown definition that is read is at fault, with any
name policy. -/
theorem ofSceneWith_unknownDefinition (hway : (Element.scene scene).Leads way x)
    (hrole : Role.scene.along? way = some r) (hreads : r.readsItself = true)
    (hu : u ∈ x.annotations) (hv : (FieldValue.nested u).Holds v)
    (hunknown : scene.definitions.get? v.definition = none) :
    ∃ e, ofSceneWith policy scene lookup settings = .error e ∧ e.code = .invalidScene := by
  cases hplan : ofSceneWith policy scene lookup settings with
  | error e => exact ⟨e, rfl, (visits_yields .trivial policy scene lookup settings).of_error hplan⟩
  | ok plan =>
    obtain ⟨d, hd⟩ := (written_of_ofSceneWith hplan hway hrole hreads hu).known hv
    rw [hunknown] at hd
    cases hd

/-- **Unknown definitions are reported.** Let an annotation be on an element of a scene at
whose place annotations are read, and let it be, or hold anywhere within its values, a use
of a definition that is not known. Then the run fails, whatever the lookup and the settings
are, and it is the scene's fault. -/
theorem ofScene_unknownDefinition (hway : (Element.scene scene).Leads way x)
    (hrole : Role.scene.along? way = some r) (hreads : r.readsItself = true)
    (hu : u ∈ x.annotations) (hv : (FieldValue.nested u).Holds v)
    (hunknown : scene.definitions.get? v.definition = none) (lookup : ConstructorLookup)
    (settings : Settings) :
    ∃ e, ofScene scene lookup settings = .error e ∧ e.code = .invalidScene :=
  ofSceneWith_unknownDefinition hway hrole hreads hu hv hunknown

end Run

/-- An annotation with another one as its value, whose definition is not known. -/
def outerUse : AnnotationUse := ⟨"A", [("value", .nested (.ofName "X"))]⟩

/-- A lambda with this annotation within the type of its parameter. -/
def annotatedLambda : MethodElement :=
  { (default : MethodElement) with
    parameters := .ofList [(0, { (default : VariableElement) with
      type := ⟨[], [(⟨[.argument 0]⟩, ⟨[outerUse], []⟩)]⟩ })] }

/-- **A scene with such a lambda** in the initial value of a field. -/
def lambdaScene : Scene where
  definitions := .ofList
    [{ name := "A", fields := .ofList [("value", .scalar (.nested "X"))] }]
  packages := .empty
  classes := .ofList [("C", { (default : ClassElement) with
    fieldInits := .ofList [("f", { (default : ExpressionElement) with
      lambdas := [(⟨.index 0, 0⟩, annotatedLambda)] })] })]

/-- The unknown definition is reported from within the lambda. -/
theorem lambdaScene_unknownDefinition :
    ∃ way r x, (Element.scene lambdaScene).Leads way x ∧ Role.scene.along? way = some r
      ∧ r.readsItself = true ∧ outerUse ∈ x.annotations
      ∧ (FieldValue.nested outerUse).Holds (.ofName "X")
      ∧ lambdaScene.definitions.get? "X" = none
      ∧ ∃ e, ofScene lambdaScene .nothing {} = .error e ∧ e.code = .invalidScene := by
  have hway : (Element.scene lambdaScene).Leads
      [.classDeclaration "C", .fieldInit "f", .lambda ⟨.index 0, 0⟩, .parameter 0, .variableType,
        .inner ⟨[.argument 0]⟩] (.type ⟨[outerUse], []⟩) :=
    .member rfl rfl (.member rfl rfl (.member rfl rfl (.member rfl rfl (.member rfl rfl
      (.member rfl rfl .here)))))
  have hu : outerUse ∈ (Element.type ⟨[outerUse], []⟩).annotations := List.mem_cons_self
  have hv : (FieldValue.nested outerUse).Holds (.ofName "X") := .field (k := "value") rfl .here
  exact ⟨_, _, _, hway, rfl, rfl, hu, hv, rfl,
    ofScene_unknownDefinition hway rfl rfl hu hv rfl .nothing {}⟩

/-- **A scene with a class that stands for a package** and has an annotated field. No
definition is known. -/
def packageScene : Scene where
  definitions := .empty
  packages := .empty
  classes := .ofList [("p.package-info", { (default : ClassElement) with
    fields := .ofList [("f", { (default : VariableElement) with annotations := [.ofName "X"] })] })]

/-- **Not every annotation is read**: the one on the field of a class that stands for a
package is of an unknown definition, and the run succeeds. -/
theorem packageScene_succeeds :
    ∃ way v, (Element.scene packageScene).Leads way (.variableDeclaration v)
      ∧ .ofName "X" ∈ (Element.variableDeclaration v).annotations
      ∧ packageScene.definitions.get? "X" = none
      ∧ ∃ plan, ofScene packageScene .nothing {} = .ok plan := by
  have hway : (Element.scene packageScene).Leads [.classDeclaration "p.package-info", .field "f"]
      (.variableDeclaration { (default : VariableElement) with annotations := [.ofName "X"] }) :=
    .member rfl rfl (.member rfl rfl .here)
  exact ⟨_, _, hway, List.mem_cons_self, rfl, _, rfl⟩

end Plan

end AnnotationPlan
