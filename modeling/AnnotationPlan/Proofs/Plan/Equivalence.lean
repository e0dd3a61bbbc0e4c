import AnnotationPlan.Proofs.Scene.Change

/-!
# Different scenes with the same plan

There is more than one way to write a scene down, and a run does not tell them apart.

Elements in which there is nothing contribute nothing: an entry of any map of a scene, below
the classes, in which there is no annotation and no cast to be inserted can be left out
(`Plan.ofSceneWith_remove`).

And positions within positions of a type are named by their whole paths. The positions
within a type may all be listed side by side, each with its whole path and in the order in
which they are worked off – those within a position before it – and what was within
other positions is then within the type itself (`Plan.ofSceneWith_flatten`). Only the
paths must differ, or else they could not all be keys of one map.
-/

namespace AnnotationPlan

/-! ## Positions side by side -/

theorem TypePath.join_assoc (p q r : TypePath) : (p.join q).join r = p.join (q.join r) :=
  congrArg TypePath.mk (List.append_assoc p.steps q.steps r.steps)

namespace TypeElement

mutual

/-- **The positions of a type further inside** have longer paths. -/
theorem positions_join (start path : TypePath) : ∀ t : TypeElement,
    positions (start.join path) t = (positions path t).map (Prod.map start.join id)
  | ⟨annotations, inner⟩ => by
    rw [positions, positions, positionsOf_join start path inner, List.map_append]
    rfl

theorem positionsOf_join (start path : TypePath) : ∀ inner : List (TypePath × TypeElement),
    positionsOf (start.join path) inner
      = (positionsOf path inner).map (Prod.map start.join id)
  | [] => rfl
  | (q, t) :: rest => by
    rw [positionsOf, positionsOf, TypePath.join_assoc, positions_join start (path.join q) t,
      positionsOf_join start path rest, List.map_append]

end

/-- **The positions within a type, side by side**: each position with its whole path from
the type, and with nothing within it. -/
def sideBySide (inner : List (TypePath × TypeElement)) : List (TypePath × TypeElement) :=
  (OrderedMap.ofList
    ((positionsOf TypePath.root inner).map (fun p => (p.1, ⟨p.2, []⟩)))).entries

/-- The whole paths of the positions within a type. -/
def paths (inner : List (TypePath × TypeElement)) : List TypePath :=
  (positionsOf TypePath.root inner).map Prod.fst

/-- **Side by side there are the same positions**, if their paths differ. -/
theorem positionsOf_sideBySide {inner : List (TypePath × TypeElement)} (h : (paths inner).Nodup)
    (start : TypePath) : positionsOf start (sideBySide inner) = positionsOf start inner := by
  have hkeys : (((positionsOf TypePath.root inner).map
      (fun p => (p.1, (⟨p.2, []⟩ : TypeElement)))).map Prod.fst).Nodup := by
    rwa [List.map_map]
  have hroot : start.join TypePath.root = start :=
    congrArg TypePath.mk (List.append_nil start.steps)
  have hwhole := positionsOf_join start TypePath.root inner
  rw [hroot] at hwhole
  rw [sideBySide, OrderedMap.entries_ofList hkeys, positionsOf_eq_flatMap, List.flatMap_map, hwhole,
    List.map_eq_flatMap]
  rfl

end TypeElement

/-- **A type or cast with the positions within side by side.** -/
def Element.flatten : Element → Element
  | .type t => .type { t with inner := TypeElement.sideBySide t.inner }
  | .cast c => .cast { c with inner := TypeElement.sideBySide c.inner }
  | e => e

/-- Putting the positions within a type side by side makes no difference. -/
theorem Element.alike_flatten {e : Element}
    (h : ∀ inner, e.inner? = some inner → (TypeElement.paths inner).Nodup) :
    e.Alike e.flatten := by
  cases e with
  | type t =>
    exact ⟨rfl, fun start =>
      congrArg _ (TypeElement.positionsOf_sideBySide (h t.inner rfl) start).symm⟩
  | cast c =>
    exact ⟨rfl, fun start =>
      congrArg _ (TypeElement.positionsOf_sideBySide (h c.inner rfl) start).symm, rfl⟩
  | _ => exact Alike.refl _

namespace Plan

section Run

variable {scene : Scene} {way : List Segment} {e : Element}

/-- **Nested positions are named by their whole paths.** Let a type, or a cast to be
inserted, be anywhere in a scene, with positions within it to any depth whose whole paths
differ. If these are put side by side, each with its whole path, a run fails with the same
error or makes the same plan, whatever the lookup and the settings are. -/
theorem ofSceneWith_flatten (hway : (Element.scene scene).Leads way e)
    (hdistinct : ∀ inner, e.inner? = some inner → (TypeElement.paths inner).Nodup) :
    ∃ flat, scene.modifyAt? way Element.flatten = some flat ∧ ∀ lookup settings,
      (∀ policy, ofSceneWith policy flat lookup settings
        = ofSceneWith policy scene lookup settings)
      ∧ ofScene flat lookup settings = ofScene scene lookup settings :=
  Scene.exists_modifyAt? hway (Element.alike_flatten hdistinct)

/-- **Empty elements contribute nothing.** Let an element anywhere in a scene have a member
in which there is no annotation and no cast to be inserted. If the member is taken out of
the map that it is an entry of, a run fails with the same error or makes the same plan,
whatever the lookup and the settings are. -/
theorem ofSceneWith_remove {segment : Segment} {x : Element}
    (hway : (Element.scene scene).Leads way e) (hentry : e.Leads [segment] x)
    (hidle : x.isIdle = true) :
    ∃ less, scene.modifyAt? way (Element.remove segment) = some less ∧ ∀ lookup settings,
      (∀ policy, ofSceneWith policy less lookup settings
        = ofSceneWith policy scene lookup settings)
      ∧ ofScene less lookup settings = ofScene scene lookup settings := by
  cases hentry with
  | member get there onward =>
    cases onward
    exact Scene.exists_modifyAt? hway ((Element.follows_member get there).remove hidle)

end Run

end Plan

namespace Scene

/-- A type with an annotation two levels down, and with a position at which there is
none. -/
def nestedType : TypeElement :=
  ⟨[], [(⟨[.argument 1]⟩, ⟨[], [(⟨[.argument 0]⟩, ⟨[.ofName "A"], []⟩)]⟩),
    (⟨[.argument 0]⟩, ⟨[], []⟩)]⟩

/-- **A scene with a field** of this type. -/
def nested : Scene where
  definitions := .ofList [{ name := "A", targets := some [.typeUse] }]
  packages := .empty
  classes := .ofList [("C", { (default : ClassElement) with
    fields := .ofList [("f", { (default : VariableElement) with type := nestedType })] })]

/-- The way to the type of the field. -/
def nestedWay : List Segment := [.classDeclaration "C", .field "f", .variableType]

theorem leads_nestedWay : (Element.scene nested).Leads nestedWay (.type nestedType) :=
  .member rfl rfl (.member rfl rfl (.member rfl rfl .here))

end Scene

namespace Plan

/-- The annotation in the nested type is found at its whole path as well. -/
theorem nested_flatten :
    (∀ inner, (Element.type Scene.nestedType).inner? = some inner →
        (TypeElement.paths inner).Nodup)
    ∧ TypeElement.sideBySide Scene.nestedType.inner
      = [(⟨[.argument 1, .argument 0]⟩, ⟨[.ofName "A"], []⟩), (⟨[.argument 1]⟩, ⟨[], []⟩),
          (⟨[.argument 0]⟩, ⟨[], []⟩)]
    ∧ ∃ flat plan, Scene.nested.modifyAt? Scene.nestedWay Element.flatten = some flat
      ∧ ofScene flat .nothing {} = .ok plan ∧ plan.order = [0] := by
  have hdistinct : ∀ inner, (Element.type Scene.nestedType).inner? = some inner →
      (TypeElement.paths inner).Nodup := by
    intro inner hinner
    cases hinner
    decide
  obtain ⟨flat, hflat, hsame⟩ := ofSceneWith_flatten Scene.leads_nestedWay hdistinct
  refine ⟨hdistinct, rfl, flat, _, hflat, (hsame .nothing {}).2, rfl⟩

/-- The position without annotations need not be there. -/
theorem nested_remove :
    (Element.type Scene.nestedType).Leads [.inner ⟨[.argument 0]⟩] (.type ⟨[], []⟩)
    ∧ (Element.type ⟨[], []⟩).isIdle = true
    ∧ ∃ less plan,
      Scene.nested.modifyAt? Scene.nestedWay (Element.remove (.inner ⟨[.argument 0]⟩)) = some less
      ∧ ofScene less .nothing {} = .ok plan ∧ plan.order = [0] := by
  have hentry : (Element.type Scene.nestedType).Leads [.inner ⟨[.argument 0]⟩]
      (.type ⟨[], []⟩) := .member rfl rfl .here
  obtain ⟨less, hless, hsame⟩ := ofSceneWith_remove Scene.leads_nestedWay hentry rfl
  exact ⟨hentry, rfl, less, _, hless, (hsame .nothing {}).2, rfl⟩

end Plan

end AnnotationPlan
