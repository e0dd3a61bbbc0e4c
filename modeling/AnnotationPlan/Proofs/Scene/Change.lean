import AnnotationPlan.Proofs.Scene.AlikeClasses

/-!
# Changes far down in a scene

What is changed at the end of a way through a scene changes all elements on the way, up to
the scene itself. But an element comes to the same as before if one of its members is
exchanged for one that does, or if it is idle and taken out (`Element.follows_member`). So
a change that makes no difference where it is made makes none anywhere above, and in the
end none for the scene (`Scene.exists_modifyAt?`).
-/

namespace AnnotationPlan

namespace Element

/-- **Elements that come to the same.** -/
def Alike : Element → Element → Prop
  | scene s, scene s' => s.Alike s'
  | package p, package p' => p.Alike p'
  | classDeclaration c, classDeclaration c' => c.Alike c'
  | method m, method m' => m.Alike m'
  | variableDeclaration v, variableDeclaration v' => v.Alike v'
  | block b, block b' => b.Alike b'
  | expressions x, expressions x' => x.Alike x'
  | type t, type t' => t.Alike t'
  | cast c, cast c' => c.Alike c'
  | _, _ => False

theorem Alike.refl (e : Element) : e.Alike e := by
  cases e with
  | scene s => exact ⟨rfl, fun _ _ _ _ => rfl⟩
  | package p => exact Eq.refl p.annotations
  | classDeclaration c => exact ⟨rfl, fun _ => rfl⟩
  | method m => exact ⟨fun _ _ _ => rfl, fun _ _ => rfl⟩
  | variableDeclaration v => exact ⟨rfl, TypeElement.Alike.refl _, fun _ => rfl⟩
  | block b => exact fun _ _ => rfl
  | expressions x => exact fun _ _ => rfl
  | type t => exact TypeElement.Alike.refl t
  | cast c => exact ⟨rfl, fun _ => rfl, rfl⟩

/-- **An element follows its member**: it comes to the same if the member is exchanged for
one that does, and if the member is idle and taken out. -/
structure Follows (e : Element) (segment : Segment) (m : Member) : Prop where
  /-- The member is exchanged. -/
  exchange : ∀ {x}, m.1.Alike x → e.Alike (m.2 x)
  /-- The member is taken out. -/
  remove : m.1.isIdle = true → e.Alike (e.remove segment)

namespace Follows

variable {e whole : Element} {segment : Segment}

theorem type {t : TypeElement} {put : TypeElement → Element}
    (exchange : ∀ {t'}, t.Alike t' → e.Alike (put t'))
    (remove : t.isEmpty = true → e.Alike (e.remove segment)) :
    e.Follows segment (typeMember t put whole) where
  exchange := fun {x} h => by
    cases x with
    | type t' => exact exchange h
    | _ => cases h
  remove := remove

theorem variableDeclaration {v : VariableElement} {put : VariableElement → Element}
    (exchange : ∀ {v'}, v.Alike v' → e.Alike (put v'))
    (remove : v.isIdle = true → e.Alike (e.remove segment)) :
    e.Follows segment (variableMember v put whole) where
  exchange := fun {x} h => by
    cases x with
    | variableDeclaration v' => exact exchange h
    | _ => cases h
  remove := remove

theorem block {b : BlockElement} {put : BlockElement → Element}
    (exchange : ∀ {b'}, b.Alike b' → e.Alike (put b'))
    (remove : b.isIdle = true → e.Alike (e.remove segment)) :
    e.Follows segment (blockMember b put whole) where
  exchange := fun {x} h => by
    cases x with
    | block b' => exact exchange h
    | _ => cases h
  remove := remove

theorem expressions {y : ExpressionElement} {put : ExpressionElement → Element}
    (exchange : ∀ {y'}, y.Alike y' → e.Alike (put y'))
    (remove : y.isIdle = true → e.Alike (e.remove segment)) :
    e.Follows segment (expressionsMember y put whole) where
  exchange := fun {x} h => by
    cases x with
    | expressions y' => exact exchange h
    | _ => cases h
  remove := remove

theorem method {m : MethodElement} {put : MethodElement → Element}
    (exchange : ∀ {m'}, m.Alike m' → e.Alike (put m'))
    (remove : m.isIdle = true → e.Alike (e.remove segment)) :
    e.Follows segment (methodMember m put whole) where
  exchange := fun {x} h => by
    cases x with
    | method m' => exact exchange h
    | _ => cases h
  remove := remove

end Follows

open Entries.Exchange (of_insert of_erase)

/-- **What goes into a syntax tree follows its members**, and so does the element that it
belongs to. -/
theorem follows_insertionMember {e : Element} {segment : Segment} {m : Member}
    (i : AstInsertions) (put : AstInsertions → Element)
    (get : insertionMember? i put e segment = some m) (there : m.2 m.1 = e) (self : put i = e)
    (hput : ∀ {i i'}, put i = put i' → i = i') (exchange : ∀ {i'}, i.Alike i' → e.Alike (put i'))
    (remove : put (insertionsWithout i segment) = e.remove segment) :
    e.Follows segment m := by
  cases segment with
  | annotatedPlace path =>
    cases get
    have hthere := congrArg (fun i => i.annotations.entries) (hput (there.trans self.symm))
    refine .type (fun ht => exchange (i.alike_annotations (of_insert hthere ht))) (fun ht => ?_)
    rw [← remove]
    exact exchange (i.alike_annotations (of_erase hthere ht))
  | castPlace path castType =>
    cases get
    have hthere := congrArg (fun i => i.casts.entries) (hput (there.trans self.symm))
    refine ⟨fun {x} hx => ?_, fun hidle => by cases hidle⟩
    cases x with
    | cast c' => exact exchange (i.alike_casts (of_insert hthere hx))
    | _ => cases hx
  | _ => cases get

/-- **A class follows its members.** -/
theorem follows_classMember {c : ClassElement} {segment : Segment} {m : Member}
    (get : classMember? c segment = some m) (there : m.2 m.1 = classDeclaration c) :
    (classDeclaration c).Follows segment m := by
  cases segment with
  | bound l =>
    cases get
    have hthere := congrArg (fun c => c.bounds.entries) (classDeclaration.inj there)
    exact .type (fun ht => c.alike_bounds (of_insert hthere ht))
      (fun ht => c.alike_bounds (of_erase hthere ht))
  | supertype l =>
    cases get
    have hthere := congrArg (fun c => c.supertypes.entries) (classDeclaration.inj there)
    exact .type (fun ht => c.alike_supertypes (of_insert hthere ht))
      (fun ht => c.alike_supertypes (of_erase hthere ht))
  | field name =>
    cases get
    have hthere := congrArg (fun c => c.fields.entries) (classDeclaration.inj there)
    exact .variableDeclaration (fun hv => c.alike_fields (of_insert hthere hv))
      (fun hv => c.alike_fields (of_erase hthere hv))
  | method name =>
    cases get
    have hthere := congrArg (fun c => c.methods.entries) (classDeclaration.inj there)
    exact .method (fun hm => c.alike_methods (of_insert hthere hm))
      (fun hm => c.alike_methods (of_erase hthere hm))
  | staticInit n =>
    cases get
    have hthere := congrArg (fun c => c.staticInits.entries) (classDeclaration.inj there)
    exact .block (fun hb => c.alike_staticInits (of_insert hthere hb))
      (fun hb => c.alike_staticInits (of_erase hthere hb))
  | instanceInit n =>
    cases get
    have hthere := congrArg (fun c => c.instanceInits.entries) (classDeclaration.inj there)
    exact .block (fun hb => c.alike_instanceInits (of_insert hthere hb))
      (fun hb => c.alike_instanceInits (of_erase hthere hb))
  | fieldInit name =>
    cases get
    have hthere := congrArg (fun c => c.fieldInits.entries) (classDeclaration.inj there)
    exact .expressions (fun hx => c.alike_fieldInits (of_insert hthere hx))
      (fun hx => c.alike_fieldInits (of_erase hthere hx))
  | _ =>
    exact follows_insertionMember c.insertions
      (fun i => .classDeclaration { c with insertions := i }) get there rfl
      (fun h => congrArg ClassElement.insertions (classDeclaration.inj h))
      (fun hi => c.alike_insertions hi) rfl

/-- **A method follows its members.** -/
theorem follows_methodMember {m : MethodElement} {segment : Segment} {n : Member}
    (get : methodMember? m segment = some n) (there : n.2 n.1 = Element.method m) :
    (Element.method m).Follows segment n := by
  cases segment with
  | receiver =>
    cases get
    exact .type (fun ht => m.alike_receiver ht) (fun _ => by cases m; exact Alike.refl _)
  | returnType =>
    cases get
    exact .type (fun ht => m.alike_returnType ht) (fun _ => by cases m; exact Alike.refl _)
  | bound l =>
    cases get
    have hthere := congrArg (fun m => m.bounds.entries) (method.inj there)
    exact .type (fun ht => m.alike_bounds (of_insert hthere ht))
      (fun ht => m.alike_bounds (of_erase hthere ht))
  | parameter k =>
    cases get
    have hthere := congrArg (fun m => m.parameters.entries) (method.inj there)
    exact .variableDeclaration (fun hv => m.alike_parameters (of_insert hthere hv))
      (fun hv => m.alike_parameters (of_erase hthere hv))
  | body =>
    cases get
    exact .block (fun hb => m.alike_body hb) (fun _ => by cases m; exact Alike.refl _)
  | _ =>
    exact follows_insertionMember m.insertions (fun i => .method { m with insertions := i })
      get there (by cases m; rfl) (fun h => congrArg MethodElement.insertions (method.inj h))
      (fun hi => m.alike_insertions hi) rfl

/-- **A variable follows its members.** -/
theorem follows_variableMember {v : VariableElement} {segment : Segment} {m : Member}
    (get : variableMember? v segment = some m) (there : m.2 m.1 = variableDeclaration v) :
    (variableDeclaration v).Follows segment m := by
  cases segment with
  | variableType =>
    cases get
    exact .type (fun ht => v.alike_type ht) (fun _ => Alike.refl (.variableDeclaration v))
  | _ =>
    exact follows_insertionMember v.insertions
      (fun i => .variableDeclaration { v with insertions := i }) get there rfl
      (fun h => congrArg VariableElement.insertions (variableDeclaration.inj h))
      (fun hi => v.alike_insertions hi) rfl

/-- **A block follows its members.** -/
theorem follows_blockMember {b : BlockElement} {segment : Segment} {m : Member}
    (get : blockMember? b segment = some m) (there : m.2 m.1 = Element.block b) :
    (Element.block b).Follows segment m := by
  cases segment with
  | localVariable l =>
    cases get
    have hthere := congrArg (fun b => b.locals.entries) (block.inj there)
    exact .variableDeclaration (fun hv => b.alike_locals (of_insert hthere hv))
      (fun hv => b.alike_locals (of_erase hthere hv))
  | expressions =>
    cases get
    exact .expressions (fun hx => b.alike_expressions hx) (fun _ => Alike.refl (.block b))
  | _ => cases get

/-- **Expressions follow their members.** -/
theorem follows_expressionMember {x : ExpressionElement} {segment : Segment} {m : Member}
    (get : expressionMember? x segment = some m) (there : m.2 m.1 = Element.expressions x) :
    (Element.expressions x).Follows segment m := by
  cases segment with
  | cast l =>
    cases get
    have hthere := congrArg (fun x => x.casts.entries) (expressions.inj there)
    exact .type (fun ht => x.alike_casts (of_insert hthere ht))
      (fun ht => x.alike_casts (of_erase hthere ht))
  | new l =>
    cases get
    have hthere := congrArg (fun x => x.news.entries) (expressions.inj there)
    exact .type (fun ht => x.alike_news (of_insert hthere ht))
      (fun ht => x.alike_news (of_erase hthere ht))
  | instanceOf l =>
    cases get
    have hthere := congrArg (fun x => x.instanceOfs.entries) (expressions.inj there)
    exact .type (fun ht => x.alike_instanceOfs (of_insert hthere ht))
      (fun ht => x.alike_instanceOfs (of_erase hthere ht))
  | memberReference l =>
    cases get
    have hthere := congrArg (fun x => x.memberReferences.entries) (expressions.inj there)
    exact .type (fun ht => x.alike_memberReferences (of_insert hthere ht))
      (fun ht => x.alike_memberReferences (of_erase hthere ht))
  | call l =>
    cases get
    have hthere := congrArg (fun x => x.calls.entries) (expressions.inj there)
    exact .type (fun ht => x.alike_calls (of_insert hthere ht))
      (fun ht => x.alike_calls (of_erase hthere ht))
  | lambda l =>
    cases get
    have hthere := congrArg (fun x => x.lambdas) (expressions.inj there)
    exact .method (fun hm => x.alike_lambdas (of_insert hthere hm))
      (fun hm => x.alike_lambdas (of_erase hthere hm))
  | _ => cases get

/-- **A scene follows its members.** Its classes are never idle. -/
theorem follows_sceneMember {s : Scene} {segment : Segment} {m : Member}
    (get : sceneMember? s segment = some m) (there : m.2 m.1 = Element.scene s) :
    (Element.scene s).Follows segment m := by
  cases segment with
  | package name =>
    cases get
    have hthere := congrArg (fun s => s.packages.entries) (scene.inj there)
    refine ⟨fun {x} hx => ?_, fun hp => s.alike_packages (of_erase hthere hp)⟩
    cases x with
    | package p' => exact s.alike_packages (of_insert hthere hx)
    | _ => cases hx
  | classDeclaration name =>
    cases get
    have hthere := congrArg (fun s => s.classes.entries) (scene.inj there)
    refine ⟨fun {x} hx => ?_, fun hidle => by cases hidle⟩
    cases x with
    | classDeclaration c' => exact s.alike_classes (of_insert hthere hx)
    | _ => cases hx
  | _ => cases get

/-- **Every element follows its members.** -/
theorem follows_member {e : Element} {segment : Segment} {m : Member}
    (get : e.member? segment = some m) (there : m.2 m.1 = e) : e.Follows segment m := by
  cases e with
  | scene s => exact follows_sceneMember get there
  | package p => cases get
  | classDeclaration c => exact follows_classMember get there
  | method n => exact follows_methodMember get there
  | variableDeclaration v => exact follows_variableMember get there
  | block b => exact follows_blockMember get there
  | expressions x => exact follows_expressionMember get there
  | type t =>
    cases segment with
    | inner path =>
      cases get
      have hthere := congrArg (fun t => t.inner) (type.inj there)
      exact .type (fun ht => ⟨rfl, .of_exchange (of_insert hthere ht)⟩)
        (fun ht => ⟨rfl, .of_exchange (of_erase hthere ht)⟩)
    | _ => cases get
  | cast c =>
    cases segment with
    | inner path =>
      cases get
      have hthere := congrArg (fun c => c.inner) (cast.inj there)
      exact .type (fun ht => ⟨rfl, .of_exchange (of_insert hthere ht), rfl⟩)
        (fun ht => ⟨rfl, .of_exchange (of_erase hthere ht), rfl⟩)
    | _ => cases get

/-- **A change along a way.** If the change makes no difference for the element at the end,
it makes none for the one at the beginning. -/
theorem Leads.exists_modifyAt? {e x : Element} {way : List Segment} (h : e.Leads way x)
    {f : Element → Element} (hf : x.Alike (f x)) :
    ∃ e', modifyAt? f way e = some e' ∧ e.Alike e' := by
  induction h with
  | here => exact ⟨f _, rfl, hf⟩
  | @member e x segment way m get there onward ih =>
    obtain ⟨y, hy, halike⟩ := ih hf
    refine ⟨m.2 y, ?_, (follows_member get there).exchange halike⟩
    show (e.member? segment).bind (fun m => (modifyAt? f way m.1).map m.2) = some (m.2 y)
    rw [get, Option.bind_some, hy, Option.map_some]

end Element

/-- **A change somewhere in a scene** that makes no difference there makes none for what
comes of the scene, whatever the lookup and the settings are. -/
theorem Scene.exists_modifyAt? {s : Scene} {x : Element} {way : List Segment}
    (h : (Element.scene s).Leads way x) {f : Element → Element} (hf : x.Alike (f x)) :
    ∃ s', s.modifyAt? way f = some s' ∧ ∀ lookup settings,
      (∀ policy, Plan.ofSceneWith policy s' lookup settings
        = Plan.ofSceneWith policy s lookup settings)
      ∧ Plan.ofScene s' lookup settings = Plan.ofScene s lookup settings := by
  obtain ⟨e', he', halike⟩ := h.exists_modifyAt? hf
  cases e' with
  | scene s' =>
    have hsame : ∀ lookup settings policy, Plan.ofSceneWith policy s' lookup settings
        = Plan.ofSceneWith policy s lookup settings := by
      intro lookup settings policy
      unfold Plan.ofSceneWith
      rw [← halike.parts, halike.definitions]
    refine ⟨s', ?_, fun lookup settings => ⟨hsame lookup settings, ?_⟩⟩
    · unfold Scene.modifyAt?
      rw [he']
    · unfold Plan.ofScene
      rw [hsame, halike.definitions]
  | _ => cases halike

end AnnotationPlan
