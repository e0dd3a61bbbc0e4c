import AnnotationPlan.Proofs.Scene.Roles

/-!
# What is read is on a site

An element shows what its members show, as far as they are read (`Element.passes_member`):
the sites of the members are among those of the element. So the annotations on an element
that a way leads to, on which every member is read, are on one of the sites of the scene, or
the scene has a class that stands for a package without a name (`Element.Leads.shows`).
-/

namespace AnnotationPlan

open Site

variable {u : AnnotationUse}

/-- A pair that is written to its own key is there. -/
theorem Entries.mem_of_insert {κ ν : Type} [DecidableEq κ] {k : κ} {v : ν} {es : List (κ × ν)}
    (there : insert k v es = es) : (k, v) ∈ es := by
  obtain ⟨before, after, hsplit, -, -⟩ := exists_split there
  rw [hsplit]
  exact List.mem_append_right _ List.mem_cons_self

namespace Element

open Entries (mem_of_insert)

variable {r' : Role} {segment : Segment} {m : Member}

/-- An element passes on what the members of what goes into its syntax tree show. -/
theorem passes_insertionMember {r : Role} {e : Element} (i : AstInsertions)
    (put : AstInsertions → Element) (segment : Segment)
    (get : insertionMember? i put e segment = some m)
    (there : m.2 m.1 = e) (self : put i = e) (hput : ∀ {i i'}, put i = put i' → i = i')
    (hholds : ∀ u, i.Holds u → r.Shows u e) : r.Passes e .type m.1 := by
  cases segment with
  | annotatedPlace path =>
    cases get
    have hthere := congrArg (fun i => i.annotations.entries) (hput (there.trans self.symm))
    exact ⟨trivial, fun u h => hholds u (.annotated (mem_of_insert hthere) h)⟩
  | castPlace path castType =>
    cases get
    have hthere := congrArg (fun i => i.casts.entries) (hput (there.trans self.symm))
    exact ⟨trivial, fun u h => hholds u (.onCast (mem_of_insert hthere) h)⟩
  | _ => cases get

/-- **A class passes on** what its members show. -/
theorem passes_classMember {c : ClassElement} (get : classMember? c segment = some m)
    (there : m.2 m.1 = classDeclaration c)
    (hnext : Role.classDeclaration.next? segment = some r') :
    Role.classDeclaration.Passes (classDeclaration c) r' m.1 := by
  -- an alternative for each section of the sites, in their order
  have hsites : ∀ u name, OneShows u (c.sites name) ↔ _ := fun u name => by
    simp only [ClassElement.sites, oneShows_cons, oneShows_append, oneShows_map, oneShows_flatMap,
      or_assoc]
    exact Iff.rfl
  have hinsertions : ∀ u, c.insertions.Holds u →
      Role.classDeclaration.Shows u (classDeclaration c) := fun u h name =>
    (hsites u name).mpr (.inr (.inr (.inr (.inl (h.oneShows _)))))
  have hplaces : insertionMember? c.insertions
        (fun i => .classDeclaration { c with insertions := i }) (.classDeclaration c) segment
        = some m → Role.classDeclaration.Passes (classDeclaration c) .type m.1 := fun get =>
    passes_insertionMember c.insertions (fun i => .classDeclaration { c with insertions := i })
      segment get there rfl
      (fun h => congrArg ClassElement.insertions (classDeclaration.inj h)) hinsertions
  cases segment with
  | bound l =>
    cases get
    cases hnext
    have hthere := congrArg (fun c => c.bounds.entries) (classDeclaration.inj there)
    refine ⟨trivial, fun u h name => (hsites u name).mpr (.inr (.inl ?_))⟩
    exact ⟨_, mem_of_insert hthere, shows_of_holds rfl rfl h⟩
  | supertype l =>
    cases get
    cases hnext
    have hthere := congrArg (fun c => c.supertypes.entries) (classDeclaration.inj there)
    refine ⟨trivial, fun u h name => (hsites u name).mpr (.inr (.inr (.inl ?_)))⟩
    exact ⟨_, mem_of_insert hthere, shows_of_holds rfl rfl h⟩
  | field name =>
    cases get
    cases hnext
    have hthere := congrArg (fun c => c.fields.entries) (classDeclaration.inj there)
    refine ⟨trivial, fun u h name => (hsites u name).mpr (.inr (.inr (.inr (.inr (.inl ?_)))))⟩
    exact ⟨_, mem_of_insert hthere, h _ _⟩
  | method name =>
    cases get
    cases hnext
    have hthere := congrArg (fun c => c.methods.entries) (classDeclaration.inj there)
    refine ⟨trivial, fun u h name =>
      (hsites u name).mpr (.inr (.inr (.inr (.inr (.inr (.inl ?_))))))⟩
    exact ⟨_, mem_of_insert hthere, h _ _ _⟩
  | staticInit n =>
    cases get
    cases hnext
    have hthere := congrArg (fun c => c.staticInits.entries) (classDeclaration.inj there)
    refine ⟨trivial, fun u h name =>
      (hsites u name).mpr (.inr (.inr (.inr (.inr (.inr (.inr (.inl ?_)))))))⟩
    exact ⟨_, mem_of_insert hthere, h _ _⟩
  | instanceInit n =>
    cases get
    cases hnext
    have hthere := congrArg (fun c => c.instanceInits.entries) (classDeclaration.inj there)
    refine ⟨trivial, fun u h name =>
      (hsites u name).mpr (.inr (.inr (.inr (.inr (.inr (.inr (.inr (.inl ?_))))))))⟩
    exact ⟨_, mem_of_insert hthere, h _ _⟩
  | fieldInit name =>
    cases get
    cases hnext
    have hthere := congrArg (fun c => c.fieldInits.entries) (classDeclaration.inj there)
    refine ⟨trivial, fun u h name =>
      (hsites u name).mpr (.inr (.inr (.inr (.inr (.inr (.inr (.inr (.inr ?_))))))))⟩
    exact ⟨_, mem_of_insert hthere, h _ _⟩
  | annotatedPlace path =>
    cases hnext
    exact hplaces get
  | castPlace path castType =>
    cases hnext
    exact hplaces get
  | _ => cases hnext

/-- **A method passes on** what its members show, but of a parameter the type only. -/
theorem passes_methodMember {n : MethodElement} (get : methodMember? n segment = some m)
    (there : m.2 m.1 = Element.method n) (hnext : Role.method.next? segment = some r') :
    Role.method.Passes (Element.method n) r' m.1 := by
  have hsites : ∀ u place className name, OneShows u (n.sites place className name) ↔ _ :=
    fun u place className name => by
      simp only [MethodElement.sites, oneShows_cons, oneShows_append, oneShows_map, or_assoc]
      exact Iff.rfl
  have hinsertions : ∀ u, n.insertions.Holds u → Role.method.Shows u (Element.method n) :=
    fun u h place className name => (hsites u place className name).mpr
      (.inr (.inr (.inr (.inr (.inr (.inl (h.oneShows _)))))))
  have hplaces : insertionMember? n.insertions (fun i => .method { n with insertions := i })
        (.method n) segment = some m → Role.method.Passes (Element.method n) .type m.1 :=
    fun get =>
      passes_insertionMember n.insertions (fun i => .method { n with insertions := i }) segment get
        there (by cases n; rfl) (fun h => congrArg MethodElement.insertions (method.inj h))
        hinsertions
  cases segment with
  | receiver =>
    cases get
    cases hnext
    refine ⟨trivial, fun u h place className name => (hsites u place className name).mpr ?_⟩
    exact .inr (.inl (shows_of_holds rfl rfl h))
  | returnType =>
    cases get
    cases hnext
    refine ⟨trivial, fun u h place className name => (hsites u place className name).mpr ?_⟩
    exact .inr (.inr (.inl (shows_of_holds rfl rfl h)))
  | bound l =>
    cases get
    cases hnext
    have hthere := congrArg (fun m => m.bounds.entries) (method.inj there)
    refine ⟨trivial, fun u h place className name => (hsites u place className name).mpr ?_⟩
    exact .inr (.inr (.inr (.inl ⟨_, mem_of_insert hthere, shows_of_holds rfl rfl h⟩)))
  | parameter k =>
    cases get
    cases hnext
    have hthere := congrArg (fun m => m.parameters.entries) (method.inj there)
    refine ⟨trivial, fun u h place className name => (hsites u place className name).mpr ?_⟩
    exact .inr (.inr (.inr (.inr (.inl ⟨_, mem_of_insert hthere, shows_of_holds rfl rfl h⟩))))
  | body =>
    cases get
    cases hnext
    refine ⟨trivial, fun u h place className name => (hsites u place className name).mpr ?_⟩
    exact .inr (.inr (.inr (.inr (.inr (.inr (h _ _))))))
  | annotatedPlace path =>
    cases hnext
    exact hplaces get
  | castPlace path castType =>
    cases hnext
    exact hplaces get
  | _ => cases hnext

/-- A lambda passes on what its parameters and its code show. -/
theorem passes_lambdaMember {n : MethodElement} (get : methodMember? n segment = some m)
    (there : m.2 m.1 = Element.method n) (hnext : Role.lambda.next? segment = some r') :
    Role.lambda.Passes (Element.method n) r' m.1 := by
  obtain ⟨annotations, receiver, returnType, bounds, parameters, insertions, body⟩ := n
  cases segment with
  | parameter k =>
    cases get
    cases hnext
    have hthere := congrArg (fun m => m.parameters.entries) (method.inj there)
    refine ⟨trivial, fun u h place name => ?_⟩
    rw [MethodElement.lambdaSites, oneShows_append, oneShows_flatMap]
    exact .inl ⟨_, mem_of_insert hthere, h _⟩
  | body =>
    cases get
    cases hnext
    refine ⟨trivial, fun u h place name => ?_⟩
    rw [MethodElement.lambdaSites, oneShows_append]
    exact .inr (h _ _)
  | _ => cases hnext

/-- A variable passes on what its type shows, and what goes into its syntax tree, in a role
in which it shows both. -/
theorem passes_variablePart {r : Role} {v : VariableElement}
    (get : variableMember? v segment = some m) (there : m.2 m.1 = variableDeclaration v)
    (htype : ∀ u, v.type.Holds u → r.Shows u (variableDeclaration v))
    (hinsertions : ∀ u, v.insertions.Holds u → r.Shows u (variableDeclaration v)) :
    r.Passes (variableDeclaration v) .type m.1 := by
  have hplaces : insertionMember? v.insertions
        (fun i => .variableDeclaration { v with insertions := i }) (.variableDeclaration v) segment
        = some m → r.Passes (variableDeclaration v) .type m.1 := fun get =>
    passes_insertionMember v.insertions (fun i => .variableDeclaration { v with insertions := i })
      segment get there rfl
      (fun h => congrArg VariableElement.insertions (variableDeclaration.inj h)) hinsertions
  cases segment with
  | variableType =>
    cases get
    exact ⟨trivial, htype⟩
  | _ => exact hplaces get

/-- **A variable passes on** what its type shows, and unless it is local or the parameter of
a method, what goes into its syntax tree. -/
theorem passes_variableMember {r : Role} {v : VariableElement}
    (get : variableMember? v segment = some m) (there : m.2 m.1 = variableDeclaration v)
    (hr : r.Suits (variableDeclaration v)) (hnext : r.next? segment = some r') :
    r.Passes (variableDeclaration v) r' m.1 := by
  cases r with
  | field =>
    obtain rfl : r' = .type := by cases segment <;> cases hnext <;> rfl
    refine passes_variablePart get there (fun u h place name => ?_) (fun u h place name => ?_)
    · exact oneShows_cons.mpr (.inr (oneShows_cons.mpr (.inl (shows_of_holds rfl rfl h))))
    · exact oneShows_cons.mpr (.inr (oneShows_cons.mpr (.inr (h.oneShows _))))
  | lambdaParameter =>
    obtain rfl : r' = .type := by cases segment <;> cases hnext <;> rfl
    refine passes_variablePart get there (fun u h place => ?_) (fun u h place => ?_)
    · exact oneShows_cons.mpr (.inl (shows_of_holds rfl rfl h))
    · exact oneShows_cons.mpr (.inr (h.oneShows _))
  | parameter =>
    cases segment with
    | variableType =>
      cases get
      cases hnext
      exact ⟨trivial, fun _ h => h⟩
    | _ => cases hnext
  | localVariable =>
    cases segment with
    | variableType =>
      cases get
      cases hnext
      refine ⟨trivial, fun u h place => ?_⟩
      exact oneShows_cons.mpr (.inr (oneShows_cons.mpr (.inl (shows_of_holds rfl rfl h))))
    | _ => cases hnext
  | _ => exact hr.elim

/-- A block passes on what its members show. -/
theorem passes_blockMember {b : BlockElement} (get : blockMember? b segment = some m)
    (there : m.2 m.1 = Element.block b) (hnext : Role.block.next? segment = some r') :
    Role.block.Passes (Element.block b) r' m.1 := by
  obtain ⟨locals, expressions⟩ := b
  cases segment with
  | localVariable l =>
    cases get
    cases hnext
    have hthere := congrArg (fun b => b.locals.entries) (block.inj there)
    refine ⟨trivial, fun u h place name => ?_⟩
    rw [BlockElement.sites, oneShows_append, oneShows_flatMap]
    exact .inl ⟨_, mem_of_insert hthere, h _⟩
  | expressions =>
    cases get
    cases hnext
    refine ⟨trivial, fun u h place name => ?_⟩
    rw [BlockElement.sites, oneShows_append]
    exact .inr (h _ _)
  | _ => cases hnext

/-- A lambda is among several lambdas. -/
theorem oneShows_lambdaSites {place : CriteriaList} {name : String} {l : RelativeLocation}
    {n : MethodElement} (h : Role.lambda.Shows u (Element.method n)) :
    ∀ {es : List (RelativeLocation × MethodElement)}, (l, n) ∈ es →
      OneShows u (AnnotationPlan.lambdaSites place name es)
  | (l', n') :: rest, hmem => by
    rw [AnnotationPlan.lambdaSites, oneShows_append]
    rcases List.mem_cons.mp hmem with he | hrest
    · obtain ⟨rfl, rfl⟩ := Prod.mk.inj he
      exact .inl (h _ _)
    · exact .inr (oneShows_lambdaSites h hrest)

/-- **Expressions pass on** what their members show. -/
theorem passes_expressionMember {x : ExpressionElement}
    (get : expressionMember? x segment = some m) (there : m.2 m.1 = Element.expressions x)
    (hnext : Role.expressions.next? segment = some r') :
    Role.expressions.Passes (Element.expressions x) r' m.1 := by
  obtain ⟨casts, news, instanceOfs, memberReferences, calls, lambdas⟩ := x
  have hsites : ∀ u place name, OneShows u (ExpressionElement.sites place name
      ⟨casts, news, instanceOfs, memberReferences, calls, lambdas⟩) ↔ _ := fun u place name => by
    simp only [ExpressionElement.sites, expressionSites, oneShows_append, oneShows_map, or_assoc]
    exact Iff.rfl
  cases segment with
  | cast l =>
    cases get
    cases hnext
    have hthere := congrArg (fun x => x.casts.entries) (expressions.inj there)
    refine ⟨trivial, fun u h place name => (hsites u place name).mpr (.inl ?_)⟩
    exact ⟨_, mem_of_insert hthere, shows_of_holds rfl rfl h⟩
  | new l =>
    cases get
    cases hnext
    have hthere := congrArg (fun x => x.news.entries) (expressions.inj there)
    refine ⟨trivial, fun u h place name => (hsites u place name).mpr (.inr (.inl ?_))⟩
    exact ⟨_, mem_of_insert hthere, shows_of_holds rfl rfl h⟩
  | instanceOf l =>
    cases get
    cases hnext
    have hthere := congrArg (fun x => x.instanceOfs.entries) (expressions.inj there)
    refine ⟨trivial, fun u h place name => (hsites u place name).mpr (.inr (.inr (.inl ?_)))⟩
    exact ⟨_, mem_of_insert hthere, shows_of_holds rfl rfl h⟩
  | memberReference l =>
    cases get
    cases hnext
    have hthere := congrArg (fun x => x.memberReferences.entries) (expressions.inj there)
    refine ⟨trivial, fun u h place name =>
      (hsites u place name).mpr (.inr (.inr (.inr (.inl ?_))))⟩
    exact ⟨_, mem_of_insert hthere, shows_of_holds rfl rfl h⟩
  | call l =>
    cases get
    cases hnext
    have hthere := congrArg (fun x => x.calls.entries) (expressions.inj there)
    refine ⟨trivial, fun u h place name =>
      (hsites u place name).mpr (.inr (.inr (.inr (.inr (.inl ?_)))))⟩
    exact ⟨_, mem_of_insert hthere, shows_of_holds rfl rfl h⟩
  | lambda l =>
    cases get
    cases hnext
    have hthere := congrArg (fun x => x.lambdas) (expressions.inj there)
    refine ⟨trivial, fun u h place name =>
      (hsites u place name).mpr (.inr (.inr (.inr (.inr (.inr ?_)))))⟩
    exact oneShows_lambdaSites h (mem_of_insert hthere)
  | _ => cases hnext

/-- **A scene passes on** what its members show, or has a class that stands for a package
without a name. -/
theorem passes_sceneMember {s : Scene} (get : sceneMember? s segment = some m)
    (there : m.2 m.1 = Element.scene s) (hnext : Role.scene.next? segment = some r') :
    Role.scene.Passes (Element.scene s) r' m.1 := by
  cases segment with
  | package name =>
    cases get
    cases hnext
    have hthere := congrArg (fun s => s.packages.entries) (scene.inj there)
    refine ⟨trivial, fun u h => ⟨_, List.mem_append_left _
      (List.mem_map_of_mem (mem_of_insert hthere)), .inl ?_⟩⟩
    exact oneShows_cons.mpr (.inl (shows_of_mem h))
  | classDeclaration name =>
    cases get
    have hthere := congrArg (fun s => s.classes.entries) (scene.inj there)
    have hpart := List.mem_append_right (s.packages.entries.map
        (fun p => Part.package p.1 p.2.annotations))
      (List.mem_map_of_mem (f := fun c => Part.ofClass c.1 c.2) (mem_of_insert hthere))
    unfold Role.next? at hnext
    unfold Part.ofClass at hpart
    dsimp only at hnext hpart
    split at hnext
    case h_1 start hstart =>
      cases hnext
      rw [hstart] at hpart
      refine ⟨trivial, fun u h => ?_⟩
      cases start with
      | nil => exact ⟨_, hpart, .inr ⟨name, rfl⟩⟩
      | cons c rest => exact ⟨_, hpart, .inl (oneShows_cons.mpr (.inl (shows_of_mem h)))⟩
    case h_2 hnone =>
      cases hnext
      rw [hnone] at hpart
      exact ⟨trivial, fun u h => ⟨_, hpart, .inl (h name)⟩⟩
  | _ => cases hnext

/-- **Every element passes on** what the members show that are read. -/
theorem passes_member {r : Role} {e : Element} (get : e.member? segment = some m)
    (there : m.2 m.1 = e) (hr : r.Suits e) (hnext : r.next? segment = some r') :
    r.Passes e r' m.1 := by
  cases e with
  | scene s =>
    cases r with
    | scene => exact passes_sceneMember get there hnext
    | _ => exact hr.elim
  | package p => cases get
  | classDeclaration c =>
    cases r with
    | classDeclaration => exact passes_classMember get there hnext
    | package => cases segment <;> cases hnext
    | _ => exact hr.elim
  | method n =>
    cases r with
    | method => exact passes_methodMember get there hnext
    | lambda => exact passes_lambdaMember get there hnext
    | _ => exact hr.elim
  | variableDeclaration v => exact passes_variableMember get there hr hnext
  | block b =>
    cases r with
    | block => exact passes_blockMember get there hnext
    | _ => exact hr.elim
  | expressions x =>
    cases r with
    | expressions => exact passes_expressionMember get there hnext
    | _ => exact hr.elim
  | type t =>
    cases r with
    | type =>
      cases segment with
      | inner path =>
        cases get
        cases hnext
        have hthere := congrArg (fun t => t.inner) (type.inj there)
        exact ⟨trivial, fun u h => .within (mem_of_insert hthere) h⟩
      | _ => cases hnext
    | _ => exact hr.elim
  | cast c =>
    cases r with
    | type =>
      cases segment with
      | inner path =>
        cases get
        cases hnext
        have hthere := congrArg (fun c => c.inner) (cast.inj there)
        exact ⟨trivial, fun u h => .inr ⟨_, mem_of_insert hthere, h⟩⟩
      | _ => cases hnext
    | _ => exact hr.elim

/-- **An element shows the annotations on itself**, if these are read. -/
theorem shows_annotations {r : Role} {e : Element} {u : AnnotationUse} (hr : r.Suits e)
    (hreads : r.readsItself = true) (hu : u ∈ e.annotations) : r.Shows u e := by
  cases r <;> cases e <;> first
    | exact hr.elim
    | exact absurd hreads Bool.false_ne_true
    | exact absurd hu List.not_mem_nil
    | exact hu
    | exact TypeElement.Holds.here hu
    | exact .inl hu
    | exact fun _ => oneShows_cons.mpr (.inl (shows_of_mem hu))
    | exact fun _ _ => oneShows_cons.mpr (.inl (shows_of_mem hu))
    | exact fun _ _ _ => oneShows_cons.mpr (.inl (shows_of_mem hu))

/-- **What is read of an element is shown by every element on the way to it.** -/
theorem Leads.shows {e x : Element} {way : List Segment} (h : e.Leads way x) {u : AnnotationUse}
    (hu : u ∈ x.annotations) :
    ∀ {r r' : Role}, r.Suits e → r.along? way = some r' → r'.readsItself = true → r.Shows u e := by
  induction h with
  | here =>
    intro r r' hr halong hreads
    obtain rfl := Option.some.inj halong
    exact shows_annotations hr hreads hu
  | member get there onward ih =>
    intro r r' hr halong hreads
    obtain ⟨s, hnext, halong⟩ := Option.bind_eq_some_iff.mp halong
    have hpasses := passes_member get there hr hnext
    exact hpasses.shows _ (ih hu hpasses.suits halong hreads)

end Element

end AnnotationPlan
