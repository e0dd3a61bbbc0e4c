import AnnotationPlan.Proofs.Scene.Alike
import AnnotationPlan.Proofs.Scene.Ways
import AnnotationPlan.Synthesis.Site

/-!
# What of a scene is read

A scene may hold annotations where none are read. What is read of an element depends on what
the element is for the element that it is a member of – its **role**: a variable that is a
field is read with all that belongs to it, while of a parameter of a method only the type
counts. A role says whether the annotations on an element itself are read, and what its
members are read as, if they are (`Role.next?`).

Not read are

* the annotations on the declarations of parameters;
* what goes into the syntax tree of a parameter of a method, or of a local variable;
* of a lambda anything but its parameters and its code;
* the members of a class that stands for a package.

Everything else is. What this means for the sites that an element is laid out as is said
here (`Role.Shows`): wherever the element is, the annotation is on one of its sites.
-/

namespace AnnotationPlan

/-- **What an element is read as.** -/
inductive Role where
  /-- The scene. -/
  | scene
  /-- A package, or a class that stands for one. -/
  | package
  /-- A class. -/
  | classDeclaration
  /-- A method of a class. -/
  | method
  /-- A lambda. -/
  | lambda
  /-- A field. -/
  | field
  /-- A parameter of a method. -/
  | parameter
  /-- A parameter of a lambda. -/
  | lambdaParameter
  /-- A local variable. -/
  | localVariable
  /-- A block of code. -/
  | block
  /-- The expressions of a block. -/
  | expressions
  /-- A type, or a position within one. -/
  | type
deriving DecidableEq

namespace Role

/-- Whether the annotations on the element itself are read. -/
def readsItself : Role → Bool
  | lambda => false
  | parameter => false
  | lambdaParameter => false
  | _ => true

/-- **What a member is read as**, if it is read. -/
def next? : Role → Segment → Option Role
  | scene, .package _ => some package
  | scene, .classDeclaration name =>
    match Part.packageSuffix.toList.isSuffixOf? name.toList with
    | some _ => some package
    | none => some classDeclaration
  | classDeclaration, .bound _ => some type
  | classDeclaration, .supertype _ => some type
  | classDeclaration, .field _ => some field
  | classDeclaration, .method _ => some method
  | classDeclaration, .staticInit _ => some block
  | classDeclaration, .instanceInit _ => some block
  | classDeclaration, .fieldInit _ => some expressions
  | classDeclaration, .annotatedPlace _ => some type
  | classDeclaration, .castPlace _ _ => some type
  | method, .receiver => some type
  | method, .returnType => some type
  | method, .bound _ => some type
  | method, .parameter _ => some parameter
  | method, .annotatedPlace _ => some type
  | method, .castPlace _ _ => some type
  | method, .body => some block
  | lambda, .parameter _ => some lambdaParameter
  | lambda, .body => some block
  | field, .variableType => some type
  | field, .annotatedPlace _ => some type
  | field, .castPlace _ _ => some type
  | parameter, .variableType => some type
  | lambdaParameter, .variableType => some type
  | lambdaParameter, .annotatedPlace _ => some type
  | lambdaParameter, .castPlace _ _ => some type
  | localVariable, .variableType => some type
  | block, .localVariable _ => some localVariable
  | block, .expressions => some expressions
  | expressions, .cast _ => some type
  | expressions, .new _ => some type
  | expressions, .instanceOf _ => some type
  | expressions, .memberReference _ => some type
  | expressions, .call _ => some type
  | expressions, .lambda _ => some lambda
  | type, .inner _ => some type
  | _, _ => none

/-- **What the element at the end of a way is read as**, if all members on the way are
read. -/
def along? : Role → List Segment → Option Role
  | r, [] => some r
  | r, segment :: way => (r.next? segment).bind (fun s => s.along? way)

end Role

/-! ## Annotations within types -/

/-- **An annotation at or within a position of a type.** -/
inductive TypeElement.Holds (u : AnnotationUse) : TypeElement → Prop where
  | here {t : TypeElement} (h : u ∈ t.annotations) : Holds u t
  | within {t i : TypeElement} {path : TypePath} (hmem : (path, i) ∈ t.inner) (h : Holds u i) :
    Holds u t

/-- An annotation at or within one of several positions of a type. -/
def TypeElement.OneHolds (u : AnnotationUse) (inner : List (TypePath × TypeElement)) : Prop :=
  ∃ e ∈ inner, e.2.Holds u

/-- **An annotation on a site**, or within its type. -/
def Site.Shows (u : AnnotationUse) (s : Site) : Prop := ∃ p ∈ s.spots, u ∈ p.annotations

/-- An annotation on one of several sites. -/
def Site.OneShows (u : AnnotationUse) (sites : List Site) : Prop := ∃ s ∈ sites, s.Shows u

variable {u : AnnotationUse}

/-- What is held within a type is at one of its positions. -/
theorem TypeElement.Holds.exists_position {t : TypeElement} (h : t.Holds u) :
    ∀ start, ∃ p ∈ positions start t, u ∈ p.2 := by
  induction h with
  | @here t h =>
    intro start
    obtain ⟨annotations, inner⟩ := t
    exact ⟨(start, annotations), List.mem_append_right _ List.mem_cons_self, h⟩
  | @within t i path hmem _ ih =>
    intro start
    obtain ⟨annotations, inner⟩ := t
    obtain ⟨p, hp, hu⟩ := ih (start.join path)
    refine ⟨p, List.mem_append_left _ ?_, hu⟩
    rw [positionsOf_eq_flatMap]
    exact List.mem_flatMap.mpr ⟨(path, i), hmem, hp⟩

namespace Site

variable {place : CriteriaList}

theorem shows_of_mem {s : Site} (h : u ∈ s.annotations) : s.Shows u :=
  ⟨s.spot, s.spot_mem_spots, h⟩

/-- What is held within the type of a site is shown. -/
theorem shows_of_oneHolds {s : Site} {inner : List (TypePath × TypeElement)}
    (hnested : s.nested = positionsWithin place inner) (h : TypeElement.OneHolds u inner) :
    s.Shows u := by
  obtain ⟨⟨path, t⟩, hmem, ht⟩ := h
  obtain ⟨p, hp, hu⟩ := ht.exists_position (TypePath.root.join path)
  have hposition : p ∈ TypeElement.positionsOf TypePath.root inner := by
    rw [TypeElement.positionsOf_eq_flatMap]
    exact List.mem_flatMap.mpr ⟨(path, t), hmem, hp⟩
  refine ⟨.within ⟨place.add (.atLocation p.1), p.2⟩, within_mem_spots ?_, hu⟩
  rw [hnested]
  exact List.mem_map_of_mem hposition

/-- A site shows what its type holds. -/
theorem shows_of_holds {s : Site} {t : TypeElement} (hannotations : s.annotations = t.annotations)
    (hnested : s.nested = positionsWithin place t.inner) (h : t.Holds u) : s.Shows u := by
  cases h with
  | here h => exact shows_of_mem (hannotations ▸ h)
  | within hmem h => exact shows_of_oneHolds hnested ⟨_, hmem, h⟩

@[simp] theorem oneShows_cons {s : Site} {rest : List Site} :
    OneShows u (s :: rest) ↔ s.Shows u ∨ OneShows u rest := by
  simp [OneShows]

@[simp] theorem oneShows_append {xs ys : List Site} :
    OneShows u (xs ++ ys) ↔ OneShows u xs ∨ OneShows u ys := by
  simp [OneShows, or_and_right, exists_or]

@[simp] theorem oneShows_map {α : Type} {f : α → Site} {xs : List α} :
    OneShows u (xs.map f) ↔ ∃ x ∈ xs, (f x).Shows u := by
  simp [OneShows]

@[simp] theorem oneShows_flatMap {α : Type} {f : α → List Site} {xs : List α} :
    OneShows u (xs.flatMap f) ↔ ∃ x ∈ xs, OneShows u (f x) := by
  simp only [OneShows, List.mem_flatMap]
  exact ⟨fun ⟨s, ⟨x, hx, hs⟩, h⟩ => ⟨x, hx, s, hs, h⟩, fun ⟨x, hx, s, hs, h⟩ => ⟨s, ⟨x, hx, hs⟩, h⟩⟩

end Site

/-! ## Members -/

open Site

/-- **What goes into a syntax tree** shows what its members hold. -/
inductive AstInsertions.Holds (u : AnnotationUse) (i : AstInsertions) : Prop where
  | annotated {path : AstPath} {t : TypeElement} (hmem : (path, t) ∈ i.annotations.entries)
    (h : t.Holds u) : Holds u i
  | onCast {path : AstPath} {c : CastElement} (hmem : (path, c) ∈ i.casts.entries)
    (h : u ∈ c.annotations ∨ TypeElement.OneHolds u c.inner) : Holds u i

theorem AstInsertions.Holds.oneShows {i : AstInsertions} (h : i.Holds u) (place : CriteriaList) :
    OneShows u (i.sites place) := by
  unfold AstInsertions.sites
  rw [oneShows_append, oneShows_map, oneShows_map]
  cases h with
  | annotated hmem h => exact .inl ⟨_, hmem, shows_of_holds rfl rfl h⟩
  | onCast hmem h =>
    refine .inr ⟨_, hmem, ?_⟩
    rcases h with h | h
    · exact shows_of_mem h
    · exact shows_of_oneHolds rfl h

namespace Role

/-- Elements that have a role. -/
def Suits : Role → Element → Prop
  | scene, .scene _ => True
  | package, .package _ => True
  | package, .classDeclaration _ => True
  | classDeclaration, .classDeclaration _ => True
  | method, .method _ => True
  | lambda, .method _ => True
  | field, .variableDeclaration _ => True
  | parameter, .variableDeclaration _ => True
  | lambdaParameter, .variableDeclaration _ => True
  | localVariable, .variableDeclaration _ => True
  | block, .block _ => True
  | expressions, .expressions _ => True
  | type, .type _ => True
  | type, .cast _ => True
  | _, _ => False

/-- **An annotation is shown by an element in a role**: it is on one of the sites of the
element, wherever these are. A scene may do without, if it cannot be worked off. -/
def Shows (u : AnnotationUse) : Role → Element → Prop
  | scene, .scene s => ∃ p ∈ s.parts, OneShows u p.sites ∨ ∃ name, p = .nameless name
  | package, .package p => u ∈ p.annotations
  | package, .classDeclaration c => u ∈ c.annotations
  | classDeclaration, .classDeclaration c => ∀ name, OneShows u (c.sites name)
  | method, .method m => ∀ place className name, OneShows u (m.sites place className name)
  | lambda, .method m => ∀ place name, OneShows u (m.lambdaSites place name)
  | field, .variableDeclaration v => ∀ place name, OneShows u (v.fieldSites place name)
  | parameter, .variableDeclaration v => v.type.Holds u
  | lambdaParameter, .variableDeclaration v => ∀ place, OneShows u (v.lambdaSites place)
  | localVariable, .variableDeclaration v => ∀ place, OneShows u (v.localSites place)
  | block, .block b => ∀ place name, OneShows u (b.sites place name)
  | expressions, .expressions x => ∀ place name, OneShows u (x.sites place name)
  | type, .type t => t.Holds u
  | type, .cast c => u ∈ c.annotations ∨ TypeElement.OneHolds u c.inner
  | _, _ => False

/-- **A member's annotations are the element's**: the member has its role, and what it shows
the element shows. -/
structure Passes (r : Role) (e : Element) (r' : Role) (x : Element) : Prop where
  suits : r'.Suits x
  shows : ∀ u, r'.Shows u x → r.Shows u e

end Role

end AnnotationPlan
