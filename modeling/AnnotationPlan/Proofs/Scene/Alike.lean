import AnnotationPlan.Proofs.Draft.Gist
import AnnotationPlan.Proofs.Scene.Ways

/-!
# Types and variables that come to the same

Two elements of one kind are **alike** if nothing that a run does can tell them apart:
wherever they stand, their sites have the same gist. And an element is of no account if its
sites have none; that is so if it is idle.

The members of an element are entries of maps. If one of them is exchanged for one that is
alike, or if it is idle and taken out, the element is alike to the one before. Both are one
change of a list of entries (`Entries.Exchange`), and for each list of a scene there is one
lemma that says what such a change of it comes to. Here this is done for types, where it
is enough to look at the annotated positions, each with its whole path, and for variables,
which are compared part by part.
-/

namespace AnnotationPlan

open Site (gist)

/-! ## One entry changed -/

/-- **One entry of a list is changed**: its value is exchanged for one that is alike, or the
entry is taken out since its value is idle. -/
inductive Entries.Exchange {κ ν : Type} (alike : ν → ν → Prop) (idle : ν → Prop) :
    List (κ × ν) → List (κ × ν) → Prop
  /-- The value is exchanged. -/
  | exchange (before after : List (κ × ν)) {k : κ} {v v' : ν} (h : alike v v') :
      Exchange alike idle (before ++ (k, v) :: after) (before ++ (k, v') :: after)
  /-- The entry is taken out. -/
  | takeOut (before after : List (κ × ν)) {k : κ} {v : ν} (h : idle v) :
      Exchange alike idle (before ++ (k, v) :: after) (before ++ after)

namespace Entries.Exchange

variable {κ ν α β : Type} {alike : ν → ν → Prop} {idle : ν → Prop} {es es' : List (κ × ν)}

/-- Writing an alike value to the key of an entry. -/
theorem of_insert [DecidableEq κ] {k : κ} {v v' : ν} (there : insert k v es = es)
    (h : alike v v') : Exchange alike idle es (insert k v' es) := by
  obtain ⟨before, after, hsplit, -, hinsert⟩ := exists_split there
  rw [hinsert, hsplit]
  exact .exchange before after h

/-- Erasing the key of an idle entry. -/
theorem of_erase [DecidableEq κ] {k : κ} {v : ν} (there : insert k v es = es) (h : idle v) :
    Exchange alike idle es (erase k es) := by
  obtain ⟨before, after, hsplit, herase, -⟩ := exists_split there
  rw [herase, hsplit]
  exact .takeOut before after h

/-- **What is read off the entries one by one** is the same after the change if alike
values yield the same and idle ones nothing. -/
theorem flatMap (h : Exchange alike idle es es') {f : κ × ν → List α} {g : List α → List β}
    (append : ∀ xs ys, g (xs ++ ys) = g xs ++ g ys)
    (same : ∀ {k v v'}, alike v v' → g (f (k, v)) = g (f (k, v')))
    (nothing : ∀ {k v}, idle v → g (f (k, v)) = []) :
    g (es.flatMap f) = g (es'.flatMap f) := by
  cases h with
  | exchange before after h => simp only [List.flatMap_append, List.flatMap_cons, append, same h]
  | takeOut before after h =>
    simp only [List.flatMap_append, List.flatMap_cons, append, nothing h, List.nil_append]

/-- The gist of the sites of the entries, one site each. -/
theorem gist_map (h : Exchange alike idle es es') {f : κ × ν → Site}
    (same : ∀ {k v v'}, alike v v' → gist [f (k, v)] = gist [f (k, v')])
    (nothing : ∀ {k v}, idle v → gist [f (k, v)] = []) :
    gist (es.map f) = gist (es'.map f) := by
  rw [List.map_eq_flatMap, List.map_eq_flatMap]
  exact h.flatMap Site.gist_append same nothing

/-- The gist of the sites of the entries. -/
theorem gist_flatMap (h : Exchange alike idle es es') {f : κ × ν → List Site}
    (same : ∀ {k v v'}, alike v v' → gist (f (k, v)) = gist (f (k, v')))
    (nothing : ∀ {k v}, idle v → gist (f (k, v)) = []) :
    gist (es.flatMap f) = gist (es'.flatMap f) :=
  h.flatMap Site.gist_append same nothing

/-- A computation that goes through the entries. -/
theorem foldlM (h : Exchange alike idle es es') {f : κ × ν → α}
    {visit : β → α → Except PlanError β}
    (same : ∀ {k v v'}, alike v v' → ∀ b, visit b (f (k, v)) = visit b (f (k, v')))
    (nothing : ∀ {k v}, idle v → ∀ b, visit b (f (k, v)) = .ok b) (b : β) :
    (es.map f).foldlM visit b = (es'.map f).foldlM visit b := by
  cases h with
  | exchange before after h =>
    simp only [List.map_append, List.map_cons, List.foldlM_append, List.foldlM_cons, same h]
  | takeOut before after h =>
    simp only [List.map_append, List.map_cons, List.foldlM_append, List.foldlM_cons, nothing h]
    rfl

end Entries.Exchange

/-! ## Types and casts -/

namespace TypeElement

/-- Whether there are annotations on a position. -/
def isAnnotated (p : TypePath × List AnnotationUse) : Bool := !p.2.isEmpty

/-- **Lists of positions that come to the same**: the annotated ones among them are the
same, wherever they stand. -/
def AlikeWithin (inner inner' : List (TypePath × TypeElement)) : Prop :=
  ∀ start, (positionsOf start inner).filter isAnnotated
    = (positionsOf start inner').filter isAnnotated

/-- **Types that come to the same.** -/
structure Alike (t t' : TypeElement) : Prop where
  /-- The annotations on the types themselves are the same. -/
  annotations : t.annotations = t'.annotations
  /-- So are those within. -/
  within : AlikeWithin t.inner t'.inner

theorem Alike.refl (t : TypeElement) : t.Alike t := ⟨rfl, fun _ => rfl⟩

theorem positionsOf_eq_flatMap (start : TypePath) (inner : List (TypePath × TypeElement)) :
    positionsOf start inner = inner.flatMap (fun e => positions (start.join e.1) e.2) := by
  induction inner with
  | nil => rfl
  | cons e rest ih => rw [positionsOf, ih, List.flatMap_cons]

/-- Alike types have the same annotated positions, those at their roots included. -/
theorem Alike.positions {t t' : TypeElement} (h : t.Alike t') (start : TypePath) :
    (TypeElement.positions start t).filter isAnnotated
      = (TypeElement.positions start t').filter isAnnotated := by
  obtain ⟨annotations, inner⟩ := t
  obtain ⟨annotations', inner'⟩ := t'
  obtain ⟨rfl, hwithin⟩ := h
  simp only [TypeElement.positions, List.filter_append, hwithin start]

mutual

/-- An empty type has no annotated positions. -/
theorem filter_positions_of_isEmpty (start : TypePath) :
    ∀ t : TypeElement, t.isEmpty = true → (positions start t).filter isAnnotated = []
  | ⟨annotations, inner⟩, h => by
    rw [isEmpty, Bool.and_eq_true] at h
    rw [positions, List.filter_append, filter_positionsOf_of_areEmpty start inner h.2,
      List.isEmpty_iff.mp h.1]
    rfl

/-- Nor do several empty types. -/
theorem filter_positionsOf_of_areEmpty (start : TypePath) :
    ∀ inner : List (TypePath × TypeElement), areEmpty inner = true →
      (positionsOf start inner).filter isAnnotated = []
  | [], _ => rfl
  | (path, t) :: rest, h => by
    rw [areEmpty, Bool.and_eq_true] at h
    rw [positionsOf, List.filter_append, filter_positions_of_isEmpty _ t h.1,
      filter_positionsOf_of_areEmpty start rest h.2]
    rfl

end

/-- **An empty type** comes to the same as one in which there is nothing at all. -/
theorem alike_default {t : TypeElement} (h : t.isEmpty = true) : t.Alike default := by
  obtain ⟨annotations, inner⟩ := t
  rw [isEmpty, Bool.and_eq_true] at h
  exact ⟨List.isEmpty_iff.mp h.1, fun start => filter_positionsOf_of_areEmpty start inner h.2⟩

/-- **A position changed.** -/
theorem AlikeWithin.of_exchange {inner inner' : List (TypePath × TypeElement)}
    (h : Entries.Exchange Alike (·.isEmpty) inner inner') : AlikeWithin inner inner' := by
  intro start
  rw [positionsOf_eq_flatMap, positionsOf_eq_flatMap]
  exact h.flatMap (List.filter_append) (fun ht => ht.positions _)
    (fun ht => filter_positions_of_isEmpty _ _ ht)

end TypeElement

/-- **Casts that come to the same.** -/
structure CastElement.Alike (c c' : CastElement) : Prop where
  /-- The annotations on the types are the same. -/
  annotations : c.annotations = c'.annotations
  /-- So are those within. -/
  within : TypeElement.AlikeWithin c.inner c'.inner
  /-- They are casts to the same type. -/
  type : c.type = c'.type

namespace Site

/-- The annotated positions within a type at a place. -/
theorem filter_positionsWithin {inner inner' : List (TypePath × TypeElement)}
    (h : TypeElement.AlikeWithin inner inner') (place : CriteriaList) :
    (positionsWithin place inner).filter Position.isAnnotated
      = (positionsWithin place inner').filter Position.isAnnotated := by
  unfold positionsWithin
  rw [List.filter_map, List.filter_map]
  exact congrArg _ (h TypePath.root)

theorem gist_singleton {s s' : Site} (h : s.trim = s'.trim) : gist [s] = gist [s'] := by
  unfold gist
  rw [List.map_singleton, List.map_singleton, h]

variable {t t' : TypeElement} (place : CriteriaList)

theorem gist_type (h : t.Alike t') : gist [type place t] = gist [type place t'] := by
  refine gist_singleton ?_
  simp only [trim, type, h.annotations, filter_positionsWithin h.within]

theorem gist_supertype (h : t.Alike t') :
    gist [supertype place t] = gist [supertype place t'] := by
  refine gist_singleton ?_
  simp only [trim, supertype, h.annotations, filter_positionsWithin h.within]

theorem gist_inserted (h : t.Alike t') : gist [inserted place t] = gist [inserted place t'] := by
  refine gist_singleton ?_
  simp only [trim, inserted, h.annotations, filter_positionsWithin h.within]

theorem gist_insertedCast {c c' : CastElement} (h : c.Alike c') :
    gist [insertedCast place c] = gist [insertedCast place c'] := by
  refine gist_singleton ?_
  simp only [trim, insertedCast, h.annotations, h.type, filter_positionsWithin h.within]

/-- The type of which nothing is known but where it is has no gist. -/
theorem gist_type_of_isEmpty (h : t.isEmpty = true) : gist [type place t] = [] :=
  gist_type place (TypeElement.alike_default h)

theorem gist_supertype_of_isEmpty (h : t.isEmpty = true) : gist [supertype place t] = [] :=
  gist_supertype place (TypeElement.alike_default h)

theorem gist_inserted_of_isEmpty (h : t.isEmpty = true) : gist [inserted place t] = [] :=
  gist_inserted place (TypeElement.alike_default h)

/-- A declaration without annotations has no gist. -/
theorem gist_declaration_nil : gist [declaration place []] = [] := rfl

end Site

/-- The types of a map in which there is nothing have no gist. -/
theorem TypeElement.gist_types_of_allEmpty {κ : Type} {ts : OrderedMap κ TypeElement}
    (h : allEmpty ts = true) (place : κ × TypeElement → CriteriaList) :
    gist (ts.entries.map (fun e => Site.type (place e) e.2)) = [] := by
  rw [List.map_eq_flatMap, Site.gist_flatMap, List.flatMap_eq_nil_iff]
  exact fun e he => Site.gist_type_of_isEmpty _ (List.all_eq_true.mp h e he)

/-! ## What goes into syntax trees, and variables -/

namespace AstInsertions

/-- **Insertions that come to the same.** -/
def Alike (i i' : AstInsertions) : Prop := ∀ place, gist (i.sites place) = gist (i'.sites place)

theorem alike_annotations (i : AstInsertions) {annotations : OrderedMap AstPath TypeElement}
    (h : Entries.Exchange TypeElement.Alike (·.isEmpty) i.annotations.entries
      annotations.entries) : i.Alike { i with annotations } := by
  intro place
  unfold sites
  rw [Site.gist_append, Site.gist_append,
    h.gist_map (f := fun e => Site.inserted (place.add (.astPath e.1)) e.2)
      (fun ht => Site.gist_inserted _ ht) (fun ht => Site.gist_inserted_of_isEmpty _ ht)]

theorem alike_casts (i : AstInsertions) {casts : OrderedMap AstPath CastElement}
    (h : Entries.Exchange CastElement.Alike (fun _ => False) i.casts.entries casts.entries) :
    i.Alike { i with casts } := by
  intro place
  unfold sites
  rw [Site.gist_append, Site.gist_append,
    h.gist_map (f := fun e => Site.insertedCast (place.add (.astPath e.1)) e.2)
      (fun hc => Site.gist_insertedCast _ hc) False.elim]

/-- Idle insertions come to nothing. -/
theorem gist_sites_of_isIdle {i : AstInsertions} (h : i.isIdle = true) (place : CriteriaList) :
    gist (i.sites place) = [] := by
  rw [isIdle, Bool.and_eq_true, List.all_eq_true] at h
  have hcasts : i.casts.entries = [] := List.isEmpty_iff.mp h.2
  unfold sites
  rw [hcasts, List.map_nil, List.append_nil, List.map_eq_flatMap, Site.gist_flatMap,
    List.flatMap_eq_nil_iff]
  exact fun e he => Site.gist_inserted_of_isEmpty _ (h.1 e he)

end AstInsertions

namespace VariableElement

/-- **Variables that come to the same.** -/
structure Alike (v v' : VariableElement) : Prop where
  /-- The annotations on the declarations are the same. -/
  annotations : v.annotations = v'.annotations
  /-- The types come to the same. -/
  type : v.type.Alike v'.type
  /-- So does what goes into the code that belongs to them. -/
  insertions : v.insertions.Alike v'.insertions

/-- **An idle variable** comes to the same as one in which there is nothing at all. -/
theorem alike_default {v : VariableElement} (h : v.isIdle = true) : v.Alike default := by
  rw [isIdle, Bool.and_eq_true, Bool.and_eq_true] at h
  exact ⟨List.isEmpty_iff.mp h.1.1, TypeElement.alike_default h.1.2,
    AstInsertions.gist_sites_of_isIdle h.2⟩

variable {v v' : VariableElement} (place : CriteriaList)

theorem gist_fieldSites (h : v.Alike v') (name : String) :
    gist (v.fieldSites place name) = gist (v'.fieldSites place name) := by
  unfold fieldSites
  rw [h.annotations]
  exact Site.gist_cons_congr rfl (Site.gist_cons_congr (Site.gist_type _ h.type) (h.insertions _))

theorem gist_localSites (h : v.Alike v') :
    gist (v.localSites place) = gist (v'.localSites place) := by
  unfold localSites
  rw [h.annotations]
  exact Site.gist_cons_congr rfl (Site.gist_type _ h.type)

theorem gist_lambdaSites (h : v.Alike v') :
    gist (v.lambdaSites place) = gist (v'.lambdaSites place) :=
  Site.gist_cons_congr (Site.gist_type _ h.type) (h.insertions _)

theorem alike_type (v : VariableElement) {type : TypeElement} (h : v.type.Alike type) :
    v.Alike { v with type } :=
  ⟨rfl, h, fun _ => rfl⟩

theorem alike_insertions (v : VariableElement) {insertions : AstInsertions}
    (h : v.insertions.Alike insertions) : v.Alike { v with insertions } :=
  ⟨rfl, TypeElement.Alike.refl _, h⟩

end VariableElement

end AnnotationPlan
