import AnnotationPlan.Criteria.Basic
import AnnotationPlan.Proofs.AnnotationUse.Readability
import AnnotationPlan.Proofs.Location.AstPaths

/-!
# Names in the written form of criteria

The written form of a criterion consists of words, numbers and signs, and of the names of
packages, classes, fields, methods and variables, which are written as they are. Words,
numbers and signs are on one line and hold no tab. So the line ends and the tabs in a written
criterion are those of its names (`Criterion.occurrences_text`), and so it is for a list of
criteria (`CriteriaList.occurrences_text`).
-/

namespace AnnotationPlan

namespace Text

/-- **How often a character occurs** in a text. -/
def occurrences (x : Char) (s : String) : Nat := s.toList.count x

/-- Line ends and tabs, which a listing is taken apart at. -/
def IsBreak (x : Char) : Prop := x = '\n' ∨ x = '\t'

variable {x : Char}

theorem occurrences_eq_zero_iff {s : String} : occurrences x s = 0 ↔ x ∉ s.toList :=
  List.count_eq_zero

theorem occurrences_append (s t : String) :
    occurrences x (s ++ t) = occurrences x s + occurrences x t := by
  rw [occurrences, String.toList_append]
  exact List.count_append

/-- A separator that does not have the character adds none. -/
theorem occurrences_intercalate {mark : String} (h : occurrences x mark = 0) :
    ∀ ss : List String,
      occurrences x (String.intercalate mark ss) = (ss.map (occurrences x)).sum
  | [] => List.count_nil
  | [s] => by rw [String.intercalate_singleton, List.map_singleton, List.sum_singleton]
  | s :: t :: rest => by
    rw [String.intercalate_cons_cons, occurrences_append, occurrences_append, h, Nat.add_zero,
      occurrences_intercalate h (t :: rest), List.map_cons, List.sum_cons]
    rfl

theorem occurrences_join (ss : List String) :
    occurrences x (String.join ss) = (ss.map (occurrences x)).sum := by
  rw [occurrences, String.toList_join, List.count_flatMap]
  rfl

/-- A character occurs in none of several texts if it does not occur in them together. -/
theorem sum_occurrences_eq_zero_iff {ss : List String} :
    (ss.map (occurrences x)).sum = 0 ↔ ∀ s ∈ ss, x ∉ s.toList := by
  simp only [List.sum_eq_zero_iff_forall_eq_nat, List.forall_mem_map, occurrences_eq_zero_iff]

/-- Whether a text holds neither line ends nor tabs. -/
def isUnbroken (s : String) : Bool := s.toList.all (fun c => c != '\n' && c != '\t')

section Breaks

variable (hx : IsBreak x)
include hx

theorem occurrences_of_isUnbroken {s : String} (h : isUnbroken s = true) :
    occurrences x s = 0 := by
  refine occurrences_eq_zero_iff.mpr (fun hmem => ?_)
  have hne := List.all_eq_true.mp h x hmem
  rcases hx with rfl | rfl <;> cases hne

/-- Plain texts hold neither line ends nor tabs. -/
theorem occurrences_of_isPlain {s : String} (h : ∀ c ∈ s.toList, Literal.isPlain c = true) :
    occurrences x s = 0 := by
  refine occurrences_eq_zero_iff.mpr (fun hmem => ?_)
  have hplain := h x hmem
  rcases hx with rfl | rfl <;> cases hplain

theorem occurrences_repr (n : Nat) : occurrences x n.repr = 0 :=
  occurrences_of_isPlain hx
    (fun c hc => Literal.isPlain_of_isDigit (Location.Scan.isDigit_of_mem_repr c hc))

theorem occurrences_int_repr (n : Int) : occurrences x n.repr = 0 :=
  occurrences_of_isPlain hx (Literal.isPlain_of_mem_repr n)

/-- A sign before a number. -/
theorem occurrences_sign {sign : String} (h : isUnbroken sign = true) (s : String) :
    occurrences x (sign ++ s) = occurrences x s := by
  rw [occurrences_append, occurrences_of_isUnbroken hx h, Nat.zero_add]

/-- A number behind a text. -/
theorem occurrences_append_repr (s : String) (n : Nat) :
    occurrences x (s ++ n.repr) = occurrences x s := by
  rw [occurrences_append, occurrences_repr hx, Nat.add_zero]

/-- A word or sign behind a text. -/
theorem occurrences_append_sign (s : String) {sign : String} (h : isUnbroken sign = true) :
    occurrences x (s ++ sign) = occurrences x s := by
  rw [occurrences_append, occurrences_of_isUnbroken hx h, Nat.add_zero]

end Breaks

end Text

open Text

variable {x : Char}

/-! ## Locations -/

/-- The name in the place of a local variable. -/
def LocalLocation.names : LocalLocation → List String
  | .scoped .. => []
  | .named name _ => [name]

/-- The names in a path in the syntax tree: those of children. -/
def AstPath.names (p : AstPath) : List String := p.entries.map AstEntry.selector

section Locations

variable (hx : IsBreak x)
include hx

theorem RelativeLocation.occurrences_text (l : RelativeLocation) : occurrences x l.text = 0 := by
  have hanchor : occurrences x l.anchor.text = 0 := by
    cases l.anchor with
    | offset n => exact (occurrences_sign hx rfl _).trans (occurrences_repr hx _)
    | index n => exact (occurrences_sign hx rfl _).trans (occurrences_repr hx _)
  rw [text, occurrences_append, hanchor, Nat.zero_add]
  split
  · exact occurrences_of_isUnbroken hx rfl
  · exact (occurrences_sign hx rfl _).trans (occurrences_repr hx _)

theorem BoundLocation.occurrences_text (l : BoundLocation) : occurrences x l.text = 0 := by
  rw [text, occurrences_append, occurrences_append_sign hx _ rfl, occurrences_repr hx,
    occurrences_int_repr hx]

theorem SupertypeLocation.occurrences_text (l : SupertypeLocation) : occurrences x l.text = 0 :=
  occurrences_int_repr hx _

theorem TypePath.occurrences_text (p : TypePath) : occurrences x p.text = 0 := by
  have hstep : ∀ s : Step, occurrences x s.text = 0 := by
    intro s
    cases s with
    | argument i => exact (occurrences_append_sign hx _ rfl).trans (occurrences_repr hx _)
    | _ => exact occurrences_of_isUnbroken hx rfl
  rw [text, occurrences_join, List.map_map]
  refine List.sum_eq_zero_iff_forall_eq_nat.mpr (fun n hn => ?_)
  obtain ⟨s, -, rfl⟩ := List.mem_map.mp hn
  exact hstep s

theorem LocalLocation.occurrences_text (l : LocalLocation) :
    occurrences x l.text = (l.names.map (occurrences x)).sum := by
  match l with
  | .scoped index start length =>
    rw [text, occurrences_append_repr hx, occurrences_append_sign hx _ rfl,
      occurrences_append_repr hx, occurrences_append_sign hx _ rfl, occurrences_append_repr hx]
    exact occurrences_of_isUnbroken hx rfl
  | .named name ordinal =>
    rw [text, occurrences_append_repr hx, occurrences_append_sign hx _ rfl]
    exact List.sum_singleton.symm

theorem AstPath.occurrences_text (p : AstPath) :
    occurrences x p.text = (p.names.map (occurrences x)).sum := by
  have hkind : ∀ k : TreeKind, occurrences x k.name = 0 := by
    refine fun k => occurrences_of_isPlain hx (fun c hc => ?_)
    simp [Literal.isPlain, Char.isAlphanum, k.name_isAlpha.2 c hc]
  have hentry : ∀ e : AstEntry, occurrences x e.text = occurrences x e.selector := by
    intro e
    obtain ⟨kind, selector, argument⟩ := e
    have hbefore : occurrences x (kind.name ++ "." ++ selector) = occurrences x selector := by
      rw [occurrences_append, occurrences_append_sign hx _ rfl, hkind, Nat.zero_add]
    cases argument with
    | none => exact (occurrences_append_sign hx _ rfl).trans hbefore
    | some n =>
      show occurrences x (kind.name ++ "." ++ selector ++ (" " ++ n.toInt.repr)) = _
      rw [occurrences_append, hbefore, occurrences_sign hx rfl, occurrences_int_repr hx,
        Nat.add_zero]
  rw [text, occurrences_intercalate (occurrences_of_isUnbroken hx rfl), List.map_map, names,
    List.map_map]
  exact congrArg List.sum (List.map_congr_left (fun e _ => hentry e))

end Locations

/-! ## Criteria -/

namespace Criterion

/-- **The names in a criterion**, in the order in which they are written. -/
def names : Criterion → List String
  | packageDecl package => [package]
  | inClass className _ | isClass className | classBound className _
  | supertype className _ => [className]
  | field name _ => [name]
  | inMethod method | receiver method | methodBound method _ | parameter method _
  | cast method _ | new method _ | instanceOf method _ | memberReference method _
  | methodCall method _ | lambda method _ => [method]
  | returnType className method => [className, method]
  | localVariable method location => method :: location.names
  | astPath path => path.names
  | inFieldInit fieldName => [fieldName]
  | atLocation _ | inStaticInit _ | inInstanceInit _ | intersectionType _ => []

section Breaks

variable (hx : IsBreak x)
include hx

/-- What occurs in the arguments of a word. -/
theorem occurrences_call {word : String} (hword : isUnbroken word = true)
    (arguments : List String) :
    occurrences x (call word arguments) = (arguments.map (occurrences x)).sum := by
  rw [call, occurrences_append_sign hx _ rfl, occurrences_append,
    occurrences_append_sign hx _ rfl, occurrences_of_isUnbroken hx hword,
    occurrences_intercalate (occurrences_of_isUnbroken hx rfl), Nat.zero_add]

/-- A word with a name. -/
theorem occurrences_call_name {word : String} (hword : isUnbroken word = true) (name : String) :
    occurrences x (call word [name]) = occurrences x name :=
  occurrences_call hx hword [name]

/-- A word with a name and something else. -/
theorem occurrences_call_pair {word : String} (hword : isUnbroken word = true) (name : String)
    {s : String} (hs : occurrences x s = 0) :
    occurrences x (call word [name, s]) = occurrences x name := by
  rw [occurrences_call hx hword, List.map_cons, List.sum_cons, List.map_singleton,
    List.sum_singleton, hs, Nat.add_zero]

/-- **The line ends and tabs in a written criterion** are those of its names. -/
theorem occurrences_text (c : Criterion) :
    occurrences x c.text = (c.names.map (occurrences x)).sum := by
  have hword : ∀ {s : String}, isUnbroken s = true → occurrences x s = 0 :=
    occurrences_of_isUnbroken hx
  cases c with
  | packageDecl name | inMethod name | receiver name | inFieldInit name =>
    exact occurrences_call_name hx rfl name
  | inClass name «exact» =>
    cases «exact» with
    | true => exact occurrences_call_pair hx rfl name (hword rfl)
    | false => exact occurrences_call_name hx rfl name
  | field name declaration =>
    cases declaration with
    | true => exact occurrences_call_pair hx rfl name (hword rfl)
    | false => exact occurrences_call_name hx rfl name
  | isClass name =>
    rw [text, occurrences_call hx rfl, List.map_cons, List.sum_cons, hword rfl, Nat.zero_add]
    rfl
  | classBound name bound | methodBound name bound =>
    exact occurrences_call_pair hx rfl name (bound.occurrences_text hx)
  | supertype name index => exact occurrences_call_pair hx rfl name (index.occurrences_text hx)
  | parameter name index => exact occurrences_call_pair hx rfl name (occurrences_repr hx _)
  | cast name location | new name location | instanceOf name location
  | memberReference name location | methodCall name location | lambda name location =>
    exact occurrences_call_pair hx rfl name (location.occurrences_text hx)
  | returnType className method => exact occurrences_call hx rfl [className, method]
  | localVariable name location =>
    rw [names, List.map_cons, List.sum_cons, ← location.occurrences_text hx]
    exact occurrences_call hx rfl [name, location.text]
  | astPath path =>
    exact (occurrences_call_name hx rfl path.text).trans (path.occurrences_text hx)
  | atLocation path => exact (occurrences_call_name hx rfl _).trans (path.occurrences_text hx)
  | inStaticInit block | inInstanceInit block =>
    exact (occurrences_call_name hx rfl _).trans (occurrences_repr hx _)
  | intersectionType location =>
    exact (occurrences_call_name hx rfl _).trans (location.occurrences_text hx)

end Breaks

end Criterion

/-- The names in criteria. -/
def CriteriaList.names (l : CriteriaList) : List String := l.toList.flatMap Criterion.names

/-- **The line ends and tabs in written criteria** are those of their names. -/
theorem CriteriaList.occurrences_text (hx : IsBreak x) (l : CriteriaList) :
    occurrences x l.text = (l.names.map (occurrences x)).sum := by
  have hone : occurrences x ∘ Criterion.text
      = List.sum ∘ List.map (occurrences x) ∘ Criterion.names :=
    funext (fun c => c.occurrences_text hx)
  rw [text, Criterion.listText, occurrences_append_sign hx _ rfl, occurrences_sign hx rfl,
    occurrences_intercalate (occurrences_of_isUnbroken hx rfl), List.map_map, hone, names,
    List.map_flatMap, List.flatMap_def, List.sum_flatten, List.map_map]
  rfl

end AnnotationPlan
