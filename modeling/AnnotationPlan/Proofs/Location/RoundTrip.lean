import AnnotationPlan.Proofs.Location.AstPaths
import AnnotationPlan.Proofs.Location.Places
import AnnotationPlan.Proofs.Location.TypePaths

/-!
# Locations are read back from their written forms

Every location key has a written form, and reading that gives the location again
(`Location.texts_parse`). For type paths, places of expressions, bounds and supertypes this
holds without exception. Two kinds of locations hold names, and not every name can be read:
a child selector of a path in the syntax tree is a run of letters, digits and underscores
(`AstPath.Readable`), and the name of a local variable is a run of its characters
(`LocalLocation.Readable`).

The text of a location is one of those that are read as the location, so only that has to be
shown of it.
-/

namespace AnnotationPlan

open Location Location.Scan

/-- The texts of things one after another are a row. -/
theorem Location.Row.flatMap {α : Type} {writes : List Char → α → Prop} {text : α → List Char} :
    ∀ {xs : List α}, (∀ x ∈ xs, writes (text x) x) → Row writes (xs.flatMap text) xs
  | [], _ => .nil
  | _ :: _, h => .cons (h _ List.mem_cons_self)
      (.flatMap (fun x hx => h x (List.mem_cons_of_mem _ hx)))

/-! ## Type paths -/

namespace TypePath

/-- The text of a step is one way to write it. -/
theorem Step.written_text (s : Step) : Step.Written s.text.toList s := by
  cases s with
  | array => exact .array
  | inner => exact .inner
  | wildcard => exact .wildcard
  | argument i =>
    rw [Step.text, String.toList_append]
    exact .argument (.repr _)

/-- **A type path is read back.** -/
theorem parse_text (p : TypePath) : TypePath.parse p.text = .ok p := by
  have htext : p.text.toList = p.steps.flatMap (fun s => s.text.toList) := by
    rw [text, String.toList_join, List.flatMap_map]
  rw [TypePath.parse, htext]
  exact parse_of_ok (scan_row (.flatMap (fun s _ => s.written_text))) _ _

end TypePath

/-! ## Places of expressions, bounds and supertypes -/

/-- The text of an anchor is one way to write it. -/
theorem RelativeAnchor.written_text (a : RelativeAnchor) : a.Written a.text.toList := by
  cases a with
  | offset n =>
    rw [text, String.toList_append]
    exact .offset (.repr _)
  | index n =>
    rw [text, String.toList_append]
    exact .index (.repr _)

/-- The text of the place of an expression is one way to write it. -/
theorem RelativeLocation.written_text (l : RelativeLocation) : l.Written l.text.toList := by
  obtain ⟨anchor, typeIndex⟩ := l
  rw [text, String.toList_append]
  by_cases hzero : typeIndex = 0
  · subst hzero
    rw [if_pos rfl, show "".toList = [] from rfl, List.append_nil]
    exact .plain anchor.written_text
  · rw [if_neg hzero, String.toList_append]
    exact .typeIndex anchor.written_text (.repr _)

/-- **The place of an expression is read back.** -/
theorem RelativeLocation.parse_text (l : RelativeLocation) :
    RelativeLocation.parse l.text = .ok l :=
  parse_eq_ok_iff.mpr l.written_text

/-- The text of a bound is one way to write it. -/
theorem BoundLocation.written_text (l : BoundLocation) : l.Written l.text.toList := by
  rw [text, String.toList_append, String.toList_append, List.append_assoc]
  exact .mk (.repr _) (.repr _)

/-- **A bound is read back.** -/
theorem BoundLocation.parse_text (l : BoundLocation) : BoundLocation.parse l.text = .ok l :=
  parse_eq_ok_iff.mpr l.written_text

/-- **A supertype is read back.** -/
theorem SupertypeLocation.parse_text (l : SupertypeLocation) :
    SupertypeLocation.parse l.text = .ok l :=
  parse_eq_ok_iff.mpr (.mk (.repr _))

/-! ## Local variables -/

namespace LocalLocation

/-- **A local variable can be read back**: its name is a run of characters of names. -/
def Readable : LocalLocation → Prop
  | .scoped _ _ _ => True
  | .named name _ => name ≠ "" ∧ ∀ c ∈ name.toList, isNameChar c = true

/-- The text of a local variable is one way to write it. -/
theorem written_text {l : LocalLocation} (h : l.Readable) : l.Written l.text.toList := by
  cases l with
  | «scoped» index start length =>
    rw [text]
    simp only [String.toList_append, List.append_assoc]
    exact .scoped (.repr _) (.repr _) (.repr _)
  | named name ordinal =>
    have hne : name.toList ≠ [] := fun hnil => h.1 (String.toList_eq_nil_iff.mp hnil)
    have hwritten := Written.named hne h.2 (.repr ordinal.toNat)
    rw [String.ofList_toList] at hwritten
    rw [text, String.toList_append, String.toList_append, List.append_assoc]
    exact hwritten

/-- **A local variable is read back.** -/
theorem parse_text {l : LocalLocation} (h : l.Readable) : LocalLocation.parse l.text = .ok l :=
  parse_eq_ok_iff.mpr (written_text h)

end LocalLocation

/-! ## Paths in the syntax tree -/

/-- **An entry can be read back**: its selector is a run of letters, digits and
underscores. -/
def AstEntry.Readable (e : AstEntry) : Prop :=
  e.selector ≠ "" ∧ ∀ c ∈ e.selector.toList, AstPath.isSelectorChar c = true

namespace AstEntry

/-- The text of an argument is one way to write it. -/
theorem written_argument (argument : Option Int32) :
    ArgumentWritten
      (match argument with
        | none => ""
        | some n => " " ++ n.toInt.repr).toList argument := by
  cases argument with
  | none => exact .none
  | some n =>
    dsimp only
    rw [String.toList_append]
    exact .some (List.cons_ne_nil _ _) (List.forall_mem_singleton.mpr rfl) (.repr n)

/-- The text of an entry is one way to write it. -/
theorem written_text {e : AstEntry} (h : e.Readable) : e.Written e.text.toList := by
  have hne : e.selector.toList ≠ [] := fun hnil => h.1 (String.toList_eq_nil_iff.mp hnil)
  have hwritten := Written.mk e.kind hne h.2 (written_argument e.argument)
  rw [String.ofList_toList] at hwritten
  rw [text, String.toList_append, String.toList_append, String.toList_append, List.append_assoc,
    List.append_assoc]
  exact hwritten

end AstEntry

namespace AstPath

/-- What is added to the written form of a path for one more entry. -/
def nextText (e : AstEntry) : List Char := ", ".toList ++ e.text.toList

/-- What is added for one more entry is one way to write it as a further one. -/
theorem written_nextText {e : AstEntry} (h : e.Readable) : e.FurtherWritten (nextText e) := by
  have hbefore : ∀ c ∈ ([] : List Char), isSeparatorBlank c = true :=
    fun _ hc => absurd hc List.not_mem_nil
  have hafter : ∀ c ∈ [' '], isSeparatorBlank c = true := List.forall_mem_singleton.mpr rfl
  exact .mk hbefore hafter (AstEntry.written_text h)

/-- **The written form of a path**: its first entry, and what is added for every other one. -/
theorem toList_text (first : AstEntry) (rest : List AstEntry) :
    (text ⟨first :: rest⟩).toList = first.text.toList ++ rest.flatMap nextText := by
  rw [text, String.toList_intercalate, List.map_map]
  induction rest generalizing first with
  | nil => simp
  | cons second rest ih =>
    rw [List.map_cons, List.map_cons, List.intercalate_cons_cons, ← List.map_cons, ih second,
      List.flatMap_cons, nextText, List.append_assoc, List.append_assoc]
    rfl

/-- **A path can be read back** if every entry can. -/
def Readable (p : AstPath) : Prop := ∀ e ∈ p.entries, e.Readable

/-- **A path is read back.** -/
theorem parse_text {p : AstPath} (h : p.Readable) : AstPath.parse p.text = .ok p := by
  obtain ⟨entries⟩ := p
  cases entries with
  | nil => rfl
  | cons first rest =>
    obtain ⟨hfirst, hrest⟩ := List.forall_mem_cons.mp h
    have hwritten : Written (text ⟨first :: rest⟩).toList ⟨first :: rest⟩ := by
      rw [toList_text]
      exact .mk (AstEntry.written_text hfirst)
        (.flatMap (fun e he => written_nextText (hrest e he)))
    unfold AstPath.parse
    rw [hwritten.isTrimmed.trimChars_eq, if_neg hwritten.ne_nil]
    exact parse_of_ok (scan_written hwritten) _ _

end AstPath

/-! ## All locations -/

/-- **Locations are read back from their written forms**: all type paths, places of
expressions, bounds and supertypes, and the paths in the syntax tree and local variables
whose names can be read. -/
theorem Location.texts_parse :
    (∀ p : TypePath, TypePath.parse p.text = .ok p)
      ∧ (∀ p : AstPath, p.Readable → AstPath.parse p.text = .ok p)
      ∧ (∀ l : RelativeLocation, RelativeLocation.parse l.text = .ok l)
      ∧ (∀ l : BoundLocation, BoundLocation.parse l.text = .ok l)
      ∧ (∀ l : SupertypeLocation, SupertypeLocation.parse l.text = .ok l)
      ∧ (∀ l : LocalLocation, l.Readable → LocalLocation.parse l.text = .ok l) :=
  ⟨TypePath.parse_text, fun _ => AstPath.parse_text, RelativeLocation.parse_text,
    BoundLocation.parse_text, SupertypeLocation.parse_text, fun _ => LocalLocation.parse_text⟩

/-- The parameter of a lambda in the second statement of a block. -/
def AstPath.sample : AstPath := ⟨[
  ⟨{ name := "Block" }, "statement", some 1⟩, ⟨{ name := "Lambda" }, "parameter", some (-1)⟩]⟩

/-- A path with arguments and a variable with a name are read back. -/
theorem Location.texts_parse_sample :
    AstPath.sample.Readable ∧ AstPath.parse AstPath.sample.text = .ok AstPath.sample
      ∧ (LocalLocation.named "x_1" 7).Readable
      ∧ LocalLocation.parse (LocalLocation.named "x_1" 7).text = .ok (.named "x_1" 7) := by
  have hpath : AstPath.sample.Readable := by
    refine List.forall_mem_cons.mpr ⟨⟨by decide, List.all_eq_true.mp (by decide)⟩, ?_⟩
    exact List.forall_mem_singleton.mpr ⟨by decide, List.all_eq_true.mp (by decide)⟩
  have hname : (LocalLocation.named "x_1" 7).Readable :=
    ⟨by decide, List.all_eq_true.mp (by decide)⟩
  exact ⟨hpath, Location.texts_parse.2.1 _ hpath, hname,
    Location.texts_parse.2.2.2.2.2 _ hname⟩

end AnnotationPlan
