import AnnotationPlan.Proofs.JavaType.Decoration
import AnnotationPlan.Proofs.Location.RoundTrip

/-!
# The brackets of an array

A type that is an array of arrays is read in two directions. A path goes in from the
outermost array, one array at a time, and comes to the element type in the end. The source
text begins with the element type, and the brackets stand behind it – the first pair for the
outermost array, the last one for the array next to the element type. So the brackets are in
the order of the paths and not in that of the distance from the element type, and what is
annotated at the end of a path of `k` steps stands before the pair with `k` others in front
of it (`JavaType.text_arrayOf`).

The printer collects the brackets on its way in and writes them when it has come to a type
that is no array (`JavaType.textBefore_arrayOf`). What kind of type that is makes no
difference; even where a type is written as its annotations only, the brackets follow.
-/

namespace AnnotationPlan

/-- **The path through a number of arrays.** -/
def TypePath.throughArrays (k : Nat) : TypePath := ⟨List.replicate k .array⟩

/-- The path through arrays is written as so many opening brackets. -/
theorem TypePath.parse_brackets (k : Nat) :
    TypePath.parse (String.ofList (List.replicate k '[')) = .ok (throughArrays k) := by
  have htext : (throughArrays k).text = String.ofList (List.replicate k '[') := by
    refine String.toList_inj.mp ?_
    rw [TypePath.text, throughArrays, List.map_replicate, String.toList_ofList, String.toList_join]
    exact (List.flatMap_replicate).trans List.flatten_replicate_singleton
  rw [← htext, TypePath.parse_text]

namespace JavaType

variable {t e : JavaType} {dims : List (List String)}

/-- Whether a type is an array. -/
def isArray : JavaType → Bool
  | .array _ _ => true
  | _ => false

/-- **Arrays around an element type**, the outermost first: each with its annotations. -/
def arrayOf (dims : List (List String)) (e : JavaType) : JavaType := dims.foldr .array e

/-- **The brackets of an array**, and before them its annotations: a space stands before each
annotation, and before the brackets if there are any annotations. -/
def bracketPair (as : List String) : String :=
  if as = [] then "[]" else String.join (as.map (" " ++ ·)) ++ " []"

/-! ## Text -/

theorem dimension_eq (as : List String) : dimension as = bracketPair as := by
  cases as with
  | nil => rfl
  | cons a rest =>
    show String.join _ ++ " " ++ "[]" = String.join _ ++ " []"
    rw [String.append_assoc]
    rfl

/-- **Brackets are collected** on the way to the element type. -/
theorem textBefore_arrayOf (e : JavaType) : ∀ (dims : List (List String)) (brackets : String),
    (arrayOf dims e).textBefore brackets
      = e.textBefore (brackets ++ String.join (dims.map bracketPair))
  | [], brackets => by
    rw [List.map_nil, String.join_nil, String.append_empty]
    rfl
  | as :: rest, brackets => by
    show (JavaType.array as (arrayOf rest e)).textBefore brackets = _
    rw [textBefore, textBefore_arrayOf e rest, dimension_eq, List.map_cons, String.join_cons,
      String.append_assoc]

/-- **A type that is no array** is written before the brackets of the arrays around it. -/
theorem textBefore_of_isArray_eq_false (he : e.isArray = false) (brackets : String) :
    e.textBefore brackets = e.text ++ brackets := by
  cases e with
  | declared as name arguments inner =>
    unfold text textBefore
    split <;> rw [String.append_empty]
  | array as component => cases he
  | wildcard as kind bound =>
    unfold text textBefore
    rw [String.append_empty]

/-! ## Positions -/

/-- **A path through arrays** leads past the outermost ones. -/
theorem at?_arrayOf (e : JavaType) : ∀ {k : Nat} {dims : List (List String)}, k ≤ dims.length →
    (arrayOf dims e).at? (.throughArrays k) = some (arrayOf (dims.drop k) e)
  | 0, dims, _ => rfl
  | k + 1, _ :: rest, h => by
    have hinside : (arrayOf rest e).at? (.throughArrays k) = some (arrayOf (rest.drop k) e) :=
      at?_arrayOf e (Nat.le_of_succ_le_succ h)
    exact hinside

/-- **Arrays around a type are known** by what is found on the way through them. -/
theorem eq_arrayOf : ∀ {dims : List (List String)} {t : JavaType},
    t.at? (.throughArrays dims.length) = some e →
    (∀ k (hk : k < dims.length), ∃ component,
      t.at? (.throughArrays k) = some (.array dims[k] component)) →
    t = arrayOf dims e
  | [], t, helement, _ => Option.some.inj helement
  | as :: rest, t, helement, harrays => by
    obtain ⟨component, houter⟩ := harrays 0 (Nat.zero_lt_succ _)
    obtain rfl : t = .array as component := Option.some.inj houter
    have hcomponent : component = arrayOf rest e := eq_arrayOf helement
      (fun k hk => harrays (k + 1) (Nat.succ_lt_succ hk))
    rw [hcomponent]
    rfl

/-- **An annotation on one of the arrays** is put behind those that it has. -/
theorem annotateAt?_arrayOf (e : JavaType) (text : String) :
    ∀ {k : Nat} {dims : List (List String)}, k < dims.length →
      (arrayOf dims e).annotateAt? (.throughArrays k) text
        = some (arrayOf (dims.modify k (· ++ [text])) e)
  | 0, as :: rest, _ => rfl
  | k + 1, as :: rest, h => by
    have hinside := annotateAt?_arrayOf e text (Nat.lt_of_succ_lt_succ h)
    show ((arrayOf rest e).annotateAt? (.throughArrays k) text).bind
      (fun changed => some (setStep .array changed (.array as (arrayOf rest e)))) = _
    rw [hinside]
    rfl

/-- **The brackets of an array.** Around any type that is no array there may be any number of
arrays, each with annotations of its own; the whole is known by what is found on the path
through them. It is written as the element type, and behind it for each array, the outermost
first, a pair of brackets with its annotations before it. The path of `k` opening brackets
leads to the array that the pair with `k` others in front of it belongs to: its annotations
are there, and a further one is written before that pair and nowhere else. -/
theorem text_arrayOf (dims : List (List String)) (he : e.isArray = false) :
    (∀ t, t = arrayOf dims e ↔
        t.at? (.throughArrays dims.length) = some e
        ∧ ∀ k (hk : k < dims.length), ∃ component,
            t.at? (.throughArrays k) = some (.array dims[k] component))
    ∧ (arrayOf dims e).text = e.text ++ String.join (dims.map bracketPair)
    ∧ ∀ k (hk : k < dims.length), ∃ path,
        TypePath.parse (String.ofList (List.replicate k '[')) = .ok path
        ∧ (arrayOf dims e).annotationsAt? path = some dims[k]
        ∧ ∀ a, ((arrayOf dims e).annotateAt? path a).map text
            = some (e.text ++ String.join ((dims.modify k (· ++ [a])).map bracketPair)) := by
  have htext : ∀ dims, (arrayOf dims e).text = e.text ++ String.join (dims.map bracketPair) := by
    intro dims
    rw [text, textBefore_arrayOf, textBefore_of_isArray_eq_false he, String.empty_append]
  have harray : ∀ k (hk : k < dims.length), (arrayOf dims e).at? (.throughArrays k)
      = some (.array dims[k] (arrayOf (dims.drop (k + 1)) e)) := by
    intro k hk
    rw [at?_arrayOf e (Nat.le_of_lt hk), List.drop_eq_getElem_cons hk]
    rfl
  refine ⟨fun t => ⟨?_, fun h => eq_arrayOf h.1 h.2⟩, htext dims, fun k hk => ?_⟩
  · rintro rfl
    refine ⟨?_, fun k hk => ⟨_, harray k hk⟩⟩
    rw [at?_arrayOf e (Nat.le_refl _), List.drop_length]
    rfl
  · refine ⟨.throughArrays k, TypePath.parse_brackets k, ?_, fun a => ?_⟩
    · rw [annotationsAt?, harray k hk]
      rfl
    · rw [annotateAt?_arrayOf e a hk, Option.map_some, htext]

/-- Two arrays around a class, all three with annotations, and one more annotation on the
inner array. -/
theorem text_arrayOf_two :
    (JavaType.declared ["@C"] "String" [] none).isArray = false
    ∧ (arrayOf [["@A"], ["@B"]] (.declared ["@C"] "String" [] none)).text
        = "@C String @A [] @B []"
    ∧ ∃ path, TypePath.parse "[" = .ok path
        ∧ (arrayOf [["@A"], ["@B"]] (.declared ["@C"] "String" [] none)).annotationsAt? path
            = some ["@B"]
        ∧ ((arrayOf [["@A"], ["@B"]] (.declared ["@C"] "String" [] none)).annotateAt? path
            "@D").map text = some "@C String @A [] @B @D []" := by
  obtain ⟨-, htext, hpaths⟩ :=
    text_arrayOf (e := .declared ["@C"] "String" [] none) [["@A"], ["@B"]] rfl
  obtain ⟨path, hpath, hannotations, hwritten⟩ := hpaths 1 (by decide)
  exact ⟨rfl, htext, path, hpath, hannotations, hwritten "@D"⟩

end JavaType

end AnnotationPlan
