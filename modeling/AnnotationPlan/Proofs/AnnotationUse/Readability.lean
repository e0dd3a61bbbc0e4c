import AnnotationPlan.AnnotationUse.Literal
import AnnotationPlan.Schema.NamePolicy
import Mathlib.Algebra.BigOperators.Group.List.Basic
import Mathlib.Algebra.GroupWithZero.Nat
import Mathlib.Data.List.Forall2

/-!
# Texts that cannot be taken for one another

Two texts of which one could be an annotation and the other as well are compared from the
left. In an annotation every value is followed by a comma, a parenthesis or a brace, so two
values that have none of these in them and are written differently make all of the text
different, whatever else there is in it: such texts are **apart** (`Apart`). Numbers have
none of them in them (`Literal.isPlain_of_mem_ofFloat`).

This works as long as the two annotations set the same fields. If one of them sets more
fields, its text has more equality signs in it; this is the other reason why texts differ.

Both reasons have nothing to do with how names are spelled. So the texts are compared under
all name policies at once (`Compared`): they are the same under all, or apart under all, or
one has fewer signs under all. Each way of putting texts together keeps this.
-/

namespace AnnotationPlan

namespace Literal

/-- Letters, digits, points, dashes and underscores: what numbers are written with. -/
def isPlain (c : Char) : Bool := c.isAlphanum || c == '.' || c == '-' || c == '_'

/-- The characters that end a value. -/
def isClosing (c : Char) : Bool := c == ',' || c == ')' || c == '\x7d'

theorem isPlain_of_isDigit {c : Char} (h : c.isDigit = true) : isPlain c = true := by
  simp [isPlain, Char.isAlphanum, h]

theorem isClosing_eq_false {c : Char} (h : isPlain c = true) : isClosing c = false := by
  refine Bool.eq_false_iff.mpr (fun hc => ?_)
  simp only [isClosing, Bool.or_eq_true, beq_iff_eq] at hc
  rcases hc with (rfl | rfl) | rfl <;> cases h

/-- The decimal digits of a number are plain. -/
theorem isPlain_of_mem_toDigits (n : Nat) : ∀ c ∈ Nat.toDigits 10 n, isPlain c = true :=
  fun _ hc => isPlain_of_isDigit (Nat.isDigit_of_mem_toDigits (by decide) (by decide) hc)

/-- An integer is written plain. -/
theorem isPlain_of_mem_repr (n : Int) : ∀ c ∈ n.repr.toList, isPlain c = true := by
  have hnat : ∀ m : Nat, ∀ c ∈ m.repr.toList, isPlain c = true := fun m => by
    rw [Nat.repr_eq_ofList_toDigits, String.toList_ofList]
    exact isPlain_of_mem_toDigits m
  cases n with
  | ofNat m => exact hnat m
  | negSucc m =>
    show ∀ c ∈ ("-" ++ (m + 1).repr).toList, _
    rw [String.toList_append]
    exact List.forall_mem_append.mpr ⟨List.all_eq_true.mp rfl, hnat (m + 1)⟩

section Layout

variable {ds : List Char} (h : ∀ c ∈ ds, isPlain c = true) (places : Int)
include h

/-- Digits with the point in place are plain. -/
theorem isPlain_of_mem_positional :
    ∀ c ∈ Decimal.Layout.positional ds places, isPlain c = true := by
  have hzeros : ∀ n : Nat, ∀ c ∈ List.replicate n '0', isPlain c = true := fun n c hc => by
    rw [(List.mem_replicate.mp hc).2]
    rfl
  unfold Decimal.Layout.positional
  split
  · rw [List.forall_mem_cons, List.forall_mem_cons]
    exact ⟨rfl, rfl, List.forall_mem_append.mpr ⟨hzeros _, h⟩⟩
  · split
    · refine List.forall_mem_append.mpr ⟨List.forall_mem_append.mpr ⟨h, hzeros _⟩, ?_⟩
      exact List.all_eq_true.mp rfl
    · refine List.forall_mem_append.mpr ⟨fun c hc => h c (List.mem_of_mem_take hc), ?_⟩
      exact List.forall_mem_cons.mpr ⟨rfl, fun c hc => h c (List.mem_of_mem_drop hc)⟩

/-- Digits with a power of ten are plain. -/
theorem isPlain_of_mem_scientific :
    ∀ c ∈ Decimal.Layout.scientific ds places, isPlain c = true := by
  unfold Decimal.Layout.scientific
  refine List.forall_mem_append.mpr ⟨List.forall_mem_append.mpr ⟨?_, ?_⟩, ?_⟩
  · exact fun c hc => h c (List.mem_of_mem_take hc)
  · split
    · exact fun c hc => absurd hc List.not_mem_nil
    · exact List.forall_mem_cons.mpr ⟨rfl, fun c hc => h c (List.mem_of_mem_drop hc)⟩
  · exact List.forall_mem_cons.mpr ⟨rfl, isPlain_of_mem_repr (places - 1)⟩

end Layout

/-- A number is written plain. -/
theorem isPlain_of_mem_real (x : Float) : ∀ c ∈ (real.text x).toList, isPlain c = true := by
  unfold Decimal.Layout.text
  split
  · exact List.all_eq_true.mp rfl
  · split
    · split <;> exact List.all_eq_true.mp rfl
    · dsimp only
      have hsign : ∀ c ∈ (if x.toBits.toNat / Nat.pow 2 63 = 1 then "-" else "").toList,
          isPlain c = true := by
        split <;> exact List.all_eq_true.mp rfl
      split
      · rw [String.toList_append]
        exact List.forall_mem_append.mpr ⟨hsign, List.all_eq_true.mp rfl⟩
      · rw [String.toList_append, String.toList_ofList]
        refine List.forall_mem_append.mpr ⟨hsign, ?_⟩
        split
        · exact isPlain_of_mem_positional (isPlain_of_mem_toDigits _) _
        · exact isPlain_of_mem_scientific (isPlain_of_mem_toDigits _) _

/-- **A floating-point literal is written plain** if its class and its suffix are. -/
theorem isPlain_of_mem_ofFloat {boxed suffix : String}
    (hboxed : boxed.toList.all isPlain = true) (hsuffix : suffix.toList.all isPlain = true)
    (x : Float) : ∀ c ∈ (ofFloat boxed suffix x).toList, isPlain c = true := by
  rw [List.all_eq_true] at hboxed hsuffix
  unfold ofFloat
  split
  · rw [String.toList_append]
    exact List.forall_mem_append.mpr ⟨hboxed, List.all_eq_true.mp rfl⟩
  · split
    · rw [String.toList_append]
      refine List.forall_mem_append.mpr ⟨hboxed, ?_⟩
      split <;> exact List.all_eq_true.mp rfl
    · rw [String.toList_append]
      exact List.forall_mem_append.mpr ⟨isPlain_of_mem_real x, hsuffix⟩

end Literal

open Literal (isClosing isPlain)

/-- **What may follow a value**: nothing, or a character that ends it. -/
def Ends (cs : List Char) : Prop := ∀ c ∈ cs.head?, isClosing c = true

theorem ends_nil : Ends [] := fun _ hc => by cases hc

theorem ends_cons {c : Char} (h : isClosing c = true) (cs : List Char) : Ends (c :: cs) := by
  rintro _ ⟨⟩
  exact h

theorem Ends.append {cs more : List Char} (h : Ends cs) (hmore : Ends more) :
    Ends (cs ++ more) := by
  cases cs with
  | nil => exact hmore
  | cons c rest => exact ends_cons (h c rfl) _

/-- **Two texts are apart**: whatever may follow them, the whole differs. -/
def Apart (s t : List Char) : Prop := ∀ x y, Ends x → Ends y → s ++ x ≠ t ++ y

namespace Apart

variable {s t : List Char}

theorem ne (h : Apart s t) : s ≠ t := fun heq => by
  have hnot := h [] [] ends_nil ends_nil
  rw [List.append_nil, List.append_nil] at hnot
  exact hnot heq

/-- Texts are still apart behind a common beginning. -/
theorem prepend (h : Apart s t) (cs : List Char) : Apart (cs ++ s) (cs ++ t) := by
  intro x y hx hy heq
  rw [List.append_assoc, List.append_assoc] at heq
  exact h x y hx hy (List.append_cancel_left heq)

/-- Texts are still apart with something behind them. -/
theorem append (h : Apart s t) {s' t' : List Char} (hs : Ends s') (ht : Ends t') :
    Apart (s ++ s') (t ++ t') := by
  intro x y hx hy heq
  rw [List.append_assoc, List.append_assoc] at heq
  exact h (s' ++ x) (t' ++ y) (hs.append hx) (ht.append hy) heq

/-- **Plain texts are apart** if they differ: what ends the one ends the other. -/
theorem of_isPlain : ∀ {s t : List Char}, (∀ c ∈ s, isPlain c = true) →
    (∀ c ∈ t, isPlain c = true) → s ≠ t → Apart s t
  | [], [], _, _, hne => absurd rfl hne
  | [], d :: t, _, ht, _ => fun x y hx _ heq => by
    have hd : isClosing d = true := hx d (by rw [List.nil_append] at heq; rw [heq]; rfl)
    rw [Literal.isClosing_eq_false (ht d List.mem_cons_self)] at hd
    cases hd
  | c :: s, [], hs, _, _ => fun x y _ hy heq => by
    have hc : isClosing c = true := hy c (by rw [List.nil_append] at heq; rw [← heq]; rfl)
    rw [Literal.isClosing_eq_false (hs c List.mem_cons_self)] at hc
    cases hc
  | c :: s, d :: t, hs, ht, hne => fun x y hx hy heq => by
    obtain ⟨rfl, hrest⟩ := List.cons.inj heq
    have hst : s ≠ t := fun h => hne (congrArg (c :: ·) h)
    exact of_isPlain (fun c hc => hs c (List.mem_cons_of_mem _ hc))
      (fun c hc => ht c (List.mem_cons_of_mem _ hc)) hst x y hx hy hrest

end Apart

/-- How many equality signs there are in a text. -/
def signs (cs : List Char) : Nat := cs.count '='

@[simp] theorem signs_append (cs more : List Char) : signs (cs ++ more) = signs cs + signs more :=
  List.count_append

/-- The signs of texts with a mark between them that has none. -/
theorem signs_intercalate {mark : List Char} (h : signs mark = 0) :
    ∀ xs : List (List Char), signs (mark.intercalate xs) = (xs.map signs).sum
  | [] => rfl
  | [x] => by rw [List.intercalate_singleton, List.map_singleton, List.sum_singleton]
  | x :: y :: rest => by
    rw [List.intercalate_cons_cons, signs_append, signs_append, h, Nat.add_zero,
      signs_intercalate h (y :: rest)]
    simp only [List.map_cons, List.sum_cons]

theorem signs_of_isPlain {cs : List Char} (h : ∀ c ∈ cs, isPlain c = true) : signs cs = 0 := by
  refine List.count_eq_zero.mpr (fun hmem => ?_)
  cases h '=' hmem

/-- **How a text is spelled** under each name policy. -/
abbrev Spelling : Type := NamePolicy → List Char

/-- **Two texts compared under all policies at once.** -/
inductive Compared (s t : Spelling) : Prop where
  /-- They are the same. -/
  | equal (h : ∀ p, s p = t p)
  /-- They are apart. -/
  | apart (h : ∀ p, Apart (s p) (t p)) (hle : ∀ p, signs (s p) ≤ signs (t p))
  /-- One has fewer signs. -/
  | fewer (h : ∀ p, signs (s p) < signs (t p))

namespace Compared

variable {s t s' t' : Spelling}

theorem signs_le (h : Compared s t) (p : NamePolicy) : signs (s p) ≤ signs (t p) := by
  cases h with
  | equal h => exact Nat.le_of_eq (congrArg signs (h p))
  | apart _ hle => exact hle p
  | fewer h => exact Nat.le_of_lt (h p)

/-- **Texts that are the same under one policy** are the same under all. -/
theorem eq_of_eq (h : Compared s t) {p : NamePolicy} (hp : s p = t p) (q : NamePolicy) :
    s q = t q := by
  cases h with
  | equal h => exact h q
  | apart h => exact absurd hp (h p).ne
  | fewer h => exact absurd (congrArg signs hp) (Nat.ne_of_lt (h p))

/-- Texts compare as they do behind a common beginning. -/
theorem prepend (h : Compared s t) (cs : Spelling) :
    Compared (fun p => cs p ++ s p) (fun p => cs p ++ t p) := by
  cases h with
  | equal h => exact .equal (fun p => congrArg (cs p ++ ·) (h p))
  | apart h hle =>
    refine .apart (fun p => (h p).prepend (cs p)) (fun p => ?_)
    rw [signs_append, signs_append]
    exact Nat.add_le_add_left (hle p) _
  | fewer h =>
    refine .fewer (fun p => ?_)
    rw [signs_append, signs_append]
    exact Nat.add_lt_add_left (h p) _

/-- **One text after another**: the first difference decides, unless one of the texts has
fewer signs. -/
theorem append (h : Compared s t) (h' : Compared s' t') (hs : ∀ p, Ends (s' p))
    (ht : ∀ p, Ends (t' p)) : Compared (fun p => s p ++ s' p) (fun p => t p ++ t' p) := by
  cases h with
  | equal h =>
    obtain rfl : s = t := funext h
    exact h'.prepend s
  | fewer h =>
    refine .fewer (fun p => ?_)
    rw [signs_append, signs_append]
    exact Nat.add_lt_add_of_lt_of_le (h p) (h'.signs_le p)
  | apart h hle =>
    have happart : ∀ p, Apart (s p ++ s' p) (t p ++ t' p) := fun p => (h p).append (hs p) (ht p)
    refine .apart happart (fun p => ?_)
    rw [signs_append, signs_append]
    exact Nat.add_le_add (hle p) (h'.signs_le p)

/-- A text that is the same for both behind the others. -/
theorem append_closing (h : Compared s t) {c : Char} (hc : isClosing c = true) (cs : List Char) :
    Compared (fun p => s p ++ c :: cs) (fun p => t p ++ c :: cs) :=
  h.append (.equal (fun _ => rfl)) (fun _ => ends_cons hc cs) (fun _ => ends_cons hc cs)

/-- **Texts one after another with a mark between them** that ends a value. -/
theorem intercalate {c : Char} (hc : isClosing c = true) (mark : List Char) :
    ∀ {xs ys : List Spelling}, List.Forall₂ Compared xs ys →
      Compared (fun p => (c :: mark).intercalate (xs.map (· p)))
        (fun p => (c :: mark).intercalate (ys.map (· p)))
  | _, _, .nil => .equal (fun _ => rfl)
  | _, _, .cons h .nil => by
    simp only [List.map_cons, List.map_nil, List.intercalate_singleton]
    exact h
  | _, _, .cons h (.cons h' hrest) => by
    simp only [List.map_cons, List.intercalate_cons_cons, List.append_assoc]
    have hmore := (intercalate hc mark (.cons h' hrest)).prepend (fun _ => c :: mark)
    exact h.append hmore (fun _ => ends_cons hc _) (fun _ => ends_cons hc _)

/-- Plain texts that do not depend on the policy. -/
theorem of_isPlain {cs ds : List Char} (hcs : ∀ c ∈ cs, isPlain c = true)
    (hds : ∀ c ∈ ds, isPlain c = true) : Compared (fun _ => cs) (fun _ => ds) := by
  by_cases heq : cs = ds
  · exact .equal (fun _ => heq)
  · refine .apart (fun _ => .of_isPlain hcs hds heq) (fun _ => ?_)
    rw [signs_of_isPlain hcs]
    exact Nat.zero_le _

end Compared

end AnnotationPlan
