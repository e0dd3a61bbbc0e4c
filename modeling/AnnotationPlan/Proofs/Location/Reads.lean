import AnnotationPlan.Proofs.Location.Grammar
import Mathlib.Data.List.TakeWhile

/-!
# Scanners read back what was written

The written form of a location is put together from characters, runs of characters and
numbers, and its scanner from the scanners of these. A scanner **reads** a text as a value
if it takes exactly the text from the front of whatever stands there, and answers the value
(`Scan.Reads`).

What comes behind the text matters: a run and a number take all the characters of their
class, so the next character must not be one of them (`Scan.Stops`). Every statement here has
what may follow as a parameter, and in a sequence the text of the second part has to be
something that may follow the first part (`Scan.Reads.bind`).
-/

namespace AnnotationPlan.Location

variable {α β : Type} {p q : Char → Bool} {follows follows' : List Char → Prop}
  {cs ds : List Char} {a : α} {b : β} {s : Scan α}

namespace Scan

/-! ## What comes next -/

/-- **Characters do not begin with one of a class.** -/
def Stops (p : Char → Bool) (rest : List Char) : Prop := ∀ c ∈ rest.head?, p c = false

theorem Stops.nil (p : Char → Bool) : Stops p [] := fun _ hc => by cases hc

theorem Stops.cons {c : Char} (h : p c = false) (rest : List Char) : Stops p (c :: rest) := by
  intro d hd
  obtain rfl := Option.some.inj hd
  exact h

/-- Whether characters begin with one of a class depends on the first one only. -/
theorem Stops.append (h : Stops p cs) (hne : cs ≠ []) (rest : List Char) :
    Stops p (cs ++ rest) := by
  cases cs with
  | nil => exact absurd rfl hne
  | cons c cs => exact .cons (h c rfl) (cs ++ rest)

theorem Stops.mono {rest : List Char} (h : Stops q rest) (hpq : ∀ c, q c = false → p c = false) :
    Stops p rest := fun c hc => hpq c (h c hc)

/-- What begins outside a class has nothing of the class at its front. -/
theorem Stops.takeWhile_eq_nil {rest : List Char} (h : Stops p rest) :
    rest.takeWhile p = [] ∧ rest.dropWhile p = rest := by
  cases rest with
  | nil => exact ⟨rfl, rfl⟩
  | cons c rest =>
    have hc : ¬ p c = true := by rw [h c rfl]; exact Bool.false_ne_true
    exact ⟨List.takeWhile_cons_of_neg hc, List.dropWhile_cons_of_neg hc⟩

/-- **A run ends where its class does.** -/
theorem Stops.takeWhile_append {rest : List Char} (h : Stops p rest) (hcs : ∀ c ∈ cs, p c = true) :
    (cs ++ rest).takeWhile p = cs ∧ (cs ++ rest).dropWhile p = rest := by
  obtain ⟨htake, hdrop⟩ := h.takeWhile_eq_nil
  rw [List.takeWhile_append_of_pos hcs, List.dropWhile_append_of_pos hcs, htake, hdrop]
  exact ⟨List.append_nil cs, rfl⟩

/-! ## Reading back -/

/-- **A scanner reads a text as a value**, if what comes next may follow. -/
def Reads (s : Scan α) (cs : List Char) (a : α) (follows : List Char → Prop) : Prop :=
  ∀ rest, follows rest → s (cs ++ rest) = .ok (a, rest)

/-- Whatever comes next. -/
def Anything (_ : List Char) : Prop := True

namespace Reads

/-- Less may follow. -/
theorem mono (h : Reads s cs a follows) (hfollows : ∀ rest, follows' rest → follows rest) :
    Reads s cs a follows' :=
  fun rest hrest => h rest (hfollows rest hrest)

/-- **One scanner after another** reads one text after another. -/
theorem bind {f : α → Scan β} (hs : Reads s cs a follows) (hf : Reads (f a) ds b follows')
    (hfollows : ∀ rest, follows' rest → follows (ds ++ rest)) :
    Reads (s >>= f) (cs ++ ds) b follows' := by
  intro rest hrest
  show (s (cs ++ ds ++ rest) >>= fun r => f r.1 r.2) = _
  rw [List.append_assoc, hs (ds ++ rest) (hfollows rest hrest)]
  exact hf rest hrest

/-- What is read may be put into a larger value. -/
theorem map (hs : Reads s cs a follows) (f : α → β) :
    Reads (s >>= fun a => Pure.pure (f a)) cs (f a) follows := by
  intro rest hrest
  show (s (cs ++ rest) >>= fun r => (Pure.pure (f r.1) : Scan β) r.2) = _
  rw [hs rest hrest]
  rfl

/-- A character is read. -/
theorem char (c : Char) : Reads (Scan.char c) [c] () Anything := by
  intro rest _
  rw [List.singleton_append, Scan.char]
  exact if_pos rfl

/-- A run of characters is read. -/
theorem run (hne : cs ≠ []) (hcs : ∀ c ∈ cs, p c = true) : Reads (Scan.run p) cs cs (Stops p) := by
  intro rest hrest
  obtain ⟨htake, hdrop⟩ := hrest.takeWhile_append hcs
  rw [Scan.run, htake, hdrop]
  exact if_neg hne

/-- What may be skipped is skipped. -/
theorem skip (hcs : ∀ c ∈ cs, p c = true) : Reads (Scan.skip p) cs () (Stops p) := by
  intro rest hrest
  rw [Scan.skip, (hrest.takeWhile_append hcs).2]

/-- The first of two alternatives is read. -/
theorem orElse_left (hs : Reads s cs a follows) (t : Scan α) :
    Reads (Scan.orElse s t) cs a follows := by
  intro rest hrest
  rw [orElse, hs rest hrest]

/-- The second of two alternatives is read if the first one does not begin there. -/
theorem orElse_right {t : Scan α} (ht : Reads t cs a follows)
    (hs : ∀ rest, ∃ e, s (cs ++ rest) = .error e) : Reads (Scan.orElse s t) cs a follows := by
  intro rest hrest
  obtain ⟨e, he⟩ := hs rest
  rw [orElse, he]
  exact ht rest hrest

/-- A thing that is there is read. -/
theorem optional_some (hs : Reads s cs a follows) :
    Reads (Scan.optional s) cs (some a) follows := by
  intro rest hrest
  rw [Scan.optional, hs rest hrest]

/-- A thing that is not there is left out. -/
theorem optional_none (hs : ∀ rest, follows rest → ∃ e, s rest = .error e) :
    Reads (Scan.optional s) [] none follows := by
  intro rest hrest
  obtain ⟨e, he⟩ := hs rest hrest
  rw [Scan.optional, List.nil_append, he]

/-- **Things in a row** are read until the end of the text, if each of them may be followed by
any row. -/
theorem manyUpTo {writes : List Char → β → Prop} {t : Scan β} (hend : ∃ e, t [] = .error e)
    (hreads : ∀ {cs x}, writes cs x → Reads t cs x follows)
    (hne : ∀ {cs x}, writes cs x → cs ≠ [])
    (hfollows : ∀ {cs xs}, Row writes cs xs → follows cs) {xs : List β} (h : Row writes cs xs) :
    ∀ n, cs.length ≤ n → Scan.manyUpTo t n cs = (xs, []) := by
  induction h with
  | nil =>
    intro n _
    obtain ⟨e, he⟩ := hend
    cases n with
    | zero => rfl
    | succ n => rw [Scan.manyUpTo, he]
  | @cons cs ds x xs hx hmore ih =>
    intro n hn
    rw [List.length_append] at hn
    have hpos : 0 < cs.length := List.length_pos_iff.mpr (hne hx)
    cases n with
    | zero => omega
    | succ n =>
      rw [Scan.manyUpTo, hreads hx _ (hfollows hmore)]
      dsimp only
      rw [ih n (by omega)]

/-- Things in a row are read until the end of the text, and put together. -/
theorem many {writes : List Char → β → Prop} {t : Scan β} (hend : ∃ e, t [] = .error e)
    (hreads : ∀ {cs x}, writes cs x → Reads t cs x follows)
    (hne : ∀ {cs x}, writes cs x → cs ≠ [])
    (hfollows : ∀ {cs xs}, Row writes cs xs → follows cs) {xs : List β} (h : Row writes cs xs)
    (f : List β → α) :
    (Scan.many t >>= fun xs => Pure.pure (f xs)) cs = .ok (f xs, []) := by
  show (Scan.many t cs >>= fun r => (Pure.pure (f r.1) : Scan α) r.2) = _
  rw [Scan.many, manyUpTo hend hreads hne hfollows h _ le_rfl]
  rfl

/-- A scanner that reads the text before the end of the text. -/
theorem before_end {f : α → Scan β} (hs : Reads s cs a follows) (hfollows : follows ds)
    (hf : f a ds = .ok (b, [])) : (s >>= f) (cs ++ ds) = .ok (b, []) := by
  show (s (cs ++ ds) >>= fun r => f r.1 r.2) = _
  rw [hs ds hfollows]
  exact hf

/-- At the end of the text nothing comes next. -/
theorem at_end (hs : Reads s cs a follows) (hnil : follows []) : s cs = .ok (a, []) := by
  have hall := hs [] hnil
  rwa [List.append_nil] at hall

end Reads

/-- Nothing is read in a sequence whose first part does not begin. -/
theorem bind_error {f : α → Scan β} (h : ∃ e, s cs = .error e) : ∃ e, (s >>= f) cs = .error e := by
  obtain ⟨e, he⟩ := h
  refine ⟨e, ?_⟩
  show (s cs >>= fun r => f r.1 r.2) = _
  rw [he]
  rfl

/-- A character is not read where there is another one, or none. -/
theorem char_error {c : Char} (h : Stops (· == c) cs) : ∃ e, Scan.char c cs = .error e := by
  cases cs with
  | nil => exact ⟨_, rfl⟩
  | cons d cs => exact ⟨_, if_neg (by simpa using h d rfl)⟩

/-- **A text that is read to its end** is parsed. -/
theorem parse_of_ok (h : s cs = .ok (a, [])) (kind : Kind) (input : String) :
    Scan.parse kind s input cs = .ok a := by
  rw [Scan.parse, h]

/-! ## Numbers -/

/-- The digits of a number denote the number. -/
theorem digitsValue_repr (n : Nat) : digitsValue n.repr.toList = n := by
  rw [Nat.toList_repr]
  exact Nat.ofDigitChars_toDigits (by decide) (by decide)

/-- A number is written in digits, of which there is one at least. -/
theorem isDigit_of_mem_repr {n : Nat} : ∀ c ∈ n.repr.toList, c.isDigit = true := by
  rw [Nat.toList_repr]
  exact fun c hc => Nat.isDigit_of_mem_toDigits (by decide) (by decide) hc

theorem repr_ne_nil (n : Nat) : n.repr.toList ≠ [] := by
  rw [Nat.toList_repr]
  exact Nat.toDigits_ne_nil

end Scan

/-- **The text of a number** is one way to write it. -/
theorem Digits.repr (n : Nat) : Digits n.repr.toList n :=
  ⟨Scan.repr_ne_nil n, Scan.isDigit_of_mem_repr, Scan.digitsValue_repr n⟩

/-- What is no digit does not begin a number. -/
theorem Digits.stops {n : Nat} (h : Digits cs n) (hp : ∀ c, c.isDigit = true → p c = false) :
    Scan.Stops p cs :=
  fun c hc => hp c (h.isDigit c (List.mem_of_mem_head? hc))

/-- **The text of an integer** is one way to write it. -/
theorem Decimal.repr (n : Int32) : Decimal n.toInt.repr.toList n := by
  cases hn : n.toInt with
  | ofNat m => exact .plain (.repr m) hn
  | negSucc m =>
    rw [show (Int.negSucc m).repr.toList = '-' :: (m + 1).repr.toList from String.toList_append]
    exact .minus (.repr (m + 1)) hn

theorem Decimal.ne_nil {n : Int32} (h : Decimal cs n) : cs ≠ [] := by
  cases h with
  | plain digits => exact digits.ne_nil
  | minus => exact List.cons_ne_nil _ _

/-- What is neither a digit nor a minus does not begin an integer. -/
theorem Decimal.stops {n : Int32} (h : Decimal cs n) (hp : ∀ c, c.isDigit = true → p c = false)
    (hminus : p '-' = false) : Scan.Stops p cs := by
  cases h with
  | plain digits => exact digits.stops hp
  | minus => exact .cons hminus _

namespace Scan

/-- **A natural number is read** from its digits. -/
theorem Reads.digits {n : UInt32} (h : Digits cs n.toNat) :
    Reads Scan.natural cs n (Stops Char.isDigit) := by
  intro rest hrest
  obtain ⟨htake, hdrop⟩ := hrest.takeWhile_append h.isDigit
  rw [Scan.natural, htake, hdrop, h.value, if_pos ⟨h.ne_nil, n.toNat_lt⟩, UInt32.ofNat_toNat]

/-- An integer without a minus is read as its digits. -/
theorem integer_of_not_minus {rest : List Char} (h : ∀ c ∈ rest.head?, c ≠ '-') :
    Scan.integer rest =
      if rest.takeWhile Char.isDigit ≠ []
          ∧ digitsValue (rest.takeWhile Char.isDigit) < Nat.pow 2 31 then
        .ok (Int32.ofInt (digitsValue (rest.takeWhile Char.isDigit) : Int),
          rest.dropWhile Char.isDigit)
      else .error rest := by
  unfold Scan.integer
  split
  case h_1 => exact absurd rfl (h '-' rfl)
  case h_2 => rfl

/-- A minus is no digit. -/
theorem ne_minus_of_isDigit {c : Char} (h : c.isDigit = true) : (c == '-') = false := by
  rw [beq_eq_false_iff_ne]
  rintro rfl
  cases h

/-- **An integer is read** from its digits and its sign. -/
theorem Reads.decimal {n : Int32} (h : Decimal cs n) :
    Reads Scan.integer cs n (Stops Char.isDigit) := by
  intro rest hrest
  have hlower := n.le_toInt
  have hupper := n.toInt_lt
  cases h with
  | @plain _ m _ digits value =>
    obtain ⟨htake, hdrop⟩ := hrest.takeWhile_append digits.isDigit
    have hstart := (digits.stops (fun c hc => ne_minus_of_isDigit hc)).append digits.ne_nil rest
    have hlt : m < Nat.pow 2 31 := Int.ofNat_lt.mp (value ▸ hupper)
    rw [integer_of_not_minus (fun c hc => by simpa using hstart c hc), htake, hdrop,
      digits.value, if_pos ⟨digits.ne_nil, hlt⟩, ← value, n.ofInt_toInt]
  | @minus ds m _ digits value =>
    obtain ⟨htake, hdrop⟩ := hrest.takeWhile_append digits.isDigit
    have hle : m ≤ Nat.pow 2 31 := by
      show m ≤ 2147483648
      omega
    show Scan.integer ('-' :: (ds ++ rest)) = _
    rw [Scan.integer, htake, hdrop, digits.value, if_neg digits.ne_nil, if_pos hle, ← value,
      n.ofInt_toInt]

end Scan

end AnnotationPlan.Location
