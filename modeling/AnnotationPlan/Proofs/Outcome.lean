import AnnotationPlan.Error
import Mathlib.Data.List.Forall2

/-!
# Computations that only the scene can stop

Almost every operation on a draft may fail, but the failures are of two sorts. Some
report a scene that makes no sense, and those are part of what a run does; the others
report that the insertions built so far are not as they must be, and those should
never be seen. `Yields P r` says of a result `r` that it is not of the second sort,
and that it has the property `P` if it is not of the first.

It composes along the steps of a computation (`Yields.bind`), so an operation needs
to be looked at only once: what it makes out of a good draft, and that it finds
nothing there to complain about.

What a computation does can also be said without a look at what the draft is like:
`Makes P r` leaves the broken invariants out, and says that the scene is not at fault. Of a
computation that yields something and makes something there is a result, with both
properties (`Makes.exists_ok`).

Two computations on drafts that correspond to one another are compared in the same way.
`Carries f r r'` says that `r'` ends as `r` does, with the result that `f` makes of that
of `r`. Broken invariants are again left out: their texts name insertions by number, and
the numbers differ. Where there are none, one computation is the image of the other
(`Carries.eq_map`).

Where neither of two computations is the image of the other, they may still agree:
`Agree R r r'` says that both end with the same error, or with results related by `R`.
-/

namespace AnnotationPlan

variable {α β γ δ : Type}

/-- Two computations in a row succeed if both do. -/
theorem bind_eq_ok {ε : Type} {r : Except ε α} {f : α → Except ε β} {b : β} :
    (r >>= f) = .ok b ↔ ∃ a, r = .ok a ∧ f a = .ok b := by
  cases r <;> simp [Bind.bind, Except.bind]

/-- A mapped computation succeeds if the computation does. -/
theorem map_eq_ok {ε : Type} {r : Except ε α} {f : α → β} {b : β} :
    r.map f = .ok b ↔ ∃ a, r = .ok a ∧ f a = b := by
  cases r <;> simp [Except.map]

/-- A computation for every member of a list succeeds if each of them does. -/
theorem exists_mapM_ok {f : β → Except PlanError α} :
    ∀ {xs : List β}, (∀ x ∈ xs, ∃ a, f x = .ok a) → ∃ as, xs.mapM f = .ok as
  | [], _ => ⟨[], rfl⟩
  | x :: rest, h => by
    obtain ⟨a, ha⟩ := h x List.mem_cons_self
    obtain ⟨as, has⟩ := exists_mapM_ok (fun y hy => h y (List.mem_cons_of_mem x hy))
    refine ⟨a :: as, ?_⟩
    rw [List.mapM_cons, ha]
    show (rest.mapM f >>= fun as => pure (a :: as)) = _
    rw [has]
    rfl

/-- What was computed for the members of a list was computed for one of them. -/
theorem exists_of_mem_mapM {ε : Type} {f : β → Except ε α} :
    ∀ {xs : List β} {as : List α}, xs.mapM f = .ok as → ∀ a ∈ as, ∃ x ∈ xs, f x = .ok a
  | [], _, h, a, ha => by
    cases h
    exact absurd ha List.not_mem_nil
  | x :: rest, as, h, a, ha => by
    rw [List.mapM_cons] at h
    obtain ⟨b, hb, h⟩ := bind_eq_ok.mp h
    obtain ⟨bs, hbs, h⟩ := bind_eq_ok.mp h
    cases h
    rcases List.mem_cons.mp ha with rfl | ha
    · exact ⟨x, List.mem_cons_self, hb⟩
    · obtain ⟨y, hy, hfy⟩ := exists_of_mem_mapM hbs a ha
      exact ⟨y, List.mem_cons_of_mem x hy, hfy⟩

/-- Where a computation has been done for every member of a list, each of them has let it
pass. -/
theorem exists_ok_of_foldlM {f : α → β → Except PlanError α} :
    ∀ {xs : List β} {a b : α}, xs.foldlM f a = .ok b → ∀ x ∈ xs, ∃ c c', f c x = .ok c'
  | [], _, _, _, _, hx => absurd hx List.not_mem_nil
  | y :: rest, a, b, h, x, hx => by
    rw [List.foldlM_cons] at h
    obtain ⟨c, hc, hrest⟩ := bind_eq_ok.mp h
    rcases List.mem_cons.mp hx with rfl | hx
    · exact ⟨a, c, hc⟩
    · exact exists_ok_of_foldlM hrest x hx

/-- Where a computation has been done for every member of a list, and another one can be done
for whatever corresponds to it, it can be done for every member of a corresponding list. -/
theorem exists_foldlM_ok {R : α → β → Prop} {Q : γ → δ → Prop} {f : α → γ → Except PlanError α}
    {g : β → δ → Except PlanError β}
    (hf : ∀ {a b x y a'}, R a b → Q x y → f a x = .ok a' → ∃ b', g b y = .ok b' ∧ R a' b') :
    ∀ {xs : List γ} {ys : List δ} {a a' : α} {b : β}, List.Forall₂ Q xs ys → R a b →
      xs.foldlM f a = .ok a' → ∃ b', ys.foldlM g b = .ok b' ∧ R a' b'
  | _, _, _, _, b, .nil, hab, h => by
    cases h
    exact ⟨b, rfl, hab⟩
  | _, _, _, _, _, .cons hxy hrest, hab, h => by
    rw [List.foldlM_cons] at h
    obtain ⟨a₁, ha₁, h⟩ := bind_eq_ok.mp h
    obtain ⟨b₁, hb₁, hab₁⟩ := hf hab hxy ha₁
    obtain ⟨b', hb', hab'⟩ := exists_foldlM_ok hf hrest hab₁ h
    exact ⟨b', by rw [List.foldlM_cons, hb₁]; exact hb', hab'⟩

/-- Where a computation has been done for every member of a list, what each of them keeps is
kept. -/
theorem keeps_of_foldlM {I : α → Prop} {f : α → β → Except PlanError α} :
    ∀ {xs : List β} {a b : α}, (∀ x ∈ xs, ∀ c c', I c → f c x = .ok c' → I c') → I a →
      xs.foldlM f a = .ok b → I b
  | [], _, _, _, ha, h => by
    cases h
    exact ha
  | x :: rest, a, b, hf, ha, h => by
    obtain ⟨hx, hrest⟩ := List.forall_mem_cons.mp hf
    rw [List.foldlM_cons] at h
    obtain ⟨c, hc, h⟩ := bind_eq_ok.mp h
    exact keeps_of_foldlM hrest (hx a c ha hc) h

namespace PlanError

/-- **The code tells the two sorts of errors apart**: an error is the scene's fault
exactly if it is no broken invariant, with or without a place. -/
theorem code_eq_invalidScene_iff (e : PlanError) :
    e.code = .invalidScene ↔ ∀ criteria reason, e.root ≠ .invariant criteria reason := by
  induction e with
  | located criteria cause ih => simpa [code, root] using ih
  | _ => simp [code, root]

/-- Adding the place does not change the code. -/
@[simp] theorem code_locate (criteria : String) (e : PlanError) :
    (e.locate criteria).code = e.code := by
  cases e <;> rfl

end PlanError

/-- **What a computation yields**: a result with a property, unless the scene is at
fault. -/
def Yields (P : α → Prop) : Except PlanError α → Prop
  | .ok a => P a
  | .error e => e.code = .invalidScene

namespace Yields

variable {P Q : α → Prop}

/-- A result that is there has the property. -/
theorem of_ok {r : Except PlanError α} (h : Yields P r) {a : α} (hr : r = .ok a) : P a := by
  subst hr
  exact h

/-- An error that is there is the scene's fault. -/
theorem of_error {r : Except PlanError α} (h : Yields P r) {e : PlanError}
    (hr : r = .error e) : e.code = .invalidScene := by
  subst hr
  exact h

theorem pure {a : α} (h : P a) : Yields P (Pure.pure a) := h

/-- What is yielded may be weakened. -/
theorem mono {r : Except PlanError α} (h : Yields P r) (hPQ : ∀ a, P a → Q a) :
    Yields Q r := by
  cases r with
  | ok a => exact hPQ a h
  | error e => exact h

/-- What is yielded is the result of the computation. -/
theorem self {r : Except PlanError α} (h : Yields P r) : Yields (fun a => r = .ok a ∧ P a) r := by
  cases r with
  | ok a => exact ⟨rfl, h⟩
  | error e => exact h

/-- **One computation after another.** -/
theorem bind {R : β → Prop} {r : Except PlanError α} {f : α → Except PlanError β}
    (hr : Yields P r) (hf : ∀ a, P a → Yields R (f a)) : Yields R (r >>= f) := by
  cases r with
  | ok a => exact hf a hr
  | error e => exact hr

/-- Adding the place to errors. -/
theorem mapError_locate {r : Except PlanError α} (h : Yields P r) (criteria : String) :
    Yields P (r.mapError (PlanError.locate criteria)) := by
  cases r with
  | ok a => exact h
  | error e => exact (PlanError.code_locate criteria e).trans h

/-- **A computation for every member of a list**: what each of them keeps, all of
them keep. -/
theorem foldlM {I : α → Prop} {f : α → β → Except PlanError α} :
    ∀ (xs : List β) (_ : ∀ a, I a → ∀ x ∈ xs, Yields I (f a x)) {a : α}, I a →
      Yields I (xs.foldlM f a)
  | [], _, _, ha => ha
  | x :: rest, hf, a, ha => by
    rw [List.foldlM_cons]
    refine (hf a ha x List.mem_cons_self).bind (fun b hb => ?_)
    exact foldlM rest (fun c hc y hy => hf c hc y (List.mem_cons_of_mem x hy)) hb

end Yields

/-- **What a computation makes**: a result with a property, unless an invariant is
broken. -/
def Makes (P : α → Prop) : Except PlanError α → Prop
  | .ok a => P a
  | .error e => e.code ≠ .invalidScene

namespace Makes

variable {P Q : α → Prop} {r : Except PlanError α}

/-- A result that is there has the property. -/
theorem of_ok (h : Makes P r) {a : α} (hr : r = .ok a) : P a := by
  subst hr
  exact h

theorem pure {a : α} (h : P a) : Makes P (Pure.pure a) := h

/-- A broken invariant makes nothing. -/
theorem of_invariant (criteria reason : String) :
    Makes P (.error (.invariant criteria reason)) :=
  fun hcode => by cases hcode

/-- What is made may be weakened. -/
theorem mono (h : Makes P r) (hPQ : ∀ a, P a → Q a) : Makes Q r := by
  cases r with
  | ok a => exact hPQ a h
  | error e => exact h

/-- What is made is the result of the computation. -/
theorem self (h : Makes (fun _ => True) r) : Makes (fun a => r = .ok a) r := by
  cases r with
  | ok a => exact rfl
  | error e => exact h

/-- **One computation after another.** -/
theorem bind {R : β → Prop} {f : α → Except PlanError β} (hr : Makes P r)
    (hf : ∀ a, P a → Makes R (f a)) : Makes R (r >>= f) := by
  cases r with
  | ok a => exact hf a hr
  | error e => exact hr

/-- **A computation for every member of a list**: what each of them keeps, all of them
keep. -/
theorem foldlM {I : α → Prop} {f : α → β → Except PlanError α} :
    ∀ (xs : List β) (_ : ∀ a, I a → ∀ x ∈ xs, Makes I (f a x)) {a : α}, I a →
      Makes I (xs.foldlM f a)
  | [], _, _, ha => ha
  | x :: rest, hf, a, ha => by
    rw [List.foldlM_cons]
    refine (hf a ha x List.mem_cons_self).bind (fun b hb => ?_)
    exact foldlM rest (fun c hc y hy => hf c hc y (List.mem_cons_of_mem x hy)) hb

/-- **There is a result** where neither the scene nor the draft is at fault. -/
theorem exists_ok (h : Makes P r) (h' : Yields Q r) : ∃ a, r = .ok a ∧ P a ∧ Q a := by
  cases r with
  | ok a => exact ⟨a, rfl, h, h'⟩
  | error e => exact absurd h' h

end Makes

/-- **What a computation carries over to another one**: its result, through a map, and
its error if the scene is at fault. -/
def Carries (f : α → β) : Except PlanError α → Except PlanError β → Prop
  | .ok a, r' => r' = .ok (f a)
  | .error e, r' => e.code = .invalidScene → r' = .error e

namespace Carries

variable {f : α → β}

theorem pure {a : α} {b : β} (h : b = f a) : Carries f (Pure.pure a) (Pure.pure b) :=
  congrArg Except.ok h

/-- A broken invariant carries nothing over. -/
theorem of_invariant (criteria reason : String) (r' : Except PlanError β) :
    Carries f (.error (.invariant criteria reason)) r' :=
  fun hcode => by cases hcode

/-- One computation after another that has come to an end. -/
theorem bind_of_ok {g : γ → δ} {r : Except PlanError α} {r' : Except PlanError β}
    {k : α → Except PlanError γ} {k' : β → Except PlanError δ} (hr : Carries f r r')
    (hk : ∀ a, r = .ok a → Carries g (k a) (k' (f a))) : Carries g (r >>= k) (r' >>= k') := by
  cases r with
  | ok a =>
    obtain rfl : r' = .ok (f a) := hr
    exact hk a rfl
  | error e =>
    intro hcode
    rw [hr hcode]
    rfl

/-- **One computation after another.** -/
theorem bind {g : γ → δ} {r : Except PlanError α} {r' : Except PlanError β}
    {k : α → Except PlanError γ} {k' : β → Except PlanError δ} (hr : Carries f r r')
    (hk : ∀ a, Carries g (k a) (k' (f a))) : Carries g (r >>= k) (r' >>= k') :=
  hr.bind_of_ok (fun a _ => hk a)

/-- A computation after one that both have in common. -/
theorem bind_self {g : γ → δ} (r : Except PlanError α) {k : α → Except PlanError γ}
    {k' : α → Except PlanError δ} (hk : ∀ a, Carries g (k a) (k' a)) :
    Carries g (r >>= k) (r >>= k') := by
  cases r with
  | ok a => exact hk a
  | error e => exact fun _ => rfl

/-- **A computation for every member of a list.** -/
theorem foldlM {k : α → γ → Except PlanError α} {k' : β → δ → Except PlanError β} {g : γ → δ}
    (hk : ∀ a x, Carries f (k a x) (k' (f a) (g x))) :
    ∀ (xs : List γ) (a : α), Carries f (xs.foldlM k a) ((xs.map g).foldlM k' (f a))
  | [], a => pure rfl
  | x :: rest, a => by
    rw [List.map_cons, List.foldlM_cons, List.foldlM_cons]
    exact (hk a x).bind (fun b => foldlM hk rest b)

/-- A computation for every member of a list that both have in common. -/
theorem foldlM_self {k : α → γ → Except PlanError α} {k' : β → γ → Except PlanError β}
    (hk : ∀ a x, Carries f (k a x) (k' (f a) x)) (xs : List γ) (a : α) :
    Carries f (xs.foldlM k a) (xs.foldlM k' (f a)) := by
  have hall : Carries f (xs.foldlM k a) ((xs.map id).foldlM k' (f a)) := foldlM hk xs a
  rwa [List.map_id] at hall

/-- **Where only the scene is at fault** the one computation is the image of the other. -/
theorem eq_map {P : α → Prop} {r : Except PlanError α} {r' : Except PlanError β}
    (h : Carries f r r') (hr : Yields P r) : r' = r.map f := by
  cases r with
  | ok a => exact h
  | error e => exact h hr

end Carries

/-- **Two computations agree**: they end with the same error, or with related results. -/
def Agree (R : α → β → Prop) : Except PlanError α → Except PlanError β → Prop
  | .ok a, .ok b => R a b
  | .error e, .error e' => e = e'
  | _, _ => False

namespace Agree

variable {R : α → β → Prop} {S : γ → δ → Prop} {r : Except PlanError α} {r' : Except PlanError β}

theorem pure {a : α} {b : β} (h : R a b) : Agree R (Pure.pure a) (Pure.pure b) := h

/-- A relation that all related results are in. -/
theorem mono (h : Agree R r r') {R' : α → β → Prop} (hR : ∀ a b, R a b → R' a b) :
    Agree R' r r' := by
  cases r <;> cases r' <;> first | exact hR _ _ h | exact h

/-- A result of the one computation is related to one of the other. -/
theorem exists_of_ok (h : Agree R r r') {a : α} (hr : r = .ok a) :
    ∃ b, r' = .ok b ∧ R a b := by
  subst hr
  cases r' with
  | ok b => exact ⟨b, rfl, h⟩
  | error e => exact h.elim

/-- **One computation after another.** -/
theorem bind {f : α → Except PlanError γ} {g : β → Except PlanError δ} (h : Agree R r r')
    (hf : ∀ a b, R a b → Agree S (f a) (g b)) : Agree S (r >>= f) (r' >>= g) := by
  cases r <;> cases r' <;> first | exact hf _ _ h | exact h | exact h.elim

/-- Adding the place to errors. -/
theorem mapError_locate (h : Agree R r r') (criteria : String) :
    Agree R (r.mapError (PlanError.locate criteria))
      (r'.mapError (PlanError.locate criteria)) := by
  cases r <;> cases r' <;> first | exact h | exact congrArg (PlanError.locate criteria) h

/-- **A computation for every member of two lists** whose members correspond. -/
theorem foldlM {Q : γ → δ → Prop} {f : α → γ → Except PlanError α}
    {g : β → δ → Except PlanError β}
    (hf : ∀ a b x y, R a b → Q x y → Agree R (f a x) (g b y)) :
    ∀ {xs : List γ} {ys : List δ} {a : α} {b : β}, List.Forall₂ Q xs ys → R a b →
      Agree R (xs.foldlM f a) (ys.foldlM g b)
  | _, _, _, _, .nil, h => pure h
  | _, _, _, _, .cons hxy hrest, h => by
    rw [List.foldlM_cons, List.foldlM_cons]
    exact (hf _ _ _ _ h hxy).bind (fun _ _ h => foldlM hf hrest h)

/-- A computation for every member of a list that both have in common. -/
theorem foldlM_self {f : α → γ → Except PlanError α} {g : β → γ → Except PlanError β}
    (hf : ∀ a b x, R a b → Agree R (f a x) (g b x)) (xs : List γ) {a : α} {b : β} (h : R a b) :
    Agree R (xs.foldlM f a) (xs.foldlM g b) :=
  foldlM (Q := Eq) (fun a b x _ hab hxy => hxy ▸ hf a b x hab) (List.forall₂_refl xs) h

/-- **What is common to related results** the computations have in common. -/
theorem map_eq {f : α → γ} {g : β → γ} (h : Agree R r r') (hR : ∀ a b, R a b → f a = g b) :
    r.map f = r'.map g := by
  cases r <;> cases r' <;>
    first | exact congrArg Except.ok (hR _ _ h) | exact congrArg Except.error h | exact False.elim h

end Agree

end AnnotationPlan
