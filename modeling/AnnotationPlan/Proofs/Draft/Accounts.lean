import AnnotationPlan.Proofs.Draft.Receiver
import AnnotationPlan.Proofs.Store.Tags

/-!
# The account of a constructor

The constructor that is written for a class takes up what is on the constructor without
parameters, and an **account** says whether it has done so. Every single annotation there
belongs somewhere (`Draft.Settles`): one on the result nowhere but on the name of the
constructor, one that belongs to a declaration above it, and one on a type in the output.
An account is in balance (`Draft.Accounts`) if all of them are where they belong, but for
those in hand, and if the texts on the name are those of the annotations on the result, in
the order in which they were made.

Few things happen to an account. Insertions that are no annotations on the constructor may
be made and put into the output (`Draft.Accounts.grow`); an annotation on it is taken in hand
when it is made, and from there it goes onto the name, above the constructor, or into the
output.
-/

namespace AnnotationPlan

/-- Lists that agree as far as the first one goes, with nothing to keep behind it. -/
theorem filterMap_eq_of_getElem? {α β : Type} {f : α → Option β} :
    ∀ {xs ys : List α}, (∀ (k : Nat) (x : α), xs[k]? = some x → ∃ y, ys[k]? = some y ∧ f y = f x) →
      (∀ (k : Nat) (y : α), xs.length ≤ k → ys[k]? = some y → f y = none) →
      ys.filterMap f = xs.filterMap f
  | [], _, _, hmore => List.filterMap_eq_nil_iff.mpr (fun y hy => by
      obtain ⟨k, hk⟩ := List.mem_iff_getElem?.mp hy
      exact hmore k y (Nat.zero_le k) hk)
  | x :: xs, [], hsame, _ => by
    obtain ⟨y, hy, -⟩ := hsame 0 x rfl
    cases hy
  | x :: xs, y :: ys, hsame, hmore => by
    obtain ⟨y', hy, hxy⟩ := hsame 0 x rfl
    obtain rfl := Option.some.inj hy
    have hrest : ys.filterMap f = xs.filterMap f :=
      filterMap_eq_of_getElem? (fun k => hsame (k + 1))
        (fun k z hk => hmore (k + 1) z (Nat.succ_le_succ hk))
    rw [List.filterMap_cons, List.filterMap_cons, hxy, hrest]

/-- **Whether a place is on the constructor without parameters** of a class, and not within a
type. -/
def Criteria.isOnConstructorOf (name : String) (cs : Criteria) : Bool :=
  cs.className? == some name && cs.targetsImplicitConstructor && !cs.hasTypePath

theorem Criteria.isOnConstructorOf_iff {name : String} {cs : Criteria} :
    cs.isOnConstructorOf name = true ↔ cs.className? = some name
      ∧ cs.targetsImplicitConstructor = true ∧ cs.hasTypePath = false := by
  simp [isOnConstructorOf, and_assoc]

namespace Insertion

variable {name : String} {i j : Insertion}

/-- Whether an insertion is a single annotation on the constructor without parameters of a
class. -/
def isOnConstructorOf (name : String) : Insertion → Bool
  | .single _ l _ => l.compose.isOnConstructorOf name
  | _ => false

/-- The text of an annotation on the result of this constructor. -/
def resultText? (name : String) : Insertion → Option String
  | .single text l _ =>
    if l.compose.isOnConstructorOf name && l.compose.isOnReturnType then some text else none
  | _ => none

theorem Grows.isOnConstructorOf_eq (h : i.Grows j) :
    j.isOnConstructorOf name = i.isOnConstructorOf name := by
  cases h <;> rfl

theorem Grows.resultText?_eq (h : i.Grows j) : j.resultText? name = i.resultText? name := by
  cases h <;> rfl

/-- **What is on the constructor stays as it is.** -/
theorem Grows.eq_of_isOnConstructorOf (h : i.Grows j) (hj : j.isOnConstructorOf name = true) :
    j = i := by
  cases h <;> first | rfl | cases hj

/-- What is on the constructor is in the class. -/
theorem className?_of_isOnConstructorOf (hi : i.isOnConstructorOf name = true) :
    i.className? = some name := by
  cases i with
  | single text l separateLine => exact (Criteria.isOnConstructorOf_iff.mp hi).1
  | _ => cases hi

/-- Other insertions have no text on the result. -/
theorem resultText?_eq_none (hi : i.isOnConstructorOf name = false) :
    i.resultText? name = none := by
  cases i with
  | single text l separateLine =>
    have hl : l.compose.isOnConstructorOf name = false := hi
    rw [resultText?, hl]
    rfl
  | _ => rfl

/-- Nor have annotations on anything but the result. -/
theorem resultText?_eq_none_of_not_result (hi : i.criteria.compose.isOnReturnType = false) :
    i.resultText? name = none := by
  cases i with
  | single text l separateLine =>
    have hl : l.compose.isOnReturnType = false := hi
    rw [resultText?, hl, Bool.and_false]
    rfl
  | _ => rfl

end Insertion

namespace Store

variable {name : String} {s s' : Store} {id : InsertionId} {i : Insertion}

/-- **The texts of the annotations on the result** of the constructor of a class, in the order
in which they were made. -/
def resultTexts (name : String) (s : Store) : List String :=
  s.insertions.toList.filterMap (Insertion.resultText? name)

/-- The text of an annotation on the result; nothing for other insertions. -/
def resultText? (name : String) (s : Store) (id : InsertionId) : Option String :=
  (s.get? id).bind (Insertion.resultText? name)

theorem resultText?_of_get? (h : s.get? id = some i) :
    s.resultText? name id = i.resultText? name := by
  rw [resultText?, h]
  rfl

theorem resultTexts_push (s : Store) (i : Insertion) :
    (s.push i).resultTexts name = s.resultTexts name ++ (i.resultText? name).toList := by
  unfold resultTexts push
  rw [Array.toList_push, List.filterMap_append]
  cases h : i.resultText? name <;> simp [h]

/-- **The texts on the result stay the same** while other insertions are made. -/
theorem Grows.resultTexts_eq (h : s.Grows s')
    (hnew : ∀ id i, s.size ≤ id → s'.get? id = some i → i.resultText? name = none) :
    s'.resultTexts name = s.resultTexts name := by
  refine filterMap_eq_of_getElem? (fun id i hi => ?_) (fun id i hid hi => ?_)
  · obtain ⟨j, hj, hgrown⟩ := h id i (by rwa [Array.getElem?_toList] at hi)
    exact ⟨j, by rwa [Array.getElem?_toList], hgrown.resultText?_eq⟩
  · exact hnew id i hid (by rwa [Array.getElem?_toList] at hi)

/-- An annotation on the constructor that was not made since was there before. -/
theorem Grows.get?_of_isOnConstructorOf (h : s.Grows s') (hid : id < s.size)
    (hi : s'.get? id = some i) (hon : i.isOnConstructorOf name = true) : s.get? id = some i := by
  obtain ⟨k, hk⟩ := exists_get? hid
  obtain ⟨j, hj, hgrown⟩ := h id k hk
  obtain rfl := Option.some.inj (hi.symm.trans hj)
  exact hgrown.eq_of_isOnConstructorOf hon ▸ hk

/-- An insertion that is no annotation on the constructor of a class. -/
def IsOff (name : String) (s : Store) (id : InsertionId) : Prop :=
  s.Has (fun i => i.isOnConstructorOf name = false) id

theorem IsOff.grows (h : s.IsOff name id) (hgrows : s.Grows s') : s'.IsOff name id :=
  Has.grows h hgrows (fun _ _ hg hi => hg.isOnConstructorOf_eq.trans hi)

/-- An insertion is one or it is not. -/
theorem IsOff.not_on (h : s.IsOff name id) (hi : s.get? id = some i) :
    ¬ i.isOnConstructorOf name = true := by
  obtain ⟨j, hj, hoff⟩ := h
  obtain rfl := Option.some.inj (hi.symm.trans hj)
  rw [hoff]
  exact Bool.false_ne_true

end Store

namespace Draft

variable {name : String} {d e : Draft} {hand ids : List InsertionId} {c id : InsertionId}
  {i : Insertion}

/-- **What is above the constructor** of the class. -/
def declared (d : Draft) : List InsertionId := d.constructor.elim [] d.store.declarationsOf

/-- **The texts on the name** of the constructor of the class. -/
def nameTexts (d : Draft) : List String := (d.constructor.bind d.store.textsAt).getD []

theorem declared_of_get? (hc : d.constructor = some c) (hi : d.store.get? c = some i) :
    d.declared = i.declarations := by
  unfold declared
  rw [hc]
  exact Store.declarationsOf_of_get? hi

theorem nameTexts_of_get? (hc : d.constructor = some c) (hi : d.store.get? c = some i) :
    d.nameTexts = (i.type?.map JavaType.annotations).getD [] := by
  unfold nameTexts
  rw [hc]
  exact congrArg (Option.getD · []) (Store.textsAt_of_get? hi)

/-- **A constructor that is left alone** has the same above it and the same texts on its
name. -/
theorem declared_eq_of_get? (hconstructor : e.constructor = d.constructor)
    (hget : ∀ c, d.constructor = some c → e.store.get? c = d.store.get? c) :
    e.declared = d.declared ∧ e.nameTexts = d.nameTexts := by
  unfold declared nameTexts Store.declarationsOf Store.textsAt
  rw [hconstructor]
  cases hc : d.constructor with
  | none => exact ⟨rfl, rfl⟩
  | some c =>
    show (((e.store.get? c).map Insertion.declarations).getD [] = _) ∧ _
    simp only [Option.elim_some, Option.bind_some, hget c hc, and_self]

/-- **An annotation on the constructor is where it belongs.** -/
def Settles (d : Draft) (id : InsertionId) (i : Insertion) : Prop :=
  if i.criteria.compose.isOnReturnType then id ∉ d.placed ∧ id ∉ d.declared
  else if i.separateLine then id ∉ d.placed ∧ id ∈ d.declared
  else id ∈ d.placed ∧ id ∉ d.declared

/-- Where an annotation is depends on what is in the output and above the constructor. -/
theorem Settles.of_iff (h : d.Settles id i) (hplaced : id ∈ e.placed ↔ id ∈ d.placed)
    (hdeclared : id ∈ e.declared ↔ id ∈ d.declared) : e.Settles id i := by
  unfold Settles at h ⊢
  rwa [hplaced, hdeclared]

/-- **An account in balance**, but for the annotations in hand. -/
structure Accounts (name : String) (hand : List InsertionId) (d : Draft) : Prop where
  /-- What is above the constructor is in the store. -/
  declared_lt : ∀ id ∈ d.declared, id < d.store.size
  /-- It is there in the order in which it was made. -/
  ordered : d.declared.Pairwise (· < ·)
  /-- What is in hand is on the constructor, and nowhere else. -/
  hand_on : ∀ id ∈ hand, d.store.Has (fun i => i.isOnConstructorOf name = true) id
    ∧ id ∉ d.placed ∧ id ∉ d.declared
  /-- The texts on the name are those of the annotations on the result. -/
  texts : d.nameTexts ++ hand.filterMap (d.store.resultText? name) = d.store.resultTexts name
  /-- All other annotations on the constructor are where they belong. -/
  settled : ∀ id i, d.store.get? id = some i → i.isOnConstructorOf name = true → id ∉ hand →
    d.Settles id i

namespace Accounts

/-- **Nothing happens on the constructor**: no annotation on it is made or put into the output,
and what it has above it and on its name it keeps. -/
theorem grow (h : d.Accounts name hand) (ids : List InsertionId) (hgrows : d.store.Grows e.store)
    (hnew : ∀ id i, d.store.size ≤ id → e.store.get? id = some i → i.isOnConstructorOf name = false)
    (hdeclared : e.declared = d.declared) (hnames : e.nameTexts = d.nameTexts)
    (hplaced : e.placed = ids.reverse ++ d.placed) (hids : ∀ id ∈ ids, e.store.IsOff name id) :
    e.Accounts name hand := by
  -- an annotation on the constructor that is there afterwards was there before
  have hold : ∀ {id : InsertionId} {i : Insertion}, e.store.get? id = some i →
      i.isOnConstructorOf name = true → d.store.get? id = some i := by
    intro id i hi hon
    refine hgrows.get?_of_isOnConstructorOf (Nat.lt_of_not_le (fun hle => ?_)) hi hon
    rw [hnew id i hle hi] at hon
    cases hon
  have hplace : ∀ {id : InsertionId} {i : Insertion}, e.store.get? id = some i →
      i.isOnConstructorOf name = true → (id ∈ e.placed ↔ id ∈ d.placed) := by
    intro id i hi hon
    rw [hplaced, List.mem_append, List.mem_reverse]
    exact or_iff_right (fun hmem => (hids id hmem).not_on hi hon)
  have hhand : ∀ id ∈ hand, e.store.Has (fun i => i.isOnConstructorOf name = true) id :=
    fun id hid => (h.hand_on id hid).1.grows hgrows
      (fun _ _ hg hi => hg.isOnConstructorOf_eq.trans hi)
  refine ⟨fun id hid => ?_, hdeclared ▸ h.ordered, fun id hid => ⟨hhand id hid, ?_⟩, ?_,
    fun id i hi hon hid => ?_⟩
  · exact Nat.lt_of_lt_of_le (h.declared_lt id (hdeclared ▸ hid)) hgrows.size_le
  · obtain ⟨i, hi, hon⟩ := hhand id hid
    rw [hplace hi hon, hdeclared]
    exact (h.hand_on id hid).2
  · have htexts : hand.filterMap (e.store.resultText? name)
        = hand.filterMap (d.store.resultText? name) := by
      refine List.filterMap_congr (fun id hid => ?_)
      obtain ⟨i, hi, hon⟩ := hhand id hid
      rw [Store.resultText?_of_get? hi, Store.resultText?_of_get? (hold hi hon)]
    rw [hnames, htexts, h.texts]
    exact (hgrows.resultTexts_eq (fun id i hid hi =>
      Insertion.resultText?_eq_none (hnew id i hid hi))).symm
  · exact (h.settled id i (hold hi hon) hon hid).of_iff (hplace hi hon) (by rw [hdeclared])

/-- **An annotation on the constructor is made**, and taken in hand. -/
theorem take (h : d.Accounts name []) (hd : ∀ id ∈ d.placed, id < d.store.size)
    (hon : i.isOnConstructorOf name = true) (hstore : e.store = d.store.push i)
    (hplaced : e.placed = d.placed) (hconstructor : e.constructor = d.constructor)
    (hc : ∀ c, d.constructor = some c → c < d.store.size) :
    e.Accounts name [d.store.size] := by
  obtain ⟨hdeclared, hnames⟩ := declared_eq_of_get? (d := d) (e := e) hconstructor
    (fun c h => by rw [hstore, Store.get?_push_of_lt (hc c h)])
  have hget : e.store.get? d.store.size = some i := hstore ▸ Store.get?_push_size _ _
  refine ⟨fun id hid => ?_, hdeclared ▸ h.ordered, List.forall_mem_singleton.mpr ⟨⟨i, hget, hon⟩,
    fun hmem => ?_, fun hmem => ?_⟩, ?_, fun id k hk hkon hid => ?_⟩
  · rw [hstore, Store.size_push]
    exact Nat.lt_succ_of_lt (h.declared_lt id (hdeclared ▸ hid))
  · exact Nat.lt_irrefl _ (hd _ (hplaced ▸ hmem))
  · exact Nat.lt_irrefl _ (h.declared_lt _ (hdeclared ▸ hmem))
  · have htexts := h.texts
    rw [List.filterMap_nil, List.append_nil] at htexts
    rw [hnames, htexts, hstore, Store.resultTexts_push, ← hstore]
    refine congrArg (d.store.resultTexts name ++ ·) ?_
    have hone : e.store.resultText? name d.store.size = i.resultText? name :=
      Store.resultText?_of_get? hget
    cases htext : i.resultText? name <;> simp [hone, htext]
  · have hne : id ≠ d.store.size := fun heq => hid (heq ▸ List.mem_cons_self)
    rw [hstore, Store.get?_push, if_neg hne] at hk
    exact (h.settled id k hk hkon List.not_mem_nil).of_iff (by rw [hplaced]) (by rw [hdeclared])

section Constructor

variable {criteria : CriteriaList} {type : JavaType} {receiver : Option InsertionId}
  {declarations : List InsertionId} (hc : d.constructor = some c)
  (hget : d.store.get? c = some (.constructor criteria type receiver declarations))
include hc hget

/-- **An annotation on the result** goes from the hand onto the name. -/
theorem fold (h : d.Accounts name [id]) (hi : d.store.get? id = some i)
    (hresult : i.criteria.compose.isOnReturnType = true) {text : String}
    (htext : i.resultText? name = some text) :
    Accounts name [] { d with
      store := d.store.modify c (Insertion.mapType (JavaType.annotate text)) } := by
  let e : Draft := { d with
    store := d.store.modify c (Insertion.mapType (JavaType.annotate text)) }
  have hgrows : d.store.Grows e.store := Store.grows_modify (fun i _ => i.grows_annotate text)
  have hsize : e.store.size = d.store.size := Store.size_modify _ _ _
  have hget' : e.store.get? c = some (.constructor criteria (type.annotate text) receiver
      declarations) := Store.get?_modify_self hget
  have hdeclared : e.declared = d.declared :=
    (declared_of_get? (d := e) hc hget').trans (declared_of_get? hc hget).symm
  have hnames : e.nameTexts = d.nameTexts ++ [text] := by
    rw [nameTexts_of_get? (d := e) hc hget', nameTexts_of_get? hc hget]
    exact JavaType.annotations_annotate _ _
  refine ⟨fun j hj => hsize ▸ h.declared_lt j (hdeclared ▸ hj), hdeclared ▸ h.ordered,
    fun j hj => absurd hj List.not_mem_nil, ?_, fun j k hk hon _ => ?_⟩
  · have htexts := h.texts
    rw [List.filterMap_cons_some ((Store.resultText?_of_get? hi).trans htext),
      List.filterMap_nil] at htexts
    show e.nameTexts ++ [] = e.store.resultTexts name
    rw [List.append_nil, hnames, htexts]
    refine (hgrows.resultTexts_eq (fun j k hj hk => ?_)).symm
    exact absurd (hsize ▸ Store.lt_size hk) (Nat.not_lt.mpr hj)
  · have hk' := hgrows.get?_of_isOnConstructorOf (hsize ▸ Store.lt_size hk) hk hon
    show e.Settles j k
    by_cases hj : j = id
    · subst hj
      obtain rfl := Option.some.inj (hi.symm.trans hk')
      obtain ⟨-, hplaced, hfree⟩ := h.hand_on j List.mem_cons_self
      unfold Settles
      rw [if_pos hresult, hdeclared]
      exact ⟨hplaced, hfree⟩
    · exact (h.settled j k hk' hon (by simpa using hj)).of_iff Iff.rfl (by rw [hdeclared])

/-- **Insertions go above the constructor**, and with them the annotations in hand, which have
to belong there. They were made after everything that is there. -/
theorem declare (h : d.Accounts name hand) (hordered : ids.Pairwise (· < ·))
    (hlater : ∀ id ∈ ids, id < d.store.size ∧ ∀ j ∈ d.declared, j < id) (hhand : hand ⊆ ids)
    (hon : ∀ id ∈ ids, ∀ i, d.store.get? id = some i → i.isOnConstructorOf name = true →
      id ∈ hand ∧ i.criteria.compose.isOnReturnType = false ∧ i.separateLine = true) :
    Accounts name [] { d with
      store := d.store.modify c
        (fun _ => .constructor criteria type receiver (declarations ++ ids)) } := by
  let e : Draft := { d with
    store := d.store.modify c
      (fun _ => .constructor criteria type receiver (declarations ++ ids)) }
  have hgrows : d.store.Grows e.store := Store.grows_declarations hget ids
  have hsize : e.store.size = d.store.size := Store.size_modify _ _ _
  have hget' : e.store.get? c = some (.constructor criteria type receiver (declarations ++ ids)) :=
    Store.get?_modify_self hget
  have hdeclared : e.declared = d.declared ++ ids := by
    rw [declared_of_get? (d := e) hc hget', declared_of_get? hc hget]
    rfl
  have hnames : e.nameTexts = d.nameTexts :=
    (nameTexts_of_get? (d := e) hc hget').trans (nameTexts_of_get? hc hget).symm
  refine ⟨fun j hj => ?_, ?_, fun j hj => absurd hj List.not_mem_nil, ?_, fun j k hk hkon _ => ?_⟩
  · show j < e.store.size
    rw [hsize]
    exact (List.mem_append.mp (hdeclared ▸ hj)).elim (h.declared_lt j) (fun hj => (hlater j hj).1)
  · show e.declared.Pairwise (· < ·)
    rw [hdeclared]
    exact List.pairwise_append.mpr ⟨h.ordered, hordered, fun j hj k hk => (hlater k hk).2 j hj⟩
  · -- what is in hand is not on the result
    have hnone : hand.filterMap (d.store.resultText? name) = [] := by
      refine List.filterMap_eq_nil_iff.mpr (fun j hj => ?_)
      obtain ⟨k, hk, hkon⟩ := (h.hand_on j hj).1
      rw [Store.resultText?_of_get? hk]
      exact Insertion.resultText?_eq_none_of_not_result (hon j (hhand hj) k hk hkon).2.1
    have htexts := h.texts
    rw [hnone] at htexts
    show e.nameTexts ++ [] = e.store.resultTexts name
    rw [hnames, htexts]
    refine (hgrows.resultTexts_eq (fun j k hj hk => ?_)).symm
    exact absurd (hsize ▸ Store.lt_size hk) (Nat.not_lt.mpr hj)
  · have hk' := hgrows.get?_of_isOnConstructorOf (hsize ▸ Store.lt_size hk) hk hkon
    show e.Settles j k
    by_cases hj : j ∈ ids
    · obtain ⟨hmem, hresult, hline⟩ := hon j hj k hk' hkon
      unfold Settles
      rw [hresult, hline, hdeclared]
      exact ⟨(h.hand_on j hmem).2.1, List.mem_append_right _ hj⟩
    · refine (h.settled j k hk' hkon (fun hmem => hj (hhand hmem))).of_iff Iff.rfl ?_
      rw [hdeclared, List.mem_append]
      exact or_iff_left hj

end Constructor

/-- **An annotation on a type** goes from the hand into the output. -/
theorem put (h : d.Accounts name [id]) (hi : d.store.get? id = some i)
    (hresult : i.criteria.compose.isOnReturnType = false) (hline : i.separateLine = false) :
    (d.place [id]).Accounts name [] := by
  obtain ⟨-, hplaced, hfree⟩ := h.hand_on id List.mem_cons_self
  refine ⟨h.declared_lt, h.ordered, fun j hj => absurd hj List.not_mem_nil, ?_,
    fun j k hk hon _ => ?_⟩
  · have htexts := h.texts
    rwa [List.filterMap_cons_none ((Store.resultText?_of_get? hi).trans
      (Insertion.resultText?_eq_none_of_not_result hresult))] at htexts
  · by_cases hj : j = id
    · subst hj
      obtain rfl := Option.some.inj (hi.symm.trans hk)
      unfold Settles
      rw [hresult, hline]
      exact ⟨List.mem_cons_self, hfree⟩
    · refine (h.settled j k hk hon (by simpa using hj)).of_iff ?_ Iff.rfl
      show j ∈ [id].reverse ++ d.placed ↔ _
      simp [hj]

end Accounts

end Draft

end AnnotationPlan
