import AnnotationPlan.Proofs.Draft.Receiving
import AnnotationPlan.Proofs.Plan.Visits
import Mathlib.Data.List.Nodup

/-!
# Every constructor is that of its class

A constructor is made while its class is worked off, and only then anything happens to
it or to its receiver: from the moment another class is begun, insertions that were there
before stay as they are (`Step.above`). So what a class makes of its constructor can be
read in the plan (`Plan.builtFrom`), and since no two classes have one
name, there is at most one constructor for each (`Plan.constructor_unique`).
-/

namespace AnnotationPlan

open Insertion

/-- A store that has grown without getting longer has no other constructors. -/
theorem Store.Grows.has_isConstructor {s s' : Store} (h : s.Grows s') (hsize : s'.size = s.size)
    {j : InsertionId} (hj : s'.Has IsConstructor j) : s.Has IsConstructor j := by
  obtain ⟨i', hi', hkind⟩ := hj
  obtain ⟨i, hi⟩ := Store.exists_get? (hsize ▸ Store.lt_size hi')
  obtain ⟨k, hk, hgrown⟩ := h j i hi
  obtain rfl := Option.some.inj (hk.symm.trans hi')
  exact ⟨i, hi, by cases hgrown <;> exact hkind⟩

/-- **Everything happens above a number**: insertions below it are as they were in a given
store, and those that may still change are not below it. -/
structure Work.Above (ctx : Context) (base : Nat) (s₀ : Store) (w : Work) : Prop where
  /-- There are so many insertions. -/
  le_size : base ≤ w.draft.store.size
  /-- Those below are as they were. -/
  same : ∀ j < base, w.draft.store.get? j = s₀.get? j
  /-- What is in hand is not below. -/
  hand : ∀ j ∈ w.hand, base ≤ j
  /-- The constructor is not below, if one is written. -/
  constructor : ctx.writesConstructor = true → ∀ c, w.draft.constructor = some c → base ≤ c
  /-- Nor is its receiver. -/
  receiver : ctx.writesConstructor = true → ∀ r, w.draft.receiver? = some r → base ≤ r
  /-- There is no other constructor that is not below. -/
  only : ∀ j, base ≤ j → w.draft.store.Has IsConstructor j →
    ctx.writesConstructor = true ∧ w.draft.constructor = some j

namespace Work.Above

variable {ctx : Context} {base : Nat} {s₀ : Store} {w w' : Work}

/-- Making an insertion that is no constructor happens above. -/
theorem push {d d' : Draft} {hand : List InsertionId}
    {written : List (InsertionId × InsertionId)} {i : Insertion} {className : Option String}
    (h : Work.Above ctx base s₀ ⟨d, hand, written⟩) (hd : d.Sound className)
    (hstore : d'.store = d.store.push i) (hconstructor : d'.constructor = d.constructor)
    (hi : ¬ i.IsConstructor) :
    Work.Above ctx base s₀ ⟨d', hand ++ [d.store.size], written⟩ := by
  have hkeep : d.KeepsReceiver d' := hd.keepsReceiver_of_lt hconstructor
    (fun j hj => hstore ▸ Store.get?_push_of_lt hj i)
  refine ⟨?_, fun j hj => ?_, fun j hj => ?_, ?_, ?_, fun j hj hkind => ?_⟩
  · rw [hstore, Store.size_push]
    exact Nat.le_succ_of_le h.le_size
  · rw [hstore, Store.get?_push_of_lt (Nat.lt_of_lt_of_le hj h.le_size)]
    exact h.same j hj
  · rcases List.mem_append.mp hj with hj | hj
    · exact h.hand j hj
    · exact (List.mem_singleton.mp hj) ▸ h.le_size
  · exact fun hwrites c hc => h.constructor hwrites c (hconstructor ▸ hc)
  · exact fun hwrites r hr => h.receiver hwrites r (hkeep.1 ▸ hr)
  · obtain ⟨k, hk, hkind⟩ := hkind
    rw [hstore, Store.get?_push] at hk
    split at hk
    · obtain rfl := Option.some.inj hk
      exact absurd hkind hi
    · rw [hconstructor]
      exact h.only j hj ⟨k, hk, hkind⟩

/-- A step that makes nothing happens above if it changes nothing below. -/
theorem settle (h : w.Above ctx base s₀) (hgrows : w.draft.store.Grows w'.draft.store)
    (hsize : w'.draft.store.size = w.draft.store.size)
    (hsame : ∀ j < base, w'.draft.store.get? j = w.draft.store.get? j)
    (hhand : w'.hand ⊆ w.hand) (hconstructor : w'.draft.constructor = w.draft.constructor)
    (hreceiver : ctx.writesConstructor = true → ∀ r, w'.draft.receiver? = some r → base ≤ r) :
    w'.Above ctx base s₀ where
  le_size := hsize ▸ h.le_size
  same := fun j hj => (hsame j hj).trans (h.same j hj)
  hand := fun j hj => h.hand j (hhand hj)
  constructor := fun hwrites c hc => h.constructor hwrites c (hconstructor ▸ hc)
  receiver := hreceiver
  only := fun j hj hkind => hconstructor ▸ h.only j hj (hgrows.has_isConstructor hsize hkind)

/-- Changing the constructor otherwise than in its receiver happens above. -/
theorem modify {d : Draft} {hand hand' : List InsertionId}
    {written : List (InsertionId × InsertionId)} {c : InsertionId} {f : Insertion → Insertion}
    {className : Option String} (h : Work.Above ctx base s₀ ⟨d, hand, written⟩)
    (hd : d.Sound className) (hwrites : ctx.writesConstructor = true)
    (hc : d.constructor = some c)
    (hf : ∀ i, d.store.get? c = some i → (f i).receiver? = i.receiver?)
    (hgrows : d.store.Grows (d.store.modify c f)) (hhand : hand' ⊆ hand) :
    Work.Above ctx base s₀ ⟨{ d with store := d.store.modify c f }, hand', written⟩ := by
  have hkeep := hd.keepsReceiver_modify hc hf
  refine h.settle hgrows (Store.size_modify _ _ _) (fun j hj => ?_) hhand rfl
    (fun _ r hr => h.receiver hwrites r (hkeep.1 ▸ hr))
  exact Store.get?_modify_of_ne
    (Nat.ne_of_gt (Nat.lt_of_lt_of_le hj (h.constructor hwrites c hc)))

/-- Making a cast happens above. -/
theorem pushCast {d : Draft} {store : Store} {hand inner : List InsertionId}
    {written : List (InsertionId × InsertionId)} {type : JavaType} {text : Option String}
    {criteria : CriteriaList} {className : Option String}
    (h : Work.Above ctx base s₀ ⟨d, hand, written⟩) (hd : d.Sound className)
    (made : d.store.pushCast type text inner criteria = .ok store) :
    Work.Above ctx base s₀
      ⟨{ d with store }, hand ++ [d.store.size] ++ [d.store.size + 1], written⟩ := by
  obtain ⟨decorated, -, rfl⟩ := Store.pushCast_eq_ok.mp made
  -- the two insertions are made one after the other, so each of them is a push
  have hopened :
      Draft.Sound className { d with store := d.store.push (.cast criteria decorated false) } :=
    hd.of_grows (Store.grows_push _ _)
      (hd.wired.push (i := .cast criteria decorated false) trivial) rfl rfl
  rw [← Store.size_push d.store (.cast criteria decorated false)]
  have hcast : Work.Above ctx base s₀
      ⟨{ d with store := d.store.push (.cast criteria decorated false) }, hand ++ [d.store.size],
        written⟩ :=
    h.push hd rfl rfl (fun h => h)
  exact hcast.push (i := .closeParenthesis criteria false) hopened rfl rfl (fun h => h)

/-- Making the constructor happens above. -/
theorem construct {d : Draft} {store : Store} {hand : List InsertionId}
    {written : List (InsertionId × InsertionId)} {criteria : CriteriaList}
    (h : Work.Above ctx base s₀ ⟨d, hand, written⟩) (hwrites : ctx.writesConstructor = true)
    (hnone : d.constructor = none) (made : d.store.pushConstructor criteria = .ok store) :
    Work.Above ctx base s₀
      ⟨({ d with store, constructor := some d.store.size } : Draft).place [d.store.size],
        hand, written⟩ := by
  have hkeep := Draft.keepsReceiver_construct hnone made
  obtain ⟨name, -, rfl⟩ := Store.pushConstructor_eq_ok.mp made
  refine ⟨Nat.le_trans h.le_size (Store.grows_push _ _).size_le, fun j hj => ?_, h.hand, ?_, ?_,
    fun j hj hkind => ?_⟩
  · exact (Store.get?_push_of_lt (Nat.lt_of_lt_of_le hj h.le_size) _).trans (h.same j hj)
  · rintro - c hc
    obtain rfl := Option.some.inj hc
    exact h.le_size
  · exact fun hwrites r hr => h.receiver hwrites r (hkeep.1 ▸ hr)
  · obtain ⟨k, hk, hkind⟩ := hkind
    by_cases hsize : j = d.store.size
    · subst hsize
      exact ⟨hwrites, rfl⟩
    · -- Any other one was there before, when there was none.
      have hk' : d.store.get? j = some k := by
        rw [← hk]
        show _ = (d.store.push _).get? j
        rw [Store.get?_push, if_neg hsize]
      have hc := (h.only j hj ⟨k, hk', hkind⟩).2
      cases hnone.symm.trans hc

end Work.Above

/-- **Every step happens above** what was there when its class was begun. -/
theorem Step.above {ctx : Context} {p : Spot} {base : Nat} {s₀ : Store}
    {className : Option String} {w w' : Work} (h : Step ctx p base w w')
    (hd : w.draft.Sound className) (hw : w.Above ctx base s₀) : w'.Above ctx base s₀ := by
  have hgrows := h.grows hd
  cases h with
  | single n form note => exact hw.push hd rfl rfl (fun h => h)
  | receiver text inner form within => exact hw.push hd rfl rfl (fun h => h)
  | new text inner form within => exact hw.push hd rfl rfl (fun h => h)
  | cast type text form within made =>
    refine (hw.pushCast hd made).settle (.refl _) rfl (fun _ _ => rfl) (fun j hj => ?_) rfl
      (hw.pushCast hd made).receiver
    simp only [List.mem_append, List.mem_cons, List.not_mem_nil, or_false] at hj ⊢
    tauto
  | record id n known =>
    exact hw.settle hgrows rfl (fun _ _ => rfl) (List.Subset.refl _) rfl hw.receiver
  | construct n note on none made =>
    exact hw.construct (Context.onConstructor_iff.mp on).2.1 none made
  | place ids paired =>
    exact hw.settle hgrows rfl (fun _ _ => rfl) (List.subset_append_left _ _) rfl hw.receiver
  | fold n note on result single constructor made =>
    obtain ⟨i, -, -, rfl⟩ := Store.addTypeAnnotation_eq_ok.mp made
    exact hw.modify hd (Context.onConstructor_iff.mp on).2.1 constructor
      (fun k _ => by cases k <;> rfl) hgrows (List.subset_append_left _ _)
  | declare n ids note on declaration kind paired constructor made =>
    obtain ⟨criteria, type, receiver, declarations, hget, -, rfl⟩ :=
      hd.declare_spec constructor made
    refine hw.modify hd (Context.onConstructor_iff.mp on).2.1 constructor (fun k hk => ?_) hgrows
      (List.subset_append_left _ _)
    obtain rfl := Option.some.inj (hget.symm.trans hk)
    rfl
  | @receive d d' hand written c id on form kind constructor made =>
    obtain ⟨⟨kept, hattach⟩, -, hconstructor⟩ := Draft.absorbReceiver_spec made
    have hwrites := (Context.onConstructor_iff.mp on).2.1
    have hc := hw.constructor hwrites c constructor
    have hid := hw.hand id (List.mem_append_right _ (List.mem_singleton_self _))
    obtain ⟨hkept, hsame⟩ := Draft.absorbReceiver_keeps constructor made
    -- what may change is the constructor and the receiver it had, and both are above
    refine hw.settle hgrows (Store.size_attachReceiver hattach) (fun j hj => hsame j ?_ ?_)
      (List.subset_append_left _ _) hconstructor (fun _ r hr => ?_)
    · exact Nat.ne_of_lt (Nat.lt_of_lt_of_le hj hc)
    · exact fun hold => Nat.not_lt.mpr (hw.receiver hwrites j hold) hj
    · obtain rfl := Option.some.inj (hkept.symm.trans hr)
      cases hold : d.receiver? with
      | none => exact hid
      | some kept => exact hw.receiver hwrites kept hold
  | @annotate d d' hand written id n note new kind made =>
    obtain ⟨hstore, -, hconstructor⟩ := Draft.addNote_spec made
    obtain ⟨i, -, -, hmodify⟩ := Store.addTypeAnnotation_eq_ok.mp hstore
    have hreceiver : d'.receiver? = d.receiver? :=
      Draft.receiver?_eq_of_get? hconstructor (fun c hc => hd.get?_addNote kind made hc)
    refine hw.settle hgrows (Store.size_addTypeAnnotation hstore) (fun j hj => ?_)
      (List.Subset.refl _) hconstructor
      (fun hwrites r hr => hw.receiver hwrites r (hreceiver ▸ hr))
    show d'.store.get? j = d.store.get? j
    rw [hmodify]
    exact Store.get?_modify_of_ne (Nat.ne_of_gt (Nat.lt_of_lt_of_le hj new))

/-! ## Part after part -/

section Part

variable {formatter : Formatter} {settings : Settings} {lookup : ConstructorLookup}
  {className : Option String} {d e : Draft} {p : Part} {j : InsertionId}

/-- **A part is worked off above** what was there before. -/
theorem Part.above (hd : d.Sound className)
    (h : Plan.visitPart formatter settings lookup d p = .ok e) :
    e.Sound p.className?
    ∧ (∃ written, Work.Above (p.context formatter settings lookup) d.store.size d.store
        ⟨e, [], written⟩)
    ∧ p.sites.foldlM (Draft.visit (p.context formatter settings lookup))
        (p.start settings lookup d) = .ok e := by
  have hsites := foldlM_of_visitPart formatter settings lookup h
  have hstart : Work.Above (p.context formatter settings lookup) d.store.size d.store
      ⟨p.start settings lookup d, [], []⟩ := by
    refine ⟨?_, fun j _ => ?_, fun j hj => absurd hj List.not_mem_nil, ?_, ?_, fun j hj hkind => ?_⟩
    · exact Nat.le_of_eq (congrArg Store.size (p.store_start settings lookup d)).symm
    · rw [p.store_start]
    · cases p with
      | type name element => exact fun _ c hc => by cases hc
      | _ => exact fun hwrites => by cases hwrites
    · cases p with
      | type name element => exact fun _ r hr => by cases hr
      | _ => exact fun hwrites => by cases hwrites
    · have hlt := hkind.lt_size
      rw [p.store_start] at hlt
      exact absurd hlt (Nat.not_lt.mpr hj)
  obtain ⟨hsound, -, -, habove⟩ := (Draft.visits_yields
    (I := Work.Above (p.context formatter settings lookup) d.store.size d.store)
    (fun _ hd hstep hw => hstep.above hd hw) p.fits_sites (p.sound_start settings lookup hd)
    (Nat.le_of_eq (congrArg Store.size (p.store_start settings lookup d)).symm) hstart).of_ok
      hsites
  exact ⟨hsound, ⟨_, habove⟩, hsites⟩

/-- The texts on the receivers that were there before are as they were. -/
theorem Part.receiverTexts?_of_lt (hd : d.Sound className)
    (h : Plan.visitPart formatter settings lookup d p = .ok e) (hj : j < d.store.size) :
    e.store.get? j = d.store.get? j ∧ e.store.receiverTexts? j = d.store.receiverTexts? j := by
  obtain ⟨-, ⟨written, habove⟩, -⟩ := Part.above hd h
  have hsame := habove.same j hj
  refine ⟨hsame, ?_⟩
  have hof : e.store.receiverOf j = d.store.receiverOf j := by
    unfold Store.receiverOf
    rw [hsame]
  unfold Store.receiverTexts?
  rw [hof]
  cases hr : d.store.receiverOf j with
  | none => rfl
  | some r =>
    obtain ⟨criteria, type, inner, hget⟩ := hd.wired.get?_receiverOf hr
    show e.store.textsAt r = d.store.textsAt r
    unfold Store.textsAt
    rw [habove.same r (Store.lt_size hget)]

/-- **A new constructor** is that of the class that was worked off, and on its receiver
there is what is received of the spots of the class. -/
theorem Part.receiverTexts?_of_le (hd : d.Sound className)
    (h : Plan.visitPart formatter settings lookup d p = .ok e) (hj : d.store.size ≤ j)
    (hkind : e.store.Has IsConstructor j) :
    ∃ name c, p = .type name c ∧ e.constructor = some j
      ∧ e.store.Has (fun i => i.className? = some name) j
      ∧ e.store.receiverTexts? j = Draft.received? (c.receiverTexts formatter name) := by
  obtain ⟨hsound, ⟨written, habove⟩, hsites⟩ := Part.above hd h
  obtain ⟨hwrites, hc⟩ := habove.only j hj hkind
  cases p with
  | nameless name => cases hwrites
  | package name annotations => cases hwrites
  | type name c =>
    refine ⟨name, c, rfl, hc, ?_, ?_⟩
    · exact (hsound.constructor_has j hc).imp (fun _ h => ⟨h.1, h.2.2 (by simp [className?])⟩)
    · have hstart := Part.sound_start settings lookup (.type name c) hd
      have htexts := Draft.receiverTexts?_visits (Part.fits_sites (.type name c)) hstart hsites
      have hnone : (Part.start settings lookup d (.type name c)).receiverTexts? = none := rfl
      rw [hnone, Draft.foldl_after hwrites, Draft.foldl_receive_none] at htexts
      rw [← show _ = Draft.received? (c.receiverTexts formatter name) from htexts]
      unfold Draft.receiverTexts? Draft.receiver?
      rw [hc]
      rfl

end Part

/-! ## The whole run -/

/-- No two parts are classes of one name. -/
def Part.Distinct (parts : List Part) : Prop :=
  parts.Pairwise (fun p q => ∀ name, p.className? = some name → q.className? ≠ some name)

/-- A class of a scene that stands for no package is a part of its own. -/
theorem Part.ofClass_eq_type {key name : String} {c element : ClassElement}
    (h : Part.ofClass key c = .type name element) : key = name ∧ c = element := by
  unfold Part.ofClass at h
  split at h <;> cases h
  exact ⟨rfl, rfl⟩

theorem Part.className?_ofClass {key name : String} {c : ClassElement}
    (h : (Part.ofClass key c).className? = some name) : key = name := by
  unfold Part.ofClass at h
  split at h <;> cases h
  rfl

/-- **The classes of a scene have different names.** -/
theorem Scene.distinct_parts (s : Scene) : Part.Distinct s.parts := by
  unfold Part.Distinct Scene.parts
  refine List.pairwise_append.mpr ⟨?_, ?_, fun p hp q _ name hname => ?_⟩
  · refine List.pairwise_map.mpr (List.pairwise_of_forall (fun p q name hname => ?_))
    cases hname
  · refine List.pairwise_map.mpr ((List.pairwise_map.mp s.classes.distinct).imp ?_)
    intro a b hne name ha hb
    exact hne ((Part.className?_ofClass ha).trans (Part.className?_ofClass hb).symm)
  · obtain ⟨package, -, rfl⟩ := List.mem_map.mp hp
    cases hname

/-- **A class of a scene is known by its name.** -/
theorem Scene.eq_of_mem_parts {s : Scene} {name : String} {c c' : ClassElement}
    (h : Part.type name c ∈ s.parts) (h' : Part.type name c' ∈ s.parts) : c = c' := by
  have hentry : ∀ {c : ClassElement}, Part.type name c ∈ s.parts →
      (name, c) ∈ s.classes.entries := by
    intro c h
    rcases List.mem_append.mp h with h | h
    · obtain ⟨package, -, h⟩ := List.mem_map.mp h
      cases h
    · obtain ⟨⟨key, element⟩, hmem, h⟩ := List.mem_map.mp h
      obtain ⟨rfl, rfl⟩ := Part.ofClass_eq_type h
      exact hmem
  have heq := List.inj_on_of_nodup_map s.classes.distinct (hentry h) (hentry h') rfl
  exact congrArg Prod.snd heq

/-- **Every constructor is that of a class**, and on its receiver there is what is received
of the spots of the class. No class has two. -/
structure Store.BuiltFrom (formatter : Formatter) (parts : List Part) (s : Store) : Prop where
  /-- The class of a constructor, and what is on its receiver. -/
  receiver : ∀ j, s.Has IsConstructor j → ∃ name c, Part.type name c ∈ parts
    ∧ s.Has (fun i => i.className? = some name) j
    ∧ s.receiverTexts? j = Draft.received? (c.receiverTexts formatter name)
  /-- No class has two. -/
  unique : ∀ j k name, s.Has (fun i => i.IsConstructor ∧ i.className? = some name) j →
    s.Has (fun i => i.IsConstructor ∧ i.className? = some name) k → j = k

/-- Two facts about one insertion. -/
theorem Store.Has.unique {s : Store} {j : InsertionId} {name name' : String}
    (h : s.Has (fun i => i.className? = some name) j)
    (h' : s.Has (fun i => i.className? = some name') j) : name = name' := by
  obtain ⟨i, hi, hname⟩ := h
  obtain ⟨k, hk, hname'⟩ := h'
  obtain rfl := Option.some.inj (hi.symm.trans hk)
  exact Option.some.inj (hname.symm.trans hname')

/-- **A part adds the constructor of its class.** -/
theorem Store.BuiltFrom.visitPart {formatter : Formatter} {settings : Settings}
    {lookup : ConstructorLookup} {className : Option String} {done : List Part} {d e : Draft}
    {p : Part} (h : d.store.BuiltFrom formatter done) (hd : d.Sound className)
    (hdistinct : ∀ q ∈ done, ∀ name, q.className? = some name → p.className? ≠ some name)
    (hp : Plan.visitPart formatter settings lookup d p = .ok e) :
    e.store.BuiltFrom formatter (done ++ [p]) := by
  -- what is known of a constructor in the store before is known of it afterwards
  have hold : ∀ {P : Insertion → Prop} {j : InsertionId}, j < d.store.size →
      e.store.Has P j → d.store.Has P j := by
    rintro P j hj ⟨i, hi, hP⟩
    exact ⟨i, (Part.receiverTexts?_of_lt hd hp hj).1 ▸ hi, hP⟩
  have hnew : ∀ {j k : InsertionId} {name : String}, j < d.store.size → d.store.size ≤ k →
      e.store.Has (fun i => i.IsConstructor ∧ i.className? = some name) j →
      e.store.Has (fun i => i.IsConstructor ∧ i.className? = some name) k → False := by
    intro j k name hj hk hjname hkname
    obtain ⟨name₁, c₁, hmem, hname₁, -⟩ :=
      h.receiver j ((hold hj hjname).imp (fun _ h => ⟨h.1, h.2.1⟩))
    obtain ⟨name₂, c₂, rfl, -, hname₂, -⟩ := Part.receiverTexts?_of_le hd hp hk
      (hkname.imp (fun _ h => ⟨h.1, h.2.1⟩))
    obtain rfl := hname₁.unique ((hold hj hjname).imp (fun _ h => ⟨h.1, h.2.2⟩))
    obtain rfl := hname₂.unique (hkname.imp (fun _ h => ⟨h.1, h.2.2⟩))
    exact hdistinct _ hmem _ rfl rfl
  refine ⟨fun j hj => ?_, fun j k name hj hk => ?_⟩
  · by_cases hlt : j < d.store.size
    · obtain ⟨name, c, hmem, hname, htexts⟩ := h.receiver j (hold hlt hj)
      obtain ⟨hget, hsame⟩ := Part.receiverTexts?_of_lt hd hp hlt
      refine ⟨name, c, List.mem_append_left _ hmem, ?_, hsame.trans htexts⟩
      exact hname.imp (fun _ h => ⟨hget.trans h.1, h.2⟩)
    · obtain ⟨name, c, rfl, -, hname, htexts⟩ :=
        Part.receiverTexts?_of_le hd hp (Nat.le_of_not_lt hlt) hj
      exact ⟨name, c, List.mem_append_right _ (List.mem_singleton_self _), hname, htexts⟩
  · by_cases hjlt : j < d.store.size <;> by_cases hklt : k < d.store.size
    · exact h.unique j k name (hold hjlt hj) (hold hklt hk)
    · exact (hnew hjlt (Nat.le_of_not_lt hklt) hj hk).elim
    · exact (hnew hklt (Nat.le_of_not_lt hjlt) hk hj).elim
    · obtain ⟨_, _, _, hcj, -⟩ := Part.receiverTexts?_of_le hd hp (Nat.le_of_not_lt hjlt)
        (hj.imp (fun _ h => ⟨h.1, h.2.1⟩))
      obtain ⟨_, _, _, hck, -⟩ := Part.receiverTexts?_of_le hd hp (Nat.le_of_not_lt hklt)
        (hk.imp (fun _ h => ⟨h.1, h.2.1⟩))
      exact Option.some.inj (hcj.symm.trans hck)

/-- **A run through parts** builds the constructors of their classes. -/
theorem Plan.builtFrom_parts {formatter : Formatter} {settings : Settings}
    {lookup : ConstructorLookup} :
    ∀ {parts done : List Part} {className : Option String} {d e : Draft}, d.Sound className →
      d.store.BuiltFrom formatter done → Part.Distinct (done ++ parts) →
      parts.foldlM (Plan.visitPart formatter settings lookup) d = .ok e →
      e.store.BuiltFrom formatter (done ++ parts)
  | [], done, className, d, e, _, hdone, _, h => by
    cases h
    rwa [List.append_nil]
  | p :: rest, done, className, d, e, hd, hdone, hdistinct, h => by
    rw [List.foldlM_cons, bind_eq_ok] at h
    obtain ⟨f, hf, h⟩ := h
    -- the parts done so far are what the induction generalises over
    have hp := hdone.visitPart hd
      (fun q hq name => (List.pairwise_append.mp hdistinct).2.2 q hq p List.mem_cons_self name) hf
    rw [List.append_cons] at hdistinct ⊢
    exact Plan.builtFrom_parts (Part.above hd hf).1 hp hdistinct h

/-- **A run builds the constructors of the classes of its scene.** -/
theorem Plan.builtFrom {policy : NamePolicy} {scene : Scene} {lookup : ConstructorLookup}
    {settings : Settings} {plan : Plan}
    (h : Plan.ofSceneWith policy scene lookup settings = .ok plan) :
    plan.store.BuiltFrom ⟨scene.definitions, policy⟩ scene.parts := by
  rw [Plan.ofSceneWith, bind_eq_ok] at h
  obtain ⟨d, hd, h⟩ := h
  cases h
  have hnone : Store.BuiltFrom ⟨scene.definitions, policy⟩ [] Draft.empty.store := by
    refine ⟨fun j hj => ?_, fun j k name hj => ?_⟩ <;>
      exact absurd hj.lt_size (Nat.not_lt_zero _)
  have hdistinct : Part.Distinct ([] ++ scene.parts) := scene.distinct_parts
  have hbuilt := Plan.builtFrom_parts (Draft.sound_empty none) hnone hdistinct hd
  rwa [List.nil_append] at hbuilt

/-- **There is at most one constructor for a class.** -/
theorem Plan.constructor_unique {policy : NamePolicy} {scene : Scene}
    {lookup : ConstructorLookup} {settings : Settings} {plan : Plan}
    (h : Plan.ofSceneWith policy scene lookup settings = .ok plan) {j k : InsertionId}
    {name : String}
    (hj : plan.store.Has (fun i => i.IsConstructor ∧ i.className? = some name) j)
    (hk : plan.store.Has (fun i => i.IsConstructor ∧ i.className? = some name) k) : j = k :=
  (Plan.builtFrom h).unique j k name hj hk

end AnnotationPlan
