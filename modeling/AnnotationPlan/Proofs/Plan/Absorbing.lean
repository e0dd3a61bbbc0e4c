import AnnotationPlan.Proofs.Draft.Absorbing
import AnnotationPlan.Proofs.Draft.Attribution
import AnnotationPlan.Proofs.Plan.Constructors
import AnnotationPlan.Proofs.Plan.Exclusive
import AnnotationPlan.Proofs.Plan.Making
import AnnotationPlan.Proofs.Plan.Order

/-!
# What the constructor of a class takes up

Where a constructor is written for a class, each single annotation on the constructor without
parameters has one place (`Plan.constructor_absorbs`): on the name of the constructor if it is
on the result, above the constructor if it belongs to a declaration, and in the output if it
stands on types only. The account of a constructor is in balance when its class has been
worked off, and what comes afterwards leaves it so (`Draft.Balanced.visitPart`): it makes
insertions of other classes only, and puts nothing else into the output.

That each key leads further into its type is needed. What is within a type by a key that leads
nowhere is in the place of the type itself, and where it is withheld, nothing takes it up.
-/

namespace AnnotationPlan

open Insertion

/-- **What is made at a spot** is in the class of the spot. -/
theorem Insertion.MadeAt.className?_eq {ctx : Context} {p : Spot} {className : Option String}
    {i : Insertion} (h : i.MadeAt ctx p) (hp : p.Fits className) : i.className? = className := by
  cases h with
  | single n note form => exact (p.className?_insertion n).trans hp.className?_eq
  | _ => exact hp.className?_eq

/-- **If all keys lead further into types**, the positions within the types of a part have
paths into them. -/
theorem Scene.KeysLeadIn.hasTypePath {scene : Scene} (h : scene.KeysLeadIn) {p : Part}
    (hp : p ∈ scene.parts) :
    ∀ s ∈ p.sites, ∀ q ∈ s.nested, q.criteria.compose.hasTypePath = true := by
  rw [← p.map_items]
  refine List.forall_mem_map.mpr (fun i hi => Item.hasTypePath_of_mem_nested (h i ?_))
  exact scene.items_eq ▸ List.mem_flatMap_of_mem hp hi

namespace Part

variable {formatter : Formatter} {settings : Settings} {lookup : ConstructorLookup}
  {className : Option String} {d e : Draft} {p : Part}

/-- **A part puts into the output what it has made**, and nothing else. -/
theorem later (hd : d.IsBounded)
    (hpaths : ∀ s ∈ p.sites, ∀ q ∈ s.nested, q.criteria.compose.hasTypePath = true)
    (h : Plan.visitPart formatter settings lookup d p = .ok e) : d.Later e := by
  have hstart : (p.start settings lookup d).IsBounded ∧ d.Later (p.start settings lookup d) := by
    cases p with
    | type name element => exact ⟨hd, .of_eq (Nat.le_refl _) rfl⟩
    | _ => exact ⟨hd, .refl d⟩
  exact hstart.2.trans (Draft.worked_visits hstart.1 hpaths
    (foldlM_of_visitPart formatter settings lookup h)).1.later

/-- **What a part has made** is in its class, and lets the store grow. -/
theorem className?_of_le (hd : d.Sound className)
    (h : Plan.visitPart formatter settings lookup d p = .ok e) :
    d.store.Grows e.store ∧ ∀ id i, d.store.size ≤ id → e.store.get? id = some i →
      i.className? = p.className? := by
  have hsites := foldlM_of_visitPart formatter settings lookup h
  have hchain := ((p.sound_start settings lookup hd).chain p.fits_sites hsites).2
  rw [p.store_start] at hchain
  refine ⟨hchain.grows, fun id i hid hi => ?_⟩
  obtain ⟨v, hv, hmakes⟩ := hchain.exists_makes hid (Store.lt_size hi)
  obtain ⟨className', f, hleads⟩ := hchain.exists_leadsTo v hv
  obtain ⟨q, hq, hmade⟩ := hleads.madeAt hmakes hi
  -- the visit is to a site of the part
  have hmem : (v.ctx, v.site) ∈ _ := Draft.map_visits hsites ▸ List.mem_map_of_mem hv
  obtain ⟨s, hs, heq⟩ := List.mem_map.mp hmem
  obtain ⟨-, hsite⟩ := Prod.mk.inj heq
  exact hmade.className?_eq ((p.fits_sites s hs).spots q (hsite ▸ hq))

/-- **What a part has made** is on the constructor of no other class. -/
theorem isOff_of_le {name : String} (hd : d.Sound className)
    (h : Plan.visitPart formatter settings lookup d p = .ok e) (hname : p.className? ≠ some name)
    {id : InsertionId} {i : Insertion} (hid : d.store.size ≤ id)
    (hi : e.store.get? id = some i) : i.isOnConstructorOf name = false := by
  rw [← Bool.not_eq_true]
  exact fun hon => hname (((className?_of_le hd h).2 id i hid hi).symm.trans
    (className?_of_isOnConstructorOf hon))

end Part

namespace Draft

variable {name : String} {d e : Draft}

/-- **A class is begun** with an account in balance: there is no constructor, and nothing that
it could take up. -/
theorem Accounts.begin (hnone : d.constructor = none)
    (hoff : ∀ id i, d.store.get? id = some i → i.isOnConstructorOf name = false) :
    d.Accounts name [] := by
  have hdeclared : d.declared = [] := by
    rw [declared, hnone]
    rfl
  refine ⟨fun id hid => absurd (hdeclared ▸ hid) List.not_mem_nil, hdeclared ▸ .nil,
    fun id hid => absurd hid List.not_mem_nil, ?_, fun id i hi hon _ => ?_⟩
  · have hnames : d.nameTexts = [] := by
      rw [nameTexts, hnone]
      rfl
    rw [hnames]
    refine (List.filterMap_eq_nil_iff.mpr (fun i hi => ?_)).symm
    obtain ⟨id, hid⟩ := List.mem_iff_getElem?.mp hi
    exact resultText?_eq_none (hoff id i (by rwa [Array.getElem?_toList] at hid))
  · rw [hoff id i hi] at hon
    cases hon

/-- **All accounts are in balance** after some parts were worked off. -/
structure Balanced (done : List Part) (d : Draft) : Prop where
  /-- Insertions are in the classes of these parts. -/
  inClass : ∀ id i, d.store.get? id = some i → ∃ p ∈ done, i.className? = p.className?
  /-- The account of every constructor is in balance. -/
  accounts : ∀ name c, d.store.Has (fun i => i.IsConstructor ∧ i.className? = some name) c →
    Accounts name [] { d with constructor := some c }

theorem Balanced.empty : Draft.empty.Balanced [] :=
  ⟨fun _ _ hi => absurd (Store.lt_size hi) (Nat.not_lt_zero _),
    fun _ _ hc => absurd hc.lt_size (Nat.not_lt_zero _)⟩

section Run

variable {formatter : Formatter} {settings : Settings} {lookup : ConstructorLookup}
  {className : Option String} {done : List Part} {p : Part}

section OnePart

variable (hd : d.Sound className)
  (hpaths : ∀ s ∈ p.sites, ∀ q ∈ s.nested, q.criteria.compose.hasTypePath = true)
  (hp : Plan.visitPart formatter settings lookup d p = .ok e)
include hd hpaths hp

/-- **A part leaves the constructors of other classes alone**, and their accounts in balance. -/
theorem Accounts.visitPart {c : InsertionId} {i : Insertion} (hi : d.store.get? c = some i)
    (h : Accounts name [] { d with constructor := some c }) (hother : p.className? ≠ some name) :
    Accounts name [] { e with constructor := some c } := by
  obtain ⟨-, ⟨written, habove⟩, -⟩ := Part.above hd hp
  obtain ⟨new, hplaced, hmade⟩ := (Part.later hd.placed_lt hpaths hp).placed
  have hi' : e.store.get? c = some i := (habove.same c (Store.lt_size hi)).trans hi
  have hreverse : e.placed = new.reverse.reverse ++ d.placed := by
    rw [List.reverse_reverse, hplaced]
  refine h.grow (e := { e with constructor := some c }) new.reverse
    (Part.className?_of_le hd hp).1 (fun _ _ => Part.isOff_of_le hd hp hother) ?_ ?_ hreverse
    (fun id hid => ?_)
  · exact (declared_of_get? (d := { e with constructor := some c }) rfl hi').trans
      (declared_of_get? (d := { d with constructor := some c }) rfl hi).symm
  · exact (nameTexts_of_get? (d := { e with constructor := some c }) rfl hi').trans
      (nameTexts_of_get? (d := { d with constructor := some c }) rfl hi).symm
  · obtain ⟨hle, hlt⟩ := hmade id (List.mem_reverse.mp hid)
    obtain ⟨k, hk⟩ := Store.exists_get? hlt
    exact ⟨k, hk, Part.isOff_of_le hd hp hother hle hk⟩

/-- **A part balances the account of its own constructor**, if there was nothing on it before. -/
theorem accounts_visitPart (hclass : p.className? = some name)
    (hoff : ∀ id i, d.store.get? id = some i → i.isOnConstructorOf name = false)
    (hwrites : (p.context formatter settings lookup).writesConstructor = true) :
    e.Accounts name [] := by
  have hstart : (p.start settings lookup d).Accounts name [] := by
    refine Accounts.begin ?_ (fun id k hk => hoff id k ?_)
    · cases p with
      | type name element => rfl
      | _ => cases hclass
    · rwa [p.store_start] at hk
  exact accounts_visits hwrites (fun s hs => hclass ▸ p.fits_sites s hs) hpaths
    (hclass ▸ p.sound_start settings lookup hd) hstart
    (Part.foldlM_of_visitPart formatter settings lookup hp)

/-- **A part balances the account of its constructor**, and leaves those that are there in
balance. -/
theorem Balanced.visitPart (h : d.Balanced done)
    (hdistinct : ∀ q ∈ done, ∀ name, q.className? = some name → p.className? ≠ some name) :
    e.Balanced (done ++ [p]) := by
  obtain ⟨-, ⟨written, habove⟩, -⟩ := Part.above hd hp
  have hnew := (Part.className?_of_le hd hp).2
  refine ⟨fun id i hi => ?_, fun name c ⟨i, hi, hkind, hname⟩ => ?_⟩
  · by_cases hlt : id < d.store.size
    · obtain ⟨q, hq, hname⟩ := h.inClass id i (habove.same id hlt ▸ hi)
      exact ⟨q, List.mem_append_left _ hq, hname⟩
    · exact ⟨p, List.mem_append_right _ List.mem_cons_self, hnew id i (Nat.le_of_not_lt hlt) hi⟩
  · by_cases hlt : c < d.store.size
    case pos =>
      have hi' : d.store.get? c = some i := habove.same c hlt ▸ hi
      obtain ⟨q, hq, hqname⟩ := h.inClass c i hi'
      exact (h.accounts name c ⟨i, hi', hkind, hname⟩).visitPart hd hpaths hp hi'
        (hdistinct q hq name (hqname.symm.trans hname))
    case neg =>
      have hle := Nat.le_of_not_lt hlt
      obtain ⟨hwrites, hconstructor⟩ := habove.only c hle ⟨i, hi, hkind⟩
      have hclass : p.className? = some name := (hnew c i hle hi).symm.trans hname
      -- before the part there was nothing on the constructor of its class
      have hall : e.Accounts name [] := by
        refine accounts_visitPart hd hpaths hp hclass (fun id k hk => ?_) hwrites
        rw [← Bool.not_eq_true]
        intro hon
        obtain ⟨q, hq, hqname⟩ := h.inClass id k hk
        exact hdistinct q hq name (hqname.symm.trans (className?_of_isOnConstructorOf hon)) hclass
      obtain ⟨store, placed, sources, imports, warnings, constructor⟩ := e
      obtain rfl : constructor = some c := hconstructor
      exact hall

end OnePart

/-- **A run through parts balances the accounts** of the constructors of their classes. -/
theorem Balanced.visitParts :
    ∀ {parts done : List Part} {className : Option String} {d : Draft}, d.Sound className →
      d.Balanced done → Part.Distinct (done ++ parts) →
      (∀ p ∈ parts, ∀ s ∈ p.sites, ∀ q ∈ s.nested, q.criteria.compose.hasTypePath = true) →
      parts.foldlM (Plan.visitPart formatter settings lookup) d = .ok e →
      e.Balanced (done ++ parts)
  | [], done, _, _, _, hdone, _, _, h => by
    cases h
    rwa [List.append_nil]
  | p :: rest, done, className, d, hd, hdone, hdistinct, hpaths, h => by
    obtain ⟨hp, hrest⟩ := List.forall_mem_cons.mp hpaths
    rw [List.foldlM_cons] at h
    obtain ⟨f, hf, h⟩ := bind_eq_ok.mp h
    have hone := hdone.visitPart hd hp hf
      (fun q hq name => (List.pairwise_append.mp hdistinct).2.2 q hq p List.mem_cons_self name)
    rw [List.append_cons] at hdistinct ⊢
    exact visitParts (Part.above hd hf).1 hone hdistinct hrest h

end Run

/-- **Nothing refers to a single annotation** that is not within a type and attached to no
constructor. -/
theorem Attributed.not_mem_references {formatter : Formatter} (h : d.Attributed formatter)
    {id : InsertionId} {text : String} {l : CriteriaList} {separateLine : Bool}
    (hi : d.store.get? id = some (.single text l separateLine))
    (hpath : l.compose.hasTypePath = false) (hfree : id ∉ d.store.attached) :
    ∀ k i, d.store.get? k = some i → id ∉ i.references := by
  intro k i hk hmem
  rw [references, List.append_assoc] at hmem
  rcases List.mem_append.mp hmem with hinner | hattached
  · -- what is gathered is within a type
    obtain ⟨j, hj, hnested⟩ := h.inner k i hk id hinner
    obtain rfl := Option.some.inj (hi.symm.trans hj)
    cases hpath.symm.trans hnested
  · exact hfree (List.mem_flatMap.mpr
      ⟨i, Array.mem_toList_iff.mpr (Array.mem_of_getElem? hk), hattached⟩)

end Draft

namespace Plan

/-- Working off a part leaves every single annotation with its source. -/
theorem visitPart_attributed {formatter : Formatter} {settings : Settings}
    {lookup : ConstructorLookup} {p : Part} {d e : Draft} (h : d.Attributed formatter)
    (hpaths : ∀ s ∈ p.sites, ∀ q ∈ s.nested, q.criteria.compose.hasTypePath = true)
    (hok : visitPart formatter settings lookup d p = .ok e) : e.Attributed formatter := by
  have hstart : (p.start settings lookup d).Attributed formatter := by
    cases p with
    | type name element => exact h.start _
    | _ => exact h
  have hformatter : (p.context formatter settings lookup).formatter = formatter := by
    cases p <;> rfl
  refine keeps_of_foldlM (I := fun d => d.Attributed formatter) (fun s hs a b ha hb => ?_) hstart
    (Part.foldlM_of_visitPart formatter settings lookup hok)
  have hattributed := Draft.visit_attributed (hformatter.symm ▸ ha) (hpaths s hs) hb
  rwa [hformatter] at hattributed

/-- **What the constructor takes up.** If all keys in a scene lead further into types, then in
a successful run the annotations on the name of a constructor are those on the result of the
constructor without parameters, in the order in which they were made, and what is above it is
in that order, too. Every single annotation on the constructor without parameters of the class
has one source; if it is on the result, it is neither in the output nor above the constructor;
otherwise it is above the constructor and not in the output, unless its definition is for types
only, and then it is in the output and nothing refers to it. -/
theorem constructor_absorbs {policy : NamePolicy} {scene : Scene} {lookup : ConstructorLookup}
    {settings : Settings} {plan : Plan}
    (h : ofSceneWith policy scene lookup settings = .ok plan) (hkeys : scene.KeysLeadIn)
    {c : InsertionId} {name : String} {place : CriteriaList} {type : JavaType}
    {receiver : Option InsertionId} {declarations : List InsertionId}
    (hc : plan.store.get? c = some (.constructor place type receiver declarations))
    (hname : place.compose.className? = some name) :
    type.annotations = plan.store.resultTexts name
    ∧ declarations.Pairwise (· < ·)
    ∧ ∀ id text l separateLine, plan.store.get? id = some (.single text l separateLine) →
        l.compose.isOnConstructorOf name = true →
        ∃ u a, plan.sources.get id = [u]
          ∧ Formatter.definition ⟨scene.definitions, policy⟩ u = .ok a
          ∧ if l.compose.isOnReturnType then id ∉ plan.order ∧ id ∉ declarations
            else if a.isTypeOnly then
              id ∈ plan.order ∧ ∀ k i, plan.store.get? k = some i → id ∉ i.references
            else id ∉ plan.order ∧ id ∈ declarations := by
  obtain ⟨f, className, hstore, horder, -, -, hexclusive⟩ :=
    (visits_yields Work.exclusive_invariant policy scene lookup settings).of_ok h
  have hapart : ∀ id ∈ plan.order, id ∉ plan.store.attached := by
    intro id hid hattached
    have hone := (hexclusive id).1
    rw [hstore] at hattached
    rw [horder, List.mem_reverse] at hid
    simp only [Work.uses, List.count_nil] at hone
    have := List.count_pos_iff.mpr hid
    have := List.count_pos_iff.mpr hattached
    omega
  obtain ⟨d, hd, h⟩ := bind_eq_ok.mp h
  cases h
  have hpaths := fun p hp => hkeys.hasTypePath (p := p) hp
  have hbalanced : d.Balanced ([] ++ scene.parts) :=
    Draft.Balanced.empty.visitParts (Draft.sound_empty none) scene.distinct_parts hpaths hd
  have hattributed : d.Attributed ⟨scene.definitions, policy⟩ :=
    keeps_of_foldlM (I := fun d => d.Attributed ⟨scene.definitions, policy⟩)
      (fun p hp a b ha hb => visitPart_attributed ha (hpaths p hp) hb) (.empty _) hd
  have haccounts := hbalanced.accounts name c ⟨_, hc, trivial, hname⟩
  let g : Draft := { d with constructor := some c }
  have hdeclared : g.declared = declarations := Draft.declared_of_get? (d := g) rfl hc
  have hnames : g.nameTexts = type.annotations := Draft.nameTexts_of_get? (d := g) rfl hc
  refine ⟨?_, hdeclared ▸ haccounts.ordered, fun id text l separateLine hi hon => ?_⟩
  · rw [← hnames, ← haccounts.texts, List.filterMap_nil, List.append_nil]
  obtain ⟨u, a, hsource, ha, hline⟩ := hattributed.source id text l separateLine hi
  refine ⟨u, a, hsource, ha, ?_⟩
  have hsettled : if l.compose.isOnReturnType then id ∉ d.placed ∧ id ∉ declarations
      else if !a.isTypeOnly then id ∉ d.placed ∧ id ∈ declarations
      else id ∈ d.placed ∧ id ∉ declarations := by
    rw [← hdeclared, ← hline]
    exact haccounts.settled id _ hi hon List.not_mem_nil
  simp only [List.mem_reverse]
  cases hresult : l.compose.isOnReturnType with
  | true => rwa [hresult] at hsettled
  | false =>
    rw [hresult] at hsettled
    cases htypes : a.isTypeOnly with
    | false => rwa [htypes] at hsettled
    | true =>
      rw [htypes] at hsettled
      exact ⟨hsettled.1, hattributed.not_mem_references hi
        (Criteria.isOnConstructorOf_iff.mp hon).2.2 (hapart id (List.mem_reverse.mpr hsettled.1))⟩

end Plan

/-- **A class without a constructor** that has an annotation of each kind on it: one that
belongs to a declaration, one for types only, and one on the result. -/
def Scene.annotatedConstructor : Scene where
  definitions := .ofList [{ name := "A", targets := some [.typeUse] }, { name := "M" }]
  packages := .empty
  classes := .ofList [("C", { (default : ClassElement) with
    methods := .ofList [(implicitConstructor, { (default : MethodElement) with
      annotations := [.ofName "M", .ofName "A"]
      returnType := ⟨[.ofName "A"], []⟩ })] })]

namespace Plan

/-- Each of them is where it belongs: the first one above the constructor, the second one in
the output behind the constructor, and the third one on its name. -/
theorem annotatedConstructor_absorbs :
    Scene.annotatedConstructor.KeysLeadIn
    ∧ ∃ plan place type receiver,
      ofSceneWith ⟨[]⟩ Scene.annotatedConstructor .implicit {} = .ok plan ∧ plan.order = [1, 2]
      ∧ plan.store.get? 1 = some (.constructor place type receiver [0])
      ∧ place.compose.className? = some "C"
      ∧ plan.store.resultTexts "C" = ["@A"] ∧ type.annotations = plan.store.resultTexts "C"
      ∧ ∀ id text l separateLine, plan.store.get? id = some (.single text l separateLine) →
          l.compose.isOnConstructorOf "C" = true →
          ∃ u a, plan.sources.get id = [u]
            ∧ Formatter.definition ⟨Scene.annotatedConstructor.definitions, ⟨[]⟩⟩ u = .ok a
            ∧ if l.compose.isOnReturnType then id ∉ plan.order ∧ id ∉ [0]
              else if a.isTypeOnly then
                id ∈ plan.order ∧ ∀ k i, plan.store.get? k = some i → id ∉ i.references
              else id ∉ plan.order ∧ id ∈ [0] := by
  have hkeys : Scene.annotatedConstructor.KeysLeadIn := List.all_eq_true.mp rfl
  obtain ⟨plan, place, type, receiver, hplan, horder, hc, hname, hresult⟩ :
      ∃ plan place type receiver,
        ofSceneWith ⟨[]⟩ Scene.annotatedConstructor .implicit {} = .ok plan ∧ plan.order = [1, 2]
        ∧ plan.store.get? 1 = some (.constructor place type receiver [0])
        ∧ place.compose.className? = some "C"
        ∧ plan.store.resultTexts "C" = ["@A"] := ⟨_, _, _, _, rfl, rfl, rfl, rfl, rfl⟩
  obtain ⟨htexts, -, hall⟩ := constructor_absorbs hplan hkeys hc hname
  exact ⟨hkeys, plan, place, type, receiver, hplan, horder, hc, hname, hresult, htexts, hall⟩

end Plan

end AnnotationPlan
