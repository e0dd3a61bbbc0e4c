import AnnotationPlan.Proofs.Draft.Declared
import AnnotationPlan.Proofs.Plan.Constructors
import AnnotationPlan.Proofs.Plan.Safety
import AnnotationPlan.Proofs.Plan.Shuffled

/-!
# What constructors have above them

A constructor that is written for a class is there for annotations: its text is the annotations
above it, each on a line of its own, and then the constructor itself with its receiver. But
what goes above it is all that was made for an annotation that belongs to a declaration, and
that need not be an annotation (`Plan.castOnConstructor_above`): for a created object it is the
text of its type, and for a cast it is the opening of the cast and its parenthesis.

`Plan.constructor_declares` tells exactly what is there. A constructor is made while the part of
its class is worked off (`Plan.exists_visitPart`); then the census of the draft tells what
has gone above it, and afterwards nothing happens to it any more.
-/

namespace AnnotationPlan

open Insertion

/-! ## The text of a constructor -/

/-- What is computed for the members of a list depends on the members only. -/
theorem mapM_congr {α β ε : Type} {f g : β → Except ε α} :
    ∀ {xs : List β}, (∀ x ∈ xs, f x = g x) → xs.mapM f = xs.mapM g
  | [], _ => rfl
  | x :: rest, h => by
    obtain ⟨hx, hrest⟩ := List.forall_mem_cons.mp h
    rw [List.mapM_cons, List.mapM_cons, hx, mapM_congr hrest]

namespace Store

variable {s : Store} {c id : InsertionId} {i : Insertion}

/-- An insertion that is no constructor is written without a look at others. -/
theorem renderWithin_succ (hi : s.get? id = some i) (hkind : ¬ i.IsConstructor) (n : Nat) :
    s.renderWithin (n + 1) id = s.render id := by
  rw [render, renderWithin, renderWithin, lookup_eq_ok.mpr hi]
  cases i with
  | constructor => exact absurd trivial hkind
  | _ => rfl

/-- **The text of a constructor**: the texts of what is above it, each on a line of its own, and
then the constructor itself with the text of its receiver. -/
theorem Wired.exists_render_constructor (h : s.Wired) {criteria : CriteriaList} {type : JavaType}
    {receiver : Option InsertionId} {declarations : List InsertionId}
    (hc : s.get? c = some (.constructor criteria type receiver declarations)) :
    ∃ lines parameter, declarations.mapM s.render = .ok lines
      ∧ receiver.elim (.ok "") s.render = .ok parameter
      ∧ s.render c = .ok (String.join (lines.map (· ++ "\n"))
        ++ "public " ++ type.text ++ "(" ++ parameter ++ ") \x7b super(); \x7d") := by
  obtain ⟨-, hreceiver, hdeclarations⟩ := h c _ hc
  have hrender : ∀ id, id < s.size → ∃ text, s.render id = .ok text := fun id hid =>
    exists_render h.closed h.acyclic h.receiversInClass hid
  obtain ⟨n, hn⟩ : ∃ n, s.size = n + 1 :=
    Nat.exists_eq_succ_of_ne_zero (Nat.ne_of_gt (Nat.zero_lt_of_lt (lt_size hc)))
  -- neither what is above it nor the receiver is a constructor
  have habove : ∀ id ∈ declarations, s.renderWithin (n + 1) id = s.render id := fun id hid => by
    obtain ⟨i, hi, hkind, -⟩ := hdeclarations id hid
    exact renderWithin_succ hi (fun hk => by cases i <;> first | exact hk | exact hkind) n
  have hparameter : receiver.elim (.ok "") (s.renderWithin (n + 1))
      = receiver.elim (.ok "") s.render := by
    cases hr : receiver with
    | none => rfl
    | some r =>
      obtain ⟨i, hi, hkind, -⟩ := hreceiver r hr
      exact renderWithin_succ hi (fun hk => by cases i <;> first | exact hk | exact hkind) n
  obtain ⟨lines, hlines⟩ : ∃ lines, declarations.mapM s.render = .ok lines :=
    exists_mapM_ok (fun id hid => hrender id (hdeclarations id hid).lt_size)
  obtain ⟨parameter, hp⟩ : ∃ parameter, receiver.elim (.ok "") s.render = .ok parameter := by
    cases hr : receiver with
    | none => exact ⟨"", rfl⟩
    | some r => exact hrender r (hreceiver r hr).lt_size
  refine ⟨lines, parameter, hlines, hp, ?_⟩
  have hlines' : declarations.mapM (s.renderWithin (n + 1)) = .ok lines := by
    rw [← hlines]
    exact mapM_congr habove
  rw [render, hn, renderWithin, lookup_eq_ok.mpr hc]
  refine bind_eq_ok.mpr ⟨_, rfl, bind_eq_ok.mpr ⟨lines, hlines', ?_⟩⟩
  cases receiver with
  | none =>
    obtain rfl : "" = parameter := Except.ok.inj hp
    rfl
  | some r => exact bind_eq_ok.mpr ⟨parameter, hparameter.trans hp, rfl⟩

end Store

/-! ## The part that a constructor is made in -/

/-- **What goes above the constructor** at the spots of a part. -/
def Part.declaredTags (formatter : Formatter) (settings : Settings) (lookup : ConstructorLookup)
    (p : Part) : List Tag :=
  p.sites.flatMap (Site.declaredTags (p.context formatter settings lookup))

section Parts

variable {formatter : Formatter} {settings : Settings} {lookup : ConstructorLookup}

/-- A part that is worked off leaves a draft that can be counted. -/
theorem Part.exists_counted {d e : Draft} {p : Part} (h : ∃ t, d.Counted t)
    (hok : Plan.visitPart formatter settings lookup d p = .ok e) : ∃ t, e.Counted t := by
  obtain ⟨t, ht⟩ := h
  have hstart : ∃ t, (p.start settings lookup d).Counted t := by
    cases p with
    | type name element => exact ⟨_, ht.start _⟩
    | _ => exact ⟨t, ht⟩
  obtain ⟨t', ht'⟩ := hstart
  exact ⟨_, ht'.visits (foldlM_of_visitPart formatter settings lookup hok)⟩

namespace Plan

/-- **Every insertion is made in a part**, between those before it and those after it. -/
theorem exists_visitPart {id : InsertionId} {e : Draft} :
    ∀ {parts : List Part} {d : Draft},
      parts.foldlM (visitPart formatter settings lookup) d = .ok e → d.store.size ≤ id →
      id < e.store.size →
      ∃ before p after f g, parts = before ++ p :: after
        ∧ before.foldlM (visitPart formatter settings lookup) d = .ok f
        ∧ visitPart formatter settings lookup f p = .ok g
        ∧ after.foldlM (visitPart formatter settings lookup) g = .ok e
        ∧ f.store.size ≤ id ∧ id < g.store.size
  | [], d, h, hle, hlt => by
    cases h
    exact absurd hlt (Nat.not_lt.mpr hle)
  | p :: rest, d, h, hle, hlt => by
    rw [List.foldlM_cons] at h
    obtain ⟨g, hg, h⟩ := bind_eq_ok.mp h
    by_cases hmade : id < g.store.size
    · exact ⟨[], p, rest, d, g, rfl, rfl, hg, h, hle, hmade⟩
    · obtain ⟨before, q, after, f, g', rfl, hbefore, hq, hafter, hmade⟩ :=
        exists_visitPart h (Nat.le_of_not_lt hmade) hlt
      refine ⟨p :: before, q, after, f, g', rfl, ?_, hq, hafter, hmade⟩
      rw [List.foldlM_cons, hg]
      exact hbefore

/-- **What is there before some parts** stays as it is while they are worked off. -/
theorem get?_of_lt {e : Draft} :
    ∀ {parts : List Part} {className : Option String} {d : Draft}, d.Sound className →
      parts.foldlM (visitPart formatter settings lookup) d = .ok e →
      ∀ j < d.store.size, e.store.get? j = d.store.get? j
  | [], _, _, _, h, _, _ => by
    cases h
    rfl
  | p :: rest, className, d, hd, h, j, hj => by
    rw [List.foldlM_cons] at h
    obtain ⟨f, hf, h⟩ := bind_eq_ok.mp h
    obtain ⟨hsound, ⟨written, habove⟩, -⟩ := Part.above hd hf
    exact (get?_of_lt hsound h j (Nat.lt_of_lt_of_le hj habove.le_size)).trans (habove.same j hj)

/-- **What is above a constructor** is what goes there at the spots of its part. The constructor
is written for the class of this part, and all annotations there can be written. -/
theorem exists_part_of_constructor {parts : List Part} {e : Draft} {c : InsertionId}
    {place : CriteriaList} {type : JavaType} {receiver : Option InsertionId}
    {declarations : List InsertionId}
    (h : parts.foldlM (visitPart formatter settings lookup) Draft.empty = .ok e)
    (hc : e.store.get? c = some (.constructor place type receiver declarations)) :
    ∃ name element, Part.type name element ∈ parts ∧ place.compose.className? = some name
      ∧ WritesConstructor settings lookup name
      ∧ (∀ s ∈ (Part.type name element).sites, ∀ p ∈ s.spots,
          ∃ notes, formatter.notes p.criteria p.annotations = .ok notes)
      ∧ (declarations.map e.store.tag?).Perm
          (((Part.type name element).declaredTags formatter settings lookup).map some) := by
  obtain ⟨before, p, after, f, g, rfl, hbefore, hp, hafter, hle, hlt⟩ :=
    exists_visitPart h (Nat.zero_le c) (Store.lt_size hc)
  obtain ⟨⟨className, hf⟩, hcounted⟩ :=
    keeps_of_foldlM (I := fun d => (∃ className, d.Sound className) ∧ ∃ t, d.Counted t)
      (fun q _ a b ⟨⟨_, ha⟩, hcount⟩ hb =>
        ⟨⟨_, (Part.above ha hb).1⟩, Part.exists_counted hcount hb⟩)
      ⟨⟨none, Draft.sound_empty none⟩, _, .empty⟩ hbefore
  obtain ⟨hsound, ⟨written, habove⟩, hsites⟩ := Part.above hf hp
  have hsame := get?_of_lt hsound hafter
  have hget : g.store.get? c = some (.constructor place type receiver declarations) :=
    (hsame c hlt).symm.trans hc
  obtain ⟨hwrites, hconstructor⟩ := habove.only c hle ⟨_, hget, trivial⟩
  cases p with
  | nameless name => cases hwrites
  | package name annotations => cases hwrites
  | type name element =>
    obtain ⟨i, hi, -, hname⟩ := hsound.constructor_has c hconstructor
    obtain rfl := Option.some.inj (hget.symm.trans hi)
    obtain ⟨t, ht⟩ := hcounted
    have hperm := Draft.declared_visits (ht.start _)
      (Part.sound_start settings lookup (.type name element) hf) rfl hsites
    rw [Draft.declared_of_get? hconstructor hget] at hperm
    have htags : declarations.map e.store.tag? = declarations.map g.store.tag? := by
      refine List.map_congr_left (fun id hid => ?_)
      have hdeclared := (hsound.wired c _ hget).2.2 id hid
      unfold Store.tag?
      rw [hsame id hdeclared.lt_size]
    exact ⟨name, element, List.mem_append_right _ List.mem_cons_self,
      hname (Option.some_ne_none _), writesConstructor_iff.mpr hwrites,
      Draft.exists_notes_of_visits hsites, htags ▸ hperm⟩

end Plan

end Parts

/-! ## What constructors have above them -/

/-- **All insertions are single annotations** if that is what they are called. -/
theorem Store.forall_isSingle_iff {s : Store} {ids : List InsertionId} {tags : List Tag}
    (hperm : (ids.map s.tag?).Perm (tags.map some)) :
    (∀ id ∈ ids, s.Has IsSingle id) ↔ ∀ tag ∈ tags, tag.1 = "annotation" := by
  constructor
  · intro h tag htag
    obtain ⟨id, hid, hsome⟩ := List.mem_map.mp (hperm.mem_iff.mpr (List.mem_map_of_mem htag))
    obtain ⟨i, hi, rfl⟩ := Store.tag?_eq_some.mp hsome
    obtain ⟨j, hj, hsingle⟩ := h id hid
    obtain rfl := Option.some.inj (hi.symm.trans hj)
    exact isSingle_iff.mp hsingle
  · intro h id hid
    obtain ⟨tag, htag, hsome⟩ := List.mem_map.mp (hperm.mem_iff.mp (List.mem_map_of_mem hid))
    obtain ⟨i, hi, rfl⟩ := Store.tag?_eq_some.mp hsome.symm
    exact ⟨i, hi, isSingle_iff.mpr (h _ htag)⟩

namespace Part

variable {formatter : Formatter} {settings : Settings} {lookup : ConstructorLookup} {name : String}
  {element : ClassElement}

/-- **Only annotations go above the constructor** of a class, unless there is a created object
or a cast on it whose first annotation belongs to a declaration. -/
theorem forall_declaredTags_iff (hwrites : Plan.WritesConstructor settings lookup name)
    (hnotes : ∀ s ∈ (Part.type name element).sites, ∀ p ∈ s.spots,
      ∃ notes, formatter.notes p.criteria p.annotations = .ok notes) :
    (∀ tag ∈ (Part.type name element).declaredTags formatter settings lookup,
        tag.1 = "annotation")
      ↔ ∀ p ∈ (Part.type name element).spots, p.FirstDecides settings lookup →
          formatter.firstTypeOnly? p.annotations ≠ some false := by
  let part : Part := .type name element
  unfold Part.declaredTags Part.spots
  rw [List.forall_mem_flatMap, List.forall_mem_flatMap]
  refine forall₂_congr (fun s hs => ?_)
  rw [(part.fits_sites s hs).forall_declaredTags_iff]
  refine forall₂_congr (fun p hp => ?_)
  obtain ⟨notes, hn⟩ := hnotes s hs p hp
  rw [Context.flags_eq hn, List.head?_map]
  have hfirst : notes.head?.map Note.typeOnly = formatter.firstTypeOnly? p.annotations :=
    Formatter.head?_notes hn
  rw [hfirst]
  refine ⟨fun h hdecides => h hdecides.1 ?_, fun h hform on => h (firstDecides hs hp hform on)⟩
  obtain ⟨-, hpath, himplicit, -⟩ := hdecides
  exact Context.onConstructor_iff.mpr ⟨hpath, Plan.writesConstructor_iff.mp hwrites, himplicit⟩

end Part

namespace Plan

/-- **What constructors have above them.** In a successful run the receiver of a constructor is a
receiver, and the text of a constructor consists of the texts of what is above it, each on a
line of its own, and of the constructor itself. Above it is what goes there at the spots of
its class; and that is single annotations only exactly if no created object, and no cast, on
the constructor without parameters has a first annotation that belongs to a declaration. -/
theorem constructor_declares {policy : NamePolicy} {scene : Scene} {lookup : ConstructorLookup}
    {settings : Settings} {plan : Plan}
    (h : ofSceneWith policy scene lookup settings = .ok plan) {c : InsertionId}
    {place : CriteriaList} {type : JavaType} {receiver : Option InsertionId}
    {declarations : List InsertionId}
    (hc : plan.store.get? c = some (.constructor place type receiver declarations)) :
    (∀ r, receiver = some r → plan.store.Has IsReceiver r)
    ∧ (∃ lines parameter, declarations.mapM plan.store.render = .ok lines
        ∧ receiver.elim (.ok "") plan.store.render = .ok parameter
        ∧ plan.store.render c = .ok (String.join (lines.map (· ++ "\n"))
          ++ "public " ++ type.text ++ "(" ++ parameter ++ ") \x7b super(); \x7d"))
    ∧ ∃ name element, Part.type name element ∈ scene.parts
        ∧ place.compose.className? = some name
        ∧ (declarations.map plan.store.tag?).Perm (((Part.type name element).declaredTags
            ⟨scene.definitions, policy⟩ settings lookup).map some)
        ∧ ((∀ id ∈ declarations, plan.store.Has IsSingle id)
          ↔ ∀ p ∈ (Part.type name element).spots, p.FirstDecides settings lookup →
              Formatter.firstTypeOnly? ⟨scene.definitions, policy⟩ p.annotations ≠ some false) := by
  obtain ⟨f, className, hstore, -, hf, -⟩ :=
    (visits_yields .trivial policy scene lookup settings).of_ok h
  have hwired : plan.store.Wired := hstore ▸ hf.wired
  obtain ⟨d, hd, h⟩ := bind_eq_ok.mp h
  cases h
  obtain ⟨name, element, hpart, hname, hwrites, hnotes, hperm⟩ := exists_part_of_constructor hd hc
  refine ⟨fun r hr => ((hwired c _ hc).2.1 r hr).imp (fun _ h => ⟨h.1, h.2.1⟩),
    hwired.exists_render_constructor hc, name, element, hpart, hname, hperm, ?_⟩
  rw [Store.forall_isSingle_iff hperm, Part.forall_declaredTags_iff hwrites hnotes]

end Plan

/-! ## A cast above a constructor -/

/-- **A class without a constructor** in whose constructor a cast is to be inserted, with an
annotation on it that belongs to a declaration. -/
def Scene.castOnConstructor : Scene where
  definitions := .ofList [{ name := "D" }]
  packages := .empty
  classes := .ofList [("C", { (default : ClassElement) with
    methods := .ofList [(implicitConstructor, { (default : MethodElement) with
      insertions := ⟨.empty, .ofList [(⟨[⟨.method, "body", none⟩]⟩,
        ⟨[.ofName "D"], [], .named "T"⟩)]⟩ })] })]

namespace Plan

/-- The cast and its parenthesis are above the constructor. -/
theorem castOnConstructor_declares :
    ∃ plan place type receiver,
      ofSceneWith ⟨[]⟩ Scene.castOnConstructor .implicit {} = .ok plan
      ∧ plan.store.get? 2 = some (.constructor place type receiver [0, 1])
      ∧ (∃ lines parameter, [0, 1].mapM plan.store.render = .ok lines
          ∧ receiver.elim (.ok "") plan.store.render = .ok parameter
          ∧ plan.store.render 2 = .ok (String.join (lines.map (· ++ "\n"))
            ++ "public " ++ type.text ++ "(" ++ parameter ++ ") \x7b super(); \x7d"))
      ∧ ∃ name element, Part.type name element ∈ Scene.castOnConstructor.parts
          ∧ place.compose.className? = some name
          ∧ ([0, 1].map plan.store.tag?).Perm (((Part.type name element).declaredTags
              ⟨Scene.castOnConstructor.definitions, ⟨[]⟩⟩ {} .implicit).map some)
          ∧ ((∀ id ∈ [0, 1], plan.store.Has IsSingle id)
            ↔ ∀ p ∈ (Part.type name element).spots, p.FirstDecides {} .implicit →
                Formatter.firstTypeOnly? ⟨Scene.castOnConstructor.definitions, ⟨[]⟩⟩ p.annotations
                  ≠ some false) := by
  obtain ⟨plan, place, type, receiver, hplan, hc⟩ : ∃ plan place type receiver,
      ofSceneWith ⟨[]⟩ Scene.castOnConstructor .implicit {} = .ok plan
      ∧ plan.store.get? 2 = some (.constructor place type receiver [0, 1]) :=
    ⟨_, _, _, _, rfl, rfl⟩
  exact ⟨plan, place, type, receiver, hplan, hc, (constructor_declares hplan hc).2⟩

/-- **Not only annotations are above constructors**: this one is written behind half a cast. -/
theorem castOnConstructor_above :
    ∃ plan place type receiver declarations,
      ofScene Scene.castOnConstructor .implicit {} = .ok plan
      ∧ plan.store.get? 2 = some (.constructor place type receiver declarations)
      ∧ plan.store.render 2 = .ok "((@D T) \n)\npublic C() \x7b super(); \x7d"
      ∧ ¬ ∀ id ∈ declarations, plan.store.Has IsSingle id := by
  refine ⟨_, _, _, _, _, rfl, rfl, rfl, fun h => ?_⟩
  obtain ⟨i, hi, hsingle⟩ := h 0 List.mem_cons_self
  cases hi
  exact hsingle

end Plan

end AnnotationPlan
