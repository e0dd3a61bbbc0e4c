import AnnotationPlan.Proofs.Draft.Constructing
import AnnotationPlan.Proofs.Plan.Constructors
import AnnotationPlan.Proofs.Plan.Coverage
import AnnotationPlan.Proofs.Plan.Exclusive
import AnnotationPlan.Proofs.Plan.Making
import AnnotationPlan.Proofs.Scene.Spots

/-!
# Constructors are written where they are needed

A class gets a constructor if one is written for it (`Plan.WritesConstructor`) and if there
is an annotation that needs one (`ClassElement.NeedsConstructor`). The first is a matter of
the settings and of what is known about the class alone, the second of the class alone. But
in a run both are decided on the way: what is known is looked up when the class is begun,
and the constructor is made when the first annotation asks for it.

So one direction goes from a constructor back to the spot that it was made at
(`Plan.neededFor_constructor`), and the other from a spot on to the visit of its site
(`Plan.exists_constructor`). Neither depends on what other classes there are in the scene.
-/

namespace AnnotationPlan

open Insertion

/-! ## What needs a constructor -/

/-- **A class of a scene** that does not stand for a package. -/
def Scene.IsClass (s : Scene) (name : String) (c : ClassElement) : Prop :=
  (name, c) ∈ s.classes.entries ∧ ¬ Part.packageSuffix.toList <:+ name.toList

/-- **Classes are parts**, unless they stand for packages. -/
theorem Part.ofClass_eq_type_iff {key name : String} {c element : ClassElement} :
    Part.ofClass key c = .type name element
      ↔ (key = name ∧ c = element) ∧ ¬ packageSuffix.toList <:+ key.toList := by
  constructor
  · intro h
    refine ⟨ofClass_eq_type h, fun ⟨start, hstart⟩ => ?_⟩
    rw [ofClass, List.isSuffixOf?_eq_some_iff_append_eq.mpr hstart] at h
    cases start <;> cases h
  · rintro ⟨⟨rfl, rfl⟩, hsuffix⟩
    unfold ofClass
    split
    case h_1 => rfl
    case h_2 h => exact absurd ⟨_, List.isSuffixOf?_eq_some_iff_append_eq.mp h⟩ hsuffix
    case h_3 start h => exact absurd ⟨_, List.isSuffixOf?_eq_some_iff_append_eq.mp h⟩ hsuffix

theorem Scene.isClass_iff {s : Scene} {name : String} {c : ClassElement} :
    s.IsClass name c ↔ Part.type name c ∈ s.parts := by
  unfold IsClass parts
  rw [List.mem_append, List.mem_map, List.mem_map]
  constructor
  · rintro ⟨hmem, hsuffix⟩
    exact Or.inr ⟨_, hmem, Part.ofClass_eq_type_iff.mpr ⟨⟨rfl, rfl⟩, hsuffix⟩⟩
  · rintro (⟨package, -, h⟩ | ⟨⟨key, element⟩, hmem, h⟩)
    · cases h
    · obtain ⟨⟨rfl, rfl⟩, hsuffix⟩ := Part.ofClass_eq_type_iff.mp h
      exact ⟨hmem, hsuffix⟩

/-- **A constructor is written for a class** of which it is known that it declares none, and
for a class of which nothing is known – because it is not asked, because the answer is that
nothing is, or because there is no answer – if the settings say so. -/
def Plan.WritesConstructor (settings : Settings) (lookup : ConstructorLookup) (name : String) :
    Prop :=
  settings.readBytecode = true ∧ lookup name = .ok .implicitOnly
  ∨ settings.unknownConstructors = .synthesize
    ∧ (settings.readBytecode = false ∨ lookup name = .ok .unknown
      ∨ ∃ e, lookup name = .error e)

theorem Plan.writesConstructor_iff {settings : Settings} {lookup : ConstructorLookup}
    {name : String} :
    WritesConstructor settings lookup name
      ↔ settings.writesConstructor (knowledge settings lookup name).1 = true := by
  unfold WritesConstructor knowledge
  cases settings.readBytecode with
  | false => simp [Settings.writesConstructor]
  | true =>
    cases lookup name with
    | error e => simp [Settings.writesConstructor]
    | ok known => cases known <;> simp [Settings.writesConstructor]

/-- **A class needs a constructor** if there are annotations on the constructor without
parameters that are not within a type: on any spot of that method, be it a declaration, a
type, or a place in its code. -/
def ClassElement.NeedsConstructor (name : String) (c : ClassElement) : Prop :=
  ∃ m s p, (implicitConstructor, m) ∈ c.methods.entries
    ∧ s ∈ m.sites (memberPlace name) name implicitConstructor ∧ p ∈ s.spots
    ∧ p.criteria.compose.hasTypePath = false ∧ p.annotations ≠ []

/-- A site is in one class only. -/
theorem Site.Fits.className_eq {s : Site} {className className' : Option String}
    (h : s.Fits className) (h' : s.Fits className') : className = className' :=
  (h.spots _ s.spot_mem_spots).className?_eq.symm.trans
    (h'.spots _ s.spot_mem_spots).className?_eq

/-! ## What a run makes -/

namespace Plan

variable {policy : NamePolicy} {scene : Scene} {lookup : ConstructorLookup}
  {settings : Settings} {plan : Plan}
  (h : ofSceneWith policy scene lookup settings = .ok plan)
include h

/-- **A constructor is needed**: it is that of a class of the scene for which one is written
and which needs it, and it is named after this class. -/
theorem neededFor_constructor {j : InsertionId} {i : Insertion}
    (hj : plan.store.get? j = some i) (hkind : i.IsConstructor) :
    ∃ name c type, scene.IsClass name c ∧ i.className? = some name
      ∧ i.type? = some type ∧ type.name? = some (Name.simple name)
      ∧ WritesConstructor settings lookup name ∧ c.NeedsConstructor name := by
  obtain ⟨v, hv, -, p, hp, hmade⟩ := Plan.madeAt h hj
  obtain ⟨part, hpart, hctx, hsite⟩ := Plan.exists_part h hv
  cases hmade with
  | @constructor name type receiver declarations n note on className named =>
    have hname : part.className? = some name :=
      ((part.fits_sites _ hsite).spots p hp).className?_eq.symm.trans className
    cases part with
    | package name annotations => cases hname
    | nameless name => cases hname
    | type name' c =>
      obtain rfl : name' = name := Option.some.inj hname
      obtain ⟨hpath, hwrites, himplicit⟩ := Context.onConstructor_iff.mp on
      rw [hctx] at hwrites
      have hmethod : p.criteria.compose.method? = some implicitConstructor :=
        eq_of_beq himplicit
      obtain ⟨m, hm, hs⟩ := ClassElement.exists_method hsite hp hmethod
      exact ⟨name', c, type, Scene.isClass_iff.mpr hpart, className, rfl, named,
        writesConstructor_iff.mpr hwrites, m, v.site, p, hm, hs, hp, hpath,
        note.annotations_ne_nil⟩
  | _ => exact hkind.elim

/-- **A class that needs a constructor gets one**, if one is written for it. -/
theorem exists_constructor {name : String} {c : ClassElement} (hc : scene.IsClass name c)
    (hwrites : WritesConstructor settings lookup name) (hneeds : c.NeedsConstructor name) :
    ∃ j, plan.store.Has (fun i => i.IsConstructor ∧ i.className? = some name) j := by
  obtain ⟨m, s, p, hm, hs, hp, hpath, hannotated⟩ := hneeds
  have hsite : s ∈ (Part.type name c).sites := ClassElement.mem_sites_of_method hm hs
  obtain ⟨v, hv, hctx, rfl⟩ := Plan.exists_visit h (Scene.isClass_iff.mp hc) hsite
  obtain ⟨className, e, hleads⟩ := Plan.exists_leadsTo h hv
  obtain rfl : className = some name := hleads.fits.className_eq (Part.fits_sites _ _ hsite)
  have on : v.ctx.OnConstructor p.toPosition := by
    refine Context.onConstructor_iff.mpr ⟨hpath, ?_, ?_⟩
    · rw [hctx]
      exact writesConstructor_iff.mp hwrites
    · exact beq_iff_eq.mpr (m.method?_spots v.site hs p hp)
  obtain ⟨j, hj⟩ := Option.ne_none_iff_exists'.mp
    (hleads.sound.visit_constructs hleads.fits hleads.visit hp on hannotated)
  have hsound := (hleads.sound.of_visit hleads.fits hleads.visit).1
  have hgrown := (hsound.constructor_has j hj).grows hleads.grows (fun _ _ hgrown hi =>
    ⟨hgrown.isConstructor hi.1, fun hsome => hgrown.className?_eq.trans (hi.2 hsome)⟩)
  exact ⟨j, hgrown.imp (fun _ h => ⟨h.1, h.2.1, h.2.2 (Option.some_ne_none name)⟩)⟩

/-- **A constructor is in the output once**: it is never lost, and nothing takes it up. -/
theorem count_constructor {j : InsertionId} {i : Insertion} (hj : plan.store.get? j = some i)
    (hkind : i.IsConstructor) : plan.order.count j = 1 := by
  obtain ⟨d, className, hstore, horder, hd, -, hexclusive, hcomplete⟩ :=
    (Plan.visits_yields (Work.exclusive_invariant.and Work.complete_invariant)
      policy scene lookup settings).of_ok h
  rw [hstore] at hj
  have hdifferent : ¬ i.IsReceiver ∧ ¬ i.IsSingle ∧ ¬ i.IsDeclarable := by
    cases i <;> first | exact hkind.elim | exact ⟨fun h => h, fun h => h, fun h => h⟩
  have hplaced : j ∈ d.placed := by
    refine (hcomplete.of_not_single hj hdifferent.1 hdifferent.2.1).resolve_right ?_
    rintro ⟨k, c, criteria, type, receiver, declarations, hk, hc, -, hmem⟩
    obtain ⟨k', hk', hdeclarable, -⟩ := (hd.wired c _ hc).2.2 j hmem
    obtain rfl := Option.some.inj (hk'.symm.trans hj)
    exact hdifferent.2.2 hdeclarable
  rw [horder, List.count_reverse]
  refine Nat.le_antisymm ?_ (List.count_pos_iff.mpr hplaced)
  have hone := (hexclusive j).1
  simp only [Work.uses] at hone
  omega

/-- **Constructors are written exactly where they are needed.** At the end of a run a class
of the scene has a constructor if and only if one is written for it and it needs one; no
class has two; and every constructor is that of a class of the scene, is named after it, and
is in the output once. -/
theorem ofSceneWith_constructors :
    (∀ name c, scene.IsClass name c →
      ((∃ j, plan.store.Has (fun i => i.IsConstructor ∧ i.className? = some name) j)
        ↔ WritesConstructor settings lookup name ∧ c.NeedsConstructor name))
    ∧ (∀ name j k, plan.store.Has (fun i => i.IsConstructor ∧ i.className? = some name) j →
        plan.store.Has (fun i => i.IsConstructor ∧ i.className? = some name) k → j = k)
    ∧ ∀ j i, plan.store.get? j = some i → i.IsConstructor →
        plan.order.count j = 1
        ∧ ∃ name c type, scene.IsClass name c ∧ i.className? = some name
            ∧ i.type? = some type ∧ type.name? = some (Name.simple name) := by
  refine ⟨fun name c hc => ⟨?_, fun ⟨hwrites, hneeds⟩ => exists_constructor h hc hwrites hneeds⟩,
    fun name j k hj hk => constructor_unique h hj hk, fun j i hj hkind =>
      ⟨count_constructor h hj hkind, ?_⟩⟩
  · rintro ⟨j, i, hj, hkind, hname⟩
    obtain ⟨name', c', -, hc', hname', -, -, hwrites, hneeds⟩ := neededFor_constructor h hj hkind
    obtain rfl : name' = name := Option.some.inj (hname'.symm.trans hname)
    obtain rfl := Scene.eq_of_mem_parts (Scene.isClass_iff.mp hc) (Scene.isClass_iff.mp hc')
    exact ⟨hwrites, hneeds⟩
  · obtain ⟨name, c, type, hc, hname, htype, hnamed, -⟩ := neededFor_constructor h hj hkind
    exact ⟨name, c, type, hc, hname, htype, hnamed⟩

omit h in
/-- The class of the sample has the constructor that it needs. -/
theorem sample_constructors :
    ∃ plan, ofSceneWith ⟨[]⟩ Scene.sample .implicit {} = .ok plan
      ∧ (∀ name c, Scene.sample.IsClass name c →
        ((∃ j, plan.store.Has (fun i => i.IsConstructor ∧ i.className? = some name) j)
          ↔ WritesConstructor {} .implicit name ∧ c.NeedsConstructor name))
      ∧ (∀ name j k, plan.store.Has (fun i => i.IsConstructor ∧ i.className? = some name) j →
          plan.store.Has (fun i => i.IsConstructor ∧ i.className? = some name) k → j = k)
      ∧ ∀ j i, plan.store.get? j = some i → i.IsConstructor →
          plan.order.count j = 1
          ∧ ∃ name c type, Scene.sample.IsClass name c ∧ i.className? = some name
              ∧ i.type? = some type ∧ type.name? = some (Name.simple name) := by
  obtain ⟨plan, hplan⟩ : ∃ plan, ofSceneWith ⟨[]⟩ Scene.sample .implicit {} = .ok plan :=
    ⟨_, rfl⟩
  exact ⟨plan, hplan, ofSceneWith_constructors hplan⟩

end Plan

end AnnotationPlan
