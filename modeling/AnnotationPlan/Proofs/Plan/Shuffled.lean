import AnnotationPlan.Proofs.AnnotationUse.Loaded
import AnnotationPlan.Proofs.Draft.Shuffled
import AnnotationPlan.Proofs.Plan.NeededConstructors
import AnnotationPlan.Proofs.Scene.Outline
import AnnotationPlan.Proofs.Scene.Uses

/-!
# The order of annotations decides little

The annotations on an element of a scene can be put in another order. If there was a plan for
the scene, there is one for the other scene, with as many insertions of each kind in each place,
in the output as well as above each constructor (`Plan.ofSceneWith_shuffled`).

That is not so everywhere. The annotations on a created object go into one insertion, and so do
those on a cast; on a constructor that the class does not declare that insertion goes above
the constructor if the first annotation belongs to the declaration, and stays in the output if
it stands on types only (`Spot.FirstDecides`). So a created object can be moved by a change of
the order of its annotations (`Plan.creating_moved`), and where the first annotation decides, it
must be asked of both orders that it decides the same.

Nothing is known here about the place of the element in the scene but that it is there. Two
scenes that differ in the order of the annotations on one element become the same if these are
rewritten; so they have the same sites, and the runs on them go through corresponding spots.
-/

namespace AnnotationPlan

/-! ## Corresponding spots -/

/-- What corresponds to one another in corresponding members of two lists, does so in what comes
of the lists. -/
theorem mem_zip_flatMap {α β γ δ : Type} {f : α → List γ} {g : β → List δ} {a : α} {b : β}
    {e : γ × δ} (he : e ∈ (f a).zip (g b)) :
    ∀ {xs : List α} {ys : List β}, List.Forall₂ (fun x y => (f x).length = (g y).length) xs ys →
      (a, b) ∈ xs.zip ys → e ∈ (xs.flatMap f).zip (ys.flatMap g)
  | _, _, .nil, h => by cases h
  | x :: xs, y :: ys, .cons hlength hrest, h => by
    rw [List.flatMap_cons, List.flatMap_cons, List.zip_append hlength]
    rcases List.mem_cons.mp h with h | h
    · cases h
      exact List.mem_append_left _ he
    · exact List.mem_append_right _ (mem_zip_flatMap he hrest h)

/-- Of corresponding members there comes as much as of the lists. -/
theorem length_flatMap_eq {α β γ δ : Type} {f : α → List γ} {g : β → List δ} {xs : List α}
    {ys : List β} (h : List.Forall₂ (fun x y => (f x).length = (g y).length) xs ys) :
    (xs.flatMap f).length = (ys.flatMap g).length := by
  induction h with
  | nil => rfl
  | cons hlength _ ih =>
    rw [List.flatMap_cons, List.flatMap_cons, List.length_append, List.length_append, hlength, ih]

/-- What is rewritten to the same corresponds to one another. -/
theorem forall₂_of_map_eq {α β : Type} {f : α → β} {xs ys : List α} (h : xs.map f = ys.map f) :
    List.Forall₂ (fun x y => f x = f y) xs ys := by
  rw [← List.forall₂_eq_eq_eq] at h
  exact List.forall₂_map_right_iff.mp (List.forall₂_map_left_iff.mp h)

namespace Site

variable {φ : List AnnotationUse → List AnnotationUse} {s s' : Site}

/-- Sites that are rewritten to the same have as many spots. -/
theorem length_spots_eq (h : s.mapUses φ = s'.mapUses φ) : s.spots.length = s'.spots.length := by
  have hnested := congrArg (fun s : Site => s.nested.length) h
  simpa [mapUses, spots] using hnested

/-- **Sites that are rewritten to the same** have the same annotations, if that is so of
whatever is rewritten to the same. -/
theorem shuffled_of_mapUses_eq {ctx : Context}
    (hφ : ∀ uses uses', φ uses = φ uses' → AnnotationUse.Shuffled uses uses')
    (h : s.mapUses φ = s'.mapUses φ)
    (hfirst : ∀ e ∈ s.spots.zip s'.spots, e.1.form = .new ∨ e.1.form.isCast = true →
      ctx.OnConstructor e.1.toPosition →
      ctx.formatter.firstTypeOnly? e.1.annotations = ctx.formatter.firstTypeOnly? e.2.annotations) :
    s.Shuffled ctx s' := by
  have hown : s.toPosition.mapUses φ = s'.toPosition.mapUses φ := congrArg toPosition h
  have hnested := forall₂_of_map_eq (congrArg nested h)
  have hzip : s.spots.zip s'.spots
      = (s.nested.zip s'.nested).map (Prod.map Spot.within Spot.within) ++ [(s.spot, s'.spot)] := by
    rw [spots, spots, List.zip_append (by simpa using hnested.length_eq), List.zip_map]
    rfl
  rw [hzip] at hfirst
  refine ⟨⟨(congrArg Position.criteria hown).symm, (congrArg cast h).symm,
    hφ _ _ (congrArg Position.annotations hown),
    hfirst (s.spot, s'.spot) (List.mem_append_right _ List.mem_cons_self)⟩, ?_,
    (congrArg withholds h).symm⟩
  refine List.forall₂_iff_zip.mpr ⟨hnested.length_eq, fun {q q'} hmem => ?_⟩
  have hwithin := List.forall₂_zip hnested hmem
  exact ⟨(congrArg Position.criteria hwithin).symm, rfl,
    hφ _ _ (congrArg Position.annotations hwithin),
    hfirst (.within q, .within q') (List.mem_append_left _ (List.mem_map_of_mem hmem))⟩

end Site

namespace Part

variable {φ : List AnnotationUse → List AnnotationUse} {p p' : Part}

/-- The sites of parts that are rewritten to the same are rewritten to the same. -/
theorem forall₂_sites (h : p.mapUses φ = p'.mapUses φ) :
    List.Forall₂ (fun s s' => s.mapUses φ = s'.mapUses φ) p.sites p'.sites :=
  forall₂_of_map_eq (by rw [← sites_mapUses, ← sites_mapUses, h])

/-- **The spots of a part** in order. -/
def spots (p : Part) : List Spot := p.sites.flatMap Site.spots

/-- Parts that are rewritten to the same have as many spots. -/
theorem length_spots_eq (h : p.mapUses φ = p'.mapUses φ) : p.spots.length = p'.spots.length :=
  length_flatMap_eq ((forall₂_sites h).imp (fun _ _ => Site.length_spots_eq))

end Part

/-- The spots of a scene are those of its parts. -/
theorem Scene.spots_eq (s : Scene) : s.spots = s.parts.flatMap Part.spots := by
  unfold spots Part.spots
  rw [items_eq, List.flatMap_assoc]
  refine List.flatMap_congr (fun p _ => ?_)
  rw [← Part.map_items, List.flatMap_map]
  exact List.flatMap_congr (fun i _ => i.spots_site.symm)

/-! ## The first annotation -/

/-- **The first annotation decides** where all go that are gathered for a created object or for a
cast: they are on the constructor that the class does not declare, not within a type, and one
is written for the class. -/
def Spot.FirstDecides (settings : Settings) (lookup : ConstructorLookup) (p : Spot) : Prop :=
  (p.form = .new ∨ p.form.isCast = true) ∧ p.criteria.compose.hasTypePath = false
    ∧ p.criteria.compose.targetsImplicitConstructor = true
    ∧ ∃ name, p.criteria.compose.className? = some name
      ∧ Plan.WritesConstructor settings lookup name

/-- **The first annotations decide the same** at corresponding spots, where they decide. -/
def Formatter.DecidesAlike (f : Formatter) (settings : Settings) (lookup : ConstructorLookup)
    (spots spots' : List Spot) : Prop :=
  ∀ e ∈ spots.zip spots', e.1.FirstDecides settings lookup →
    f.firstTypeOnly? e.1.annotations = f.firstTypeOnly? e.2.annotations

section Runs

variable {φ : List AnnotationUse → List AnnotationUse} {formatter : Formatter}
  {settings : Settings} {lookup : ConstructorLookup} {d d' e : Draft} {className : Option String}

/-- What the spots of several members have in common, those of corresponding ones have. -/
theorem Formatter.DecidesAlike.of_flatMap {α : Type} {f : α → List Spot} {xs ys : List α}
    (h : formatter.DecidesAlike settings lookup (xs.flatMap f) (ys.flatMap f))
    (hlength : List.Forall₂ (fun x y => (f x).length = (f y).length) xs ys) {a b : α}
    (hmem : (a, b) ∈ xs.zip ys) : formatter.DecidesAlike settings lookup (f a) (f b) :=
  fun e he => h e (mem_zip_flatMap he hlength hmem)

/-- On the constructor of a part the first annotation decides. -/
theorem Part.firstDecides {p : Part} {s : Site} {q : Spot} (hs : s ∈ p.sites) (hq : q ∈ s.spots)
    (hform : q.form = .new ∨ q.form.isCast = true)
    (on : (p.context formatter settings lookup).OnConstructor q.toPosition) :
    q.FirstDecides settings lookup := by
  obtain ⟨hpath, hwrites, himplicit⟩ := Context.onConstructor_iff.mp on
  have hname := ((p.fits_sites s hs).spots q hq).className?_eq
  refine ⟨hform, hpath, himplicit, ?_⟩
  cases p with
  | type name c => exact ⟨name, hname, Plan.writesConstructor_iff.mpr hwrites⟩
  | package name annotations => cases hwrites
  | nameless name => cases hwrites

/-- **The sites of parts that are rewritten to the same** have the same annotations. -/
theorem Part.forall₂_shuffled
    (hφ : ∀ uses uses', φ uses = φ uses' → AnnotationUse.Shuffled uses uses') {p p' : Part}
    (hp : p.mapUses φ = p'.mapUses φ)
    (hfirst : formatter.DecidesAlike settings lookup p.spots p'.spots) :
    List.Forall₂ (Site.Shuffled (p.context formatter settings lookup)) p.sites p'.sites := by
  have hformatter : (p.context formatter settings lookup).formatter = formatter := by
    cases p <;> rfl
  have hsites := forall₂_sites hp
  refine List.forall₂_iff_zip.mpr ⟨hsites.length_eq, fun {s s'} hmem => ?_⟩
  have hspots := hfirst.of_flatMap (hsites.imp (fun _ _ => Site.length_spots_eq)) hmem
  refine Site.shuffled_of_mapUses_eq hφ (List.forall₂_zip hsites hmem) (fun e he hform on => ?_)
  rw [hformatter]
  exact hspots e he
    (firstDecides (List.of_mem_zip hmem).1 (List.of_mem_zip (b := e.2) he).1 hform on)

/-- **A part is worked off with annotations in another order** as it was. -/
theorem Part.exists_visitPart
    (hφ : ∀ uses uses', φ uses = φ uses' → AnnotationUse.Shuffled uses uses') {p p' : Part}
    (hp : p.mapUses φ = p'.mapUses φ)
    (hfirst : formatter.DecidesAlike settings lookup p.spots p'.spots)
    (hd : Draft.SameCensus className d d')
    (hok : Plan.visitPart formatter settings lookup d p = .ok e) :
    ∃ e', Plan.visitPart formatter settings lookup d' p' = .ok e'
      ∧ Draft.SameCensus p'.className? e e' := by
  obtain ⟨hsound, t, hcounted, hcounted'⟩ := hd
  have hstart := p'.sound_start settings lookup hsound
  have hsites := forall₂_shuffled hφ hp hfirst
  have hvisits := foldlM_of_visitPart formatter settings lookup hok
  cases p with
  | nameless name => cases hok
  | package name annotations =>
    cases p' with
    | package name' annotations' =>
      exact Draft.exists_visits hsites (Part.fits_sites _) ⟨hstart, t, hcounted, hcounted'⟩ hvisits
    | _ => cases hp
  | type name c =>
    cases p' with
    | type name' c' =>
      obtain rfl : name = name' := (Part.type.inj hp).1
      exact Draft.exists_visits hsites (Part.fits_sites _)
        ⟨hstart, _, hcounted.start _, hcounted'.start _⟩ hvisits
    | _ => cases hp

/-- **Scenes that are rewritten to the same** are worked off alike. -/
theorem Scene.exists_visitParts
    (hφ : ∀ uses uses', φ uses = φ uses' → AnnotationUse.Shuffled uses uses') {s s' : Scene}
    (hs : s.mapUses φ = s'.mapUses φ)
    (hfirst : formatter.DecidesAlike settings lookup s.spots s'.spots)
    (hok : s.parts.foldlM (Plan.visitPart formatter settings lookup) Draft.empty = .ok e) :
    ∃ e', s'.parts.foldlM (Plan.visitPart formatter settings lookup) Draft.empty = .ok e'
      ∧ ∃ className, Draft.SameCensus className e e' := by
  have hparts : List.Forall₂ (fun p p' : Part => p.mapUses φ = p'.mapUses φ) s.parts s'.parts :=
    forall₂_of_map_eq (by rw [← parts_mapUses, ← parts_mapUses, hs])
  rw [spots_eq, spots_eq] at hfirst
  have hboth : List.Forall₂ (fun p p' : Part => p.mapUses φ = p'.mapUses φ
      ∧ formatter.DecidesAlike settings lookup p.spots p'.spots) s.parts s'.parts := by
    refine List.forall₂_iff_zip.mpr ⟨hparts.length_eq, fun hmem => ?_⟩
    refine ⟨List.forall₂_zip hparts hmem, ?_⟩
    exact hfirst.of_flatMap (hparts.imp (fun _ _ => Part.length_spots_eq)) hmem
  refine exists_foldlM_ok (R := fun d d' => ∃ className, Draft.SameCensus className d d')
    (fun ⟨_, hd⟩ ⟨hp, hspots⟩ hvisit => ?_) hboth
    ⟨none, Draft.sound_empty none, _, .empty, .empty⟩ hok
  obtain ⟨e', he', hsame⟩ := Part.exists_visitPart hφ hp hspots hd hvisit
  exact ⟨e', he', _, hsame⟩

end Runs

namespace Plan

variable {policy : NamePolicy} {scene : Scene} {lookup : ConstructorLookup}
  {settings : Settings} {plan : Plan}

/-- **The order of annotations decides little.** Let the annotations on an element anywhere in a
scene, which set each field once, be put in another order. Then the definitions stay the same,
and if there is a plan for the scene with a name policy, there is one for the other scene: with
the same insertions by kind and criteria, as many of each in the output, and as many of each
above every constructor. It is only required that, wherever the first annotation on a spot
decides, it stands on types only in both orders or in neither. -/
theorem ofSceneWith_shuffled {x : Element} {way : List Segment} {uses : List AnnotationUse}
    (hway : (Element.scene scene).Leads way x) (hperm : x.annotations.Perm uses)
    (hdistinct : ∀ u ∈ x.annotations, (FieldValue.nested u).IsDistinct)
    (h : ofSceneWith policy scene lookup settings = .ok plan) :
    ∃ shuffled, scene.modifyAt? way (Element.withAnnotations uses) = some shuffled
      ∧ shuffled.definitions = scene.definitions
      ∧ (Formatter.DecidesAlike ⟨scene.definitions, policy⟩ settings lookup scene.spots
          shuffled.spots →
        ∃ plan', ofSceneWith policy shuffled lookup settings = .ok plan'
          ∧ plan'.store.tags = plan.store.tags
          ∧ (plan'.order.map plan'.store.tag?).Perm (plan.order.map plan.store.tag?)
          ∧ ∀ c, ((plan'.store.declarationsOf c).map plan'.store.tag?).Perm
              ((plan.store.declarationsOf c).map plan.store.tag?)) := by
  classical
  -- the annotations in the other order are rewritten to those in the order that they have
  let φ : List AnnotationUse → List AnnotationUse := fun l => if l = uses then x.annotations else l
  have huses : φ uses = φ x.annotations := by
    show (if uses = uses then _ else _) = if x.annotations = uses then _ else _
    rw [if_pos rfl, ite_self]
  have hφ : ∀ l l', φ l = φ l' → AnnotationUse.Shuffled l l' := by
    intro l l' hsame
    simp only [φ] at hsame
    split at hsame <;> split at hsame <;> subst_vars
    · exact .inl rfl
    · exact .inr ⟨hperm.symm, fun u hu => hdistinct u (hperm.mem_iff.mpr hu)⟩
    · exact .inr ⟨hperm, hdistinct⟩
    · exact .inl rfl
  obtain ⟨shuffled, hmodify, hsame⟩ := Scene.exists_mapUses_eq hway huses
  have hdefinitions : shuffled.definitions = scene.definitions :=
    (congrArg Scene.definitions hsame : (shuffled.mapUses φ).definitions = _)
  refine ⟨shuffled, hmodify, hdefinitions, fun hfirst => ?_⟩
  obtain ⟨d, hd, h⟩ := bind_eq_ok.mp h
  cases h
  obtain ⟨d', hd', className, hcensus⟩ := Scene.exists_visitParts hφ hsame.symm hfirst hd
  rw [← hdefinitions] at hd'
  refine ⟨_, bind_eq_ok.mpr ⟨d', hd', rfl⟩, ?_, ?_, fun c => hcensus.perm (some c)⟩
  · obtain ⟨-, t, hcounted, hcounted'⟩ := hcensus
    exact hcounted'.tags_eq.trans hcounted.tags_eq.symm
  · show (d'.placed.reverse.map _).Perm (d.placed.reverse.map _)
    rw [List.map_reverse, List.map_reverse]
    exact (List.reverse_perm _).trans ((hcensus.perm none).trans (List.reverse_perm _).symm)

end Plan

/-! ## An object created in a constructor -/

/-- A use without values sets each field once. -/
theorem AnnotationUse.isDistinct_ofName (name : String) :
    (FieldValue.nested (.ofName name)).IsDistinct :=
  FieldValue.isDistinct_nested List.nodup_nil (fun _ hv => absurd hv List.not_mem_nil)

namespace Scene

/-- **A class whose constructor creates an object**, with annotations on its type. -/
def creating (uses : List AnnotationUse) : Scene where
  definitions := .ofList [{ name := "T", targets := some [.typeUse] }, { name := "D" },
    { name := "E" }]
  packages := .empty
  classes := .ofList [("C", { (default : ClassElement) with
    methods := .ofList [(implicitConstructor, { (default : MethodElement) with
      body := ⟨.empty, { (default : ExpressionElement) with
        news := .ofList [(⟨.index 0, 0⟩, ⟨uses, []⟩)] }⟩ })] })]

/-- The way to the type of the object. -/
def creatingWay : List Segment :=
  [.classDeclaration "C", .method implicitConstructor, .body, .expressions, .new ⟨.index 0, 0⟩]

theorem leads_creatingWay (uses : List AnnotationUse) :
    (Element.scene (creating uses)).Leads creatingWay (.type ⟨uses, []⟩) :=
  .member rfl rfl (.member rfl rfl (.member rfl rfl (.member rfl rfl (.member rfl rfl .here))))

end Scene

namespace Plan

/-- Between annotations that belong to the declaration one on types only may stand anywhere:
the created object is above the constructor. -/
theorem creating_shuffled :
    ([.ofName "D", .ofName "T", .ofName "E"] : List AnnotationUse).Perm
        [.ofName "E", .ofName "D", .ofName "T"]
    ∧ ∃ shuffled plan plan', (Scene.creating [.ofName "D", .ofName "T", .ofName "E"]).modifyAt?
        Scene.creatingWay (Element.withAnnotations [.ofName "E", .ofName "D", .ofName "T"])
          = some shuffled
      ∧ ofSceneWith ⟨[]⟩ (Scene.creating [.ofName "D", .ofName "T", .ofName "E"]) .implicit {}
          = .ok plan
      ∧ ofSceneWith ⟨[]⟩ shuffled .implicit {} = .ok plan'
      ∧ (plan'.order.map plan'.store.tag?).Perm (plan.order.map plan.store.tag?)
      ∧ (plan'.store.declarationsOf 1).length = 1 := by
  have hperm : ([.ofName "D", .ofName "T", .ofName "E"] : List AnnotationUse).Perm
      [.ofName "E", .ofName "D", .ofName "T"] :=
    ((List.Perm.swap _ _ []).cons _).trans (.swap _ _ _)
  have hdistinct : ∀ u ∈ ([.ofName "D", .ofName "T", .ofName "E"] : List AnnotationUse),
      (FieldValue.nested u).IsDistinct := by
    simp [AnnotationUse.isDistinct_ofName]
  obtain ⟨plan, hplan, hone⟩ : ∃ plan,
      ofSceneWith ⟨[]⟩ (Scene.creating [.ofName "D", .ofName "T", .ofName "E"]) .implicit {}
        = .ok plan ∧ (plan.store.declarationsOf 1).length = 1 := ⟨_, rfl, rfl⟩
  obtain ⟨shuffled, hmodify, -, hsame⟩ :=
    ofSceneWith_shuffled (Scene.leads_creatingWay _) hperm hdistinct hplan
  obtain rfl : Scene.creating [.ofName "E", .ofName "D", .ofName "T"] = shuffled :=
    Option.some.inj ((rfl : _ = some _).symm.trans hmodify)
  have hfirst : ((Scene.creating [.ofName "D", .ofName "T", .ofName "E"]).spots.zip
      (Scene.creating [.ofName "E", .ofName "D", .ofName "T"]).spots).all (fun e =>
        Formatter.firstTypeOnly? ⟨(Scene.creating []).definitions, ⟨[]⟩⟩ e.1.annotations
          == Formatter.firstTypeOnly? ⟨(Scene.creating []).definitions, ⟨[]⟩⟩ e.2.annotations)
      = true := by decide +kernel
  obtain ⟨plan', hplan', -, horder, hheld⟩ :=
    hsame (fun e he _ => eq_of_beq (List.all_eq_true.mp hfirst e he))
  refine ⟨hperm, _, plan, plan', hmodify, hplan, hplan', horder, ?_⟩
  have hlength := (hheld 1).length_eq
  rwa [List.length_map, List.length_map, hone] at hlength

/-- **The first annotation decides**: an object created in the constructor is above it if the
first annotation on the object belongs to the declaration, and in the output otherwise. -/
theorem creating_moved :
    ∃ shuffled plan plan',
      (Element.scene (Scene.creating [.ofName "T", .ofName "D"])).Leads Scene.creatingWay
        (.type ⟨[.ofName "T", .ofName "D"], []⟩)
      ∧ ([.ofName "T", .ofName "D"] : List AnnotationUse).Perm [.ofName "D", .ofName "T"]
      ∧ (Scene.creating [.ofName "T", .ofName "D"]).modifyAt? Scene.creatingWay
          (Element.withAnnotations [.ofName "D", .ofName "T"]) = some shuffled
      ∧ ofScene (Scene.creating [.ofName "T", .ofName "D"]) .implicit {} = .ok plan
      ∧ ofScene shuffled .implicit {} = .ok plan'
      ∧ ¬ (plan'.order.map plan'.store.tag?).Perm (plan.order.map plan.store.tag?)
      ∧ (plan.store.declarationsOf 1).length = 0 ∧ (plan'.store.declarationsOf 1).length = 1 := by
  refine ⟨_, _, _, Scene.leads_creatingWay _, .swap _ _ [], rfl, rfl, rfl, fun h => ?_, rfl, rfl⟩
  exact absurd h.length_eq (by decide)

end Plan

end AnnotationPlan
