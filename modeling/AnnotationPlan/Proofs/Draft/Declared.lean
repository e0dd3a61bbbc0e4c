import AnnotationPlan.Proofs.Draft.Accounts
import AnnotationPlan.Proofs.Draft.Shuffled

/-!
# What goes above a constructor

Whatever is made for an annotation on the constructor without parameters goes above the
constructor that is written for the class, if the annotation belongs to a declaration. For a
single annotation that is what one expects; but where the annotations are gathered for a
created object or for a cast, it is the created object that goes there, or the cast with its
parenthesis (`Spot.declaredTags`).

A census tells what is above the constructor of the class (`Census.declared`), and working off
spots adds to it what goes there at each of them (`Census.adds_visit`). So it does in drafts
(`Draft.declared_visits`).
-/

namespace AnnotationPlan

/-! ## What goes there at a spot -/

namespace Spot

/-- **What goes above the constructor** at a spot: on the constructor, and unless it is taken
up there, each annotation that belongs to a declaration, or else all that gathers the
annotations if the first of them does. -/
def declaredTags (ctx : Context) (withhold : Bool) (p : Spot) : List Tag :=
  if ctx.onConstructor p.toPosition && !p.isTakenUp then
    match p.form with
    | .single =>
      if withhold then []
      else ((ctx.flags p.toPosition).filter (fun typeOnly => !typeOnly)).map (fun _ => p.tag)
    | _ => if (ctx.flags p.toPosition).head? = some false then p.tags else []
  else []

/-- **Created objects and casts** go there if the first annotation on them belongs to a
declaration, and nothing else does that is no single annotation. -/
theorem Fits.forall_declaredTags_iff {ctx : Context} {p : Spot} {className : Option String}
    (hp : p.Fits className) (withhold : Bool) :
    (∀ tag ∈ p.declaredTags ctx withhold, tag.1 = "annotation")
      ↔ ((p.form = .new ∨ p.form.isCast = true) → ctx.OnConstructor p.toPosition →
          (ctx.flags p.toPosition).head? ≠ some false) := by
  by_cases on : ctx.OnConstructor p.toPosition
  case neg =>
    have hoff : ctx.onConstructor p.toPosition = false := Bool.eq_false_iff.mpr on
    simp [declaredTags, hoff, on]
  have hon : ctx.onConstructor p.toPosition = true := on
  -- what gathers annotations is on no result, so that it is not taken up unless it is a receiver
  have htaken : p.form ≠ .single → p.isTakenUp = p.isReceiver := by
    intro hform
    have hresult : p.criteria.compose.isOnReturnType = false :=
      Bool.eq_false_iff.mpr (mt hp.returnType hform)
    rw [isTakenUp, hresult, Bool.or_false]
  cases form : p.form with
  | single =>
    refine iff_of_true (fun tag htag => ?_) (fun h => by simp [Form.isCast] at h)
    simp only [declaredTags, form] at htag
    split at htag
    · split at htag
      · exact absurd htag List.not_mem_nil
      · obtain ⟨b, -, rfl⟩ := List.mem_map.mp htag
        rfl
    · exact absurd htag List.not_mem_nil
  | receiver =>
    have htaken : p.isTakenUp = true := by simp [isTakenUp, form_eq_receiver_iff.mp form]
    simp [declaredTags, htaken, Form.isCast]
  | _ =>
    have hreceiver : p.isReceiver = false := by
      rw [← Bool.not_eq_true, ← form_eq_receiver_iff, form]
      simp
    have htaken : p.isTakenUp = false := (htaken (by rw [form]; simp)).trans hreceiver
    by_cases hfirst : (ctx.flags p.toPosition).head? = some false <;>
      simp [declaredTags, hon, on, htaken, form, hfirst, tags, Form.isCast]

end Spot

/-- **What goes above the constructor** at a site. -/
def Site.declaredTags (ctx : Context) (s : Site) : List Tag :=
  s.nested.flatMap (fun q => (Spot.within q).declaredTags ctx s.withholds)
    ++ s.spot.declaredTags ctx false

/-- So it is at a site. -/
theorem Site.Fits.forall_declaredTags_iff {ctx : Context} {s : Site} {className : Option String}
    (hs : s.Fits className) :
    (∀ tag ∈ s.declaredTags ctx, tag.1 = "annotation")
      ↔ ∀ p ∈ s.spots, (p.form = .new ∨ p.form.isCast = true) → ctx.OnConstructor p.toPosition →
          (ctx.flags p.toPosition).head? ≠ some false := by
  unfold Site.declaredTags Site.spots
  rw [List.forall_mem_append, List.forall_mem_append, List.forall_mem_flatMap, List.forall_mem_map,
    List.forall_mem_singleton]
  refine and_congr (forall₂_congr (fun q hq => ?_)) ?_
  · exact (hs.spots _ (Site.within_mem_spots hq)).forall_declaredTags_iff s.withholds
  · exact (hs.spots _ s.spot_mem_spots).forall_declaredTags_iff false

/-! ## What a census tells of it -/

namespace Census

variable {ctx : Context} {p : Spot} {t t' t'' : Census} {tags tags' : List Tag}

/-- What is above the constructor of the class. -/
def declared (t : Census) : Multiset (Option Tag) := t.constructor.elim 0 (fun c => t.held (some c))

/-- **A tidy census**: the constructor of the class is one of the insertions, and above what is
none there is nothing. -/
structure Tidy (t : Census) : Prop where
  /-- The constructor is an insertion. -/
  constructor_lt : ∀ c, t.constructor = some c → c < t.tags.length
  /-- There is nothing above other numbers. -/
  held_eq_zero : ∀ c, t.tags.length ≤ c → t.held (some c) = 0

/-- **Insertions are added** above the constructor of the class. -/
structure Adds (t : Census) (tags : List Tag) (t' : Census) : Prop where
  /-- The census is tidy afterwards. -/
  tidy : t'.Tidy
  /-- What is above the constructor becomes more. -/
  declared_eq : t'.declared = t.declared + ↑(tags.map some)

namespace Adds

theorem refl (ht : t.Tidy) : t.Adds [] t := ⟨ht, (add_zero _).symm⟩

theorem trans (h : t.Adds tags t') (h' : t'.Adds tags' t'') : t.Adds (tags ++ tags') t'' := by
  refine ⟨h'.tidy, ?_⟩
  rw [h'.declared_eq, h.declared_eq, List.map_append, ← Multiset.coe_add, add_assoc]

end Adds

namespace Tidy

variable (ht : t.Tidy)
include ht

theorem grow (made : List Tag) : t.Adds [] (t.grow made) := by
  have hlength : (t.grow made).tags.length = t.tags.length + made.length := List.length_append
  refine ⟨⟨fun c hc => ?_, fun c hc => ?_⟩, (add_zero _).symm⟩
  · exact Nat.lt_of_lt_of_le (ht.constructor_lt c hc) (hlength ▸ Nat.le_add_right _ _)
  · exact ht.held_eq_zero c (Nat.le_trans (hlength ▸ Nat.le_add_right _ _) hc)

/-- What goes into the output is not above a constructor. -/
theorem put_none (made : List Tag) : t.Adds [] (t.put none made) := by
  have hheld : ∀ c, (t.put none made).held (some c) = t.held (some c) := fun c => by simp [put]
  refine ⟨⟨ht.constructor_lt, fun c hc => (hheld c).trans (ht.held_eq_zero c hc)⟩, ?_⟩
  unfold declared
  rw [constructor_put]
  cases t.constructor with
  | none => simp
  | some c => simp [hheld c]

/-- What goes above the constructor is there. -/
theorem put_constructor (hc : t.constructor ≠ none) (made : List Tag) :
    t.Adds made (t.put t.constructor made) := by
  obtain ⟨c, hc⟩ := Option.ne_none_iff_exists'.mp hc
  refine ⟨⟨ht.constructor_lt, fun k hk => ?_⟩, by simp [declared, hc, put]⟩
  have hne : some k ≠ t.constructor := fun heq =>
    Nat.not_lt_of_le hk (ht.constructor_lt k heq.symm)
  simp [put, hne, ht.held_eq_zero k hk]

/-- There is nothing above a new constructor. -/
theorem ensure (place : CriteriaList) : t.Adds [] (t.ensure place) := by
  unfold Census.ensure
  cases hc : t.constructor with
  | some c => exact .refl ht
  | none =>
    have hmade := ((ht.grow [("constructor", place)]).tidy.put_none [("constructor", place)]).tidy
    refine ⟨⟨fun c hc => ?_, hmade.held_eq_zero⟩, ?_⟩
    · obtain rfl := Option.some.inj hc
      simp [Census.grow, put]
    · simp [declared, hc, put, Census.grow, ht.held_eq_zero _ (Nat.le_refl _)]

/-- **What finds its place** is above the constructor if it was made for an annotation on it
that belongs to a declaration, and is not taken up. -/
theorem settle (ctx : Context) (p : Spot) (typeOnly : Bool) (made : List Tag) :
    t.Adds (if ctx.onConstructor p.toPosition && !p.isTakenUp && !typeOnly then made else [])
      (t.settle ctx p typeOnly made) := by
  cases hon : ctx.onConstructor p.toPosition with
  | false =>
    rw [settle_of_not_on hon]
    exact ht.put_none made
  | true =>
    rw [settle_of_on hon]
    have hensured := ht.ensure p.criteria
    cases typeOnly with
    | true =>
      rw [Bool.not_true, Bool.and_false]
      exact hensured.trans (hensured.tidy.put_none _)
    | false =>
      have hput := hensured.trans (hensured.tidy.put_constructor (constructor_ensure p.criteria t)
        (if p.isTakenUp then [] else made))
      cases htaken : p.isTakenUp <;> simpa [htaken] using hput

/-- An annotation becomes an insertion of its own. -/
theorem single (ctx : Context) (p : Spot) (withhold typeOnly : Bool) :
    t.Adds (if ctx.onConstructor p.toPosition && !p.isTakenUp && !typeOnly then
        if withhold then [] else [p.tag] else [])
      (Census.single ctx p withhold t typeOnly) :=
  (ht.grow [p.tag]).trans ((ht.grow [p.tag]).tidy.settle ctx p typeOnly _)

end Tidy

/-- **Annotations become insertions of their own.** -/
theorem adds_singles (withhold : Bool) :
    ∀ (flags : List Bool) {t : Census}, t.Tidy →
      t.Adds (if ctx.onConstructor p.toPosition && !p.isTakenUp then
          if withhold then [] else (flags.filter (fun typeOnly => !typeOnly)).map (fun _ => p.tag)
          else [])
        (flags.foldl (Census.single ctx p withhold) t)
  | [], t, ht => by
    simpa using Adds.refl ht
  | typeOnly :: rest, t, ht => by
    have hfirst := ht.single ctx p withhold typeOnly
    have hall := hfirst.trans (adds_singles withhold rest hfirst.tidy)
    cases hon : ctx.onConstructor p.toPosition && !p.isTakenUp <;> cases withhold <;>
      cases typeOnly <;> simpa [hon] using hall

/-- **Annotations are gathered.** -/
theorem Tidy.gather (ht : t.Tidy) (needed : Bool) (first : Option Bool) :
    t.Adds (if ctx.onConstructor p.toPosition && !p.isTakenUp then
        if first = some false then p.tags else [] else [])
      (t.gather ctx p needed first) := by
  cases first with
  | some typeOnly =>
    have hall := (ht.grow p.tags).trans
      ((ht.grow p.tags).tidy.settle ctx p typeOnly p.tags)
    cases hon : ctx.onConstructor p.toPosition && !p.isTakenUp <;> cases typeOnly <;>
      simpa [hon, Census.gather] using hall
  | none =>
    have hnone : t.Adds [] (t.gather ctx p needed none) := by
      cases needed with
      | true => exact (ht.grow p.tags).trans ((ht.grow p.tags).tidy.put_none p.tags)
      | false => exact .refl ht
    simpa using hnone

/-- **A spot adds what goes above the constructor there.** -/
theorem Tidy.visitSpot (ht : t.Tidy) (ctx : Context) (p : Spot) (withhold : Bool)
    (inner : List Tag) :
    t.Adds (p.declaredTags ctx withhold) (t.visitSpot ctx p withhold inner).1 := by
  unfold Spot.declaredTags Census.visitSpot
  cases hform : p.form with
  | single => exact adds_singles withhold _ ht
  | _ => exact ht.gather _ _

/-- **The positions within a type** add what goes there at each of them. -/
theorem adds_visitWithin (ctx : Context) (withhold : Bool) :
    ∀ (positions : List Position) {t : Census}, t.Tidy →
      t.Adds (positions.flatMap (fun q => (Spot.within q).declaredTags ctx withhold))
        (t.visitWithin ctx withhold positions).1
  | [], _, ht => .refl ht
  | q :: rest, t, ht => by
    have hfirst := ht.visitSpot ctx (.within q) withhold []
    exact hfirst.trans (adds_visitWithin ctx withhold rest hfirst.tidy)

/-- **A site adds what goes above the constructor there.** -/
theorem adds_visit (ht : t.Tidy) (s : Site) : t.Adds (s.declaredTags ctx) (t.visit ctx s) := by
  have hwithin := adds_visitWithin ctx s.withholds s.nested ht
  refine hwithin.trans ?_
  unfold visit visitOwn
  split
  · have hreleased := hwithin.tidy.put_none (t.visitWithin ctx s.withholds s.nested).2
    exact hreleased.trans (hreleased.tidy.visitSpot ctx _ false _)
  · exact hwithin.tidy.visitSpot ctx _ false _

/-- **Several sites** add what goes there at each of them. -/
theorem adds_visits (ctx : Context) : ∀ (sites : List Site) {t : Census}, t.Tidy →
    t.Adds (sites.flatMap (Site.declaredTags ctx)) (sites.foldl (visit ctx) t)
  | [], _, ht => .refl ht
  | s :: rest, _, ht => (adds_visit ht s).trans (adds_visits ctx rest (adds_visit ht s).tidy)

end Census

/-! ## What is above the constructor of a draft -/

namespace Draft

variable {ctx : Context} {className : Option String} {d e : Draft} {t : Census} {s : Site}

/-- A sound draft has a tidy census. -/
theorem Counted.tidy (h : d.Counted t) (hd : d.Sound className) : t.Tidy := by
  have hlength : t.tags.length = d.store.size := by rw [← h.tags_eq, Store.length_tags]
  refine ⟨fun c hc => ?_, fun c hc => ?_⟩
  · rw [hlength]
    exact (hd.constructor_has c (h.constructor_eq.trans hc)).lt_size
  · have hle : d.store.size ≤ c := hlength ▸ hc
    have hnone : d.store.get? c = none := Array.getElem?_eq_none hle
    rw [← h.held_eq (some c), idsAt, Store.declarationsOf, hnone]
    rfl

/-- The census tells what is above the constructor. -/
theorem Counted.declared_eq (h : d.Counted t) :
    ↑(d.declared.map d.store.tag?) = t.declared := by
  unfold declared Census.declared
  rw [← h.constructor_eq]
  cases d.constructor with
  | none => rfl
  | some c => exact h.held_eq (some c)

/-- **A visit changes the census** as it changes the draft. -/
theorem Counted.visit (h : d.Counted t) (hok : visit ctx d s = .ok e) :
    e.Counted (t.visit ctx s) := by
  rw [visit_eq] at hok
  obtain ⟨⟨f, ids⟩, hnested, hown⟩ := bind_eq_ok.mp hok
  obtain ⟨-, hf, htags⟩ := (visitAllNested_makes s.withholds h
    (exists_notes_of_visitAllNested hnested)).of_ok hnested
  obtain ⟨⟨notes, hnotes⟩, hcast⟩ := exists_notes_of_visitOwn hown
  exact (visitOwn_makes hf htags hcast hnotes).of_ok hown

/-- So do several visits. -/
theorem Counted.visits :
    ∀ {sites : List Site} {d : Draft} {t : Census}, d.Counted t →
      sites.foldlM (Draft.visit ctx) d = .ok e → e.Counted (sites.foldl (Census.visit ctx) t)
  | [], _, _, h, hok => by
    cases hok
    exact h
  | s :: rest, d, t, h, hok => by
    rw [List.foldlM_cons] at hok
    obtain ⟨f, hf, hok⟩ := bind_eq_ok.mp hok
    have hrest := visits (h.visit hf) hok
    exact hrest

/-- **Where sites have been worked off** the annotations on all their spots could be written. -/
theorem exists_notes_of_visits :
    ∀ {sites : List Site} {d : Draft}, sites.foldlM (Draft.visit ctx) d = .ok e →
      ∀ s ∈ sites, ∀ p ∈ s.spots,
        ∃ notes, ctx.formatter.notes p.criteria p.annotations = .ok notes
  | [], _, _, _, hs => absurd hs List.not_mem_nil
  | s :: rest, d, hok, s', hs' => by
    rw [List.foldlM_cons] at hok
    obtain ⟨f, hf, hok⟩ := bind_eq_ok.mp hok
    rcases List.mem_cons.mp hs' with rfl | hs'
    · intro p hp
      rw [visit_eq] at hf
      obtain ⟨⟨g, ids⟩, hnested, hown⟩ := bind_eq_ok.mp hf
      rcases List.mem_append.mp hp with hp | hp
      · obtain ⟨q, hq, rfl⟩ := List.mem_map.mp hp
        exact exists_notes_of_visitAllNested hnested q hq
      · obtain rfl := List.mem_singleton.mp hp
        exact (exists_notes_of_visitOwn hown).1
    · exact exists_notes_of_visits hok s' hs'

/-- **What is above the constructor** when its class has been worked off is what goes there at
the spots of the class. -/
theorem declared_visits {sites : List Site} (h : d.Counted t) (hd : d.Sound className)
    (hnone : d.constructor = none) (hok : sites.foldlM (Draft.visit ctx) d = .ok e) :
    (e.declared.map e.store.tag?).Perm ((sites.flatMap (Site.declaredTags ctx)).map some) := by
  have hadds := (Census.adds_visits ctx sites (h.tidy hd)).declared_eq
  have hempty : t.declared = 0 := by
    rw [Census.declared, ← h.constructor_eq, hnone]
    rfl
  rw [hempty, zero_add, ← (h.visits hok).declared_eq] at hadds
  exact Multiset.coe_eq_coe.mp hadds

end Draft

end AnnotationPlan
