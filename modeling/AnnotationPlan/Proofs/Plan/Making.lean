import AnnotationPlan.Proofs.Draft.Making
import AnnotationPlan.Proofs.Plan.Visits

/-!
# Where the insertions of a run come from

A run is one visit after another, and between two visits no insertion is made. So the
visits of a run are a chain (`Visit.Chain`) from the store without insertions to that of
the plan, every insertion is made in one of them (`Plan.exists_makes`), and what is known
of its making is still known in the plan (`Plan.madeAt`).
-/

namespace AnnotationPlan

/-- **An insertion is made in a visit**: it is not there before, and it is there
afterwards. -/
def Visit.Makes (v : Visit) (id : InsertionId) : Prop :=
  v.before.store.size ≤ id ∧ ∃ e, v.before.visit v.ctx v.site = .ok e ∧ id < e.store.size

/-- **Visits one after another** lead from one store to another. -/
inductive Visit.Chain : Store → List Visit → Store → Prop
  /-- Without a visit nothing is made. -/
  | nil (s : Store) : Chain s [] s
  /-- A visit comes first, and others follow. -/
  | cons {v : Visit} {rest : List Visit} {e : Draft} {s : Store} {className : Option String}
      (sound : v.before.Sound className) (fits : v.site.Fits className)
      (visit : v.before.visit v.ctx v.site = .ok e) (chain : Chain e.store rest s) :
    Chain v.before.store (v :: rest) s

/-- **A visit on the way to a store.** -/
structure Visit.LeadsTo (v : Visit) (className : Option String) (e : Draft) (s : Store) :
    Prop where
  /-- The draft before the visit is sound. -/
  sound : v.before.Sound className
  /-- The site knows where it is. -/
  fits : v.site.Fits className
  /-- The visit does not fail. -/
  visit : v.before.visit v.ctx v.site = .ok e
  /-- What comes afterwards lets the store grow. -/
  grows : e.store.Grows s

namespace Visit

variable {s s' s'' : Store} {vs ws : List Visit} {id : InsertionId}

namespace Chain

/-- Chains can be put behind one another. -/
theorem append (h : Chain s vs s') (h' : Chain s' ws s'') : Chain s (vs ++ ws) s'' := by
  induction h with
  | nil => exact h'
  | cons sound fits visit _ ih => exact .cons sound fits visit (ih h')

/-- The store grows along a chain. -/
theorem grows (h : Chain s vs s') : s.Grows s' := by
  induction h with
  | nil => exact .refl _
  | cons sound fits visit _ ih => exact (sound.of_visit fits visit).2.trans ih

/-- **Every visit of a chain** is on the way to its end. -/
theorem exists_leadsTo (h : Chain s vs s') :
    ∀ v ∈ vs, ∃ className e, v.LeadsTo className e s' := by
  induction h with
  | nil => exact fun v hv => absurd hv List.not_mem_nil
  | cons sound fits visit chain ih =>
    exact List.forall_mem_cons.mpr ⟨⟨_, _, sound, fits, visit, chain.grows⟩, ih⟩

/-- **What is new at the end of a chain** is made in one of its visits. -/
theorem exists_makes (h : Chain s vs s') (hid : s.size ≤ id) (hlt : id < s'.size) :
    ∃ v ∈ vs, v.Makes id := by
  induction h with
  | nil => exact absurd hlt (Nat.not_lt.mpr hid)
  | @cons v rest e s' className sound fits visit chain ih =>
    by_cases hmade : id < e.store.size
    · exact ⟨v, List.mem_cons_self, hid, e, visit, hmade⟩
    · obtain ⟨w, hw, hmakes⟩ := ih (Nat.le_of_not_lt hmade) hlt
      exact ⟨w, List.mem_cons_of_mem v hw, hmakes⟩

end Chain

/-- **What was made in a visit** was made at one of the spots of its site. -/
theorem LeadsTo.madeAt {v : Visit} {className : Option String} {e : Draft}
    (h : v.LeadsTo className e s) (hmakes : v.Makes id) {i : Insertion}
    (hi : s.get? id = some i) : ∃ p ∈ v.site.spots, i.MadeAt v.ctx p := by
  obtain ⟨hid, f, hf, hlt⟩ := hmakes
  obtain rfl := Except.ok.inj (hf.symm.trans h.visit)
  obtain ⟨i₀, hi₀⟩ := Store.exists_get? hlt
  obtain ⟨j, hj, hgrown⟩ := h.grows id i₀ hi₀
  obtain rfl := Option.some.inj (hj.symm.trans hi)
  obtain ⟨p, hp, hmade⟩ := h.sound.madeAt_visit h.fits h.visit hi₀ hid
  exact ⟨p, hp, hmade.grows hgrown⟩

end Visit

/-- The visits to sites that are worked off are a chain. -/
theorem Draft.Sound.chain {ctx : Context} {className : Option String} :
    ∀ {sites : List Site} {d e : Draft}, d.Sound className → (∀ s ∈ sites, s.Fits className) →
      sites.foldlM (Draft.visit ctx) d = .ok e →
      e.Sound className ∧ Visit.Chain d.store (Draft.visits ctx d sites) e.store
  | [], d, e, hd, _, h => by
    cases h
    exact ⟨hd, .nil _⟩
  | s :: rest, d, e, hd, hsites, h => by
    obtain ⟨hs, hrest⟩ := List.forall_mem_cons.mp hsites
    rw [List.foldlM_cons, bind_eq_ok] at h
    obtain ⟨f, hf, h⟩ := h
    obtain ⟨he, hchain⟩ := (hd.of_visit hs hf).1.chain hrest h
    rw [Draft.visits, hf]
    exact ⟨he, .cons (v := ⟨ctx, d, s⟩) hd hs hf hchain⟩

/-- The visits of parts that are worked off are a chain. -/
theorem Plan.chain_visitsFrom {formatter : Formatter} {settings : Settings}
    {lookup : ConstructorLookup} :
    ∀ {parts : List Part} {className : Option String} {d e : Draft}, d.Sound className →
      parts.foldlM (visitPart formatter settings lookup) d = .ok e →
      Visit.Chain d.store (visitsFrom formatter settings lookup d parts) e.store
  | [], _, d, e, _, h => by
    cases h
    exact .nil _
  | p :: rest, className, d, e, hd, h => by
    rw [List.foldlM_cons, bind_eq_ok] at h
    obtain ⟨f, hf, h⟩ := h
    obtain ⟨hsound, hchain⟩ := (p.sound_start settings lookup hd).chain p.fits_sites
      (Part.foldlM_of_visitPart formatter settings lookup hf)
    rw [p.store_start] at hchain
    rw [visitsFrom, hf]
    exact hchain.append (chain_visitsFrom hsound h)

namespace Plan

variable {policy : NamePolicy} {scene : Scene} {lookup : ConstructorLookup}
  {settings : Settings} {plan : Plan}
  (h : ofSceneWith policy scene lookup settings = .ok plan)
include h

/-- **The visits of a run are a chain.** -/
theorem chain_visits :
    Visit.Chain .empty (visits policy scene lookup settings) plan.store := by
  rw [ofSceneWith, bind_eq_ok] at h
  obtain ⟨d, hd, h⟩ := h
  cases h
  exact chain_visitsFrom (Draft.sound_empty none) hd

/-- **Every visit is on the way to the plan.** -/
theorem exists_leadsTo {v : Visit} (hv : v ∈ visits policy scene lookup settings) :
    ∃ className e, v.LeadsTo className e plan.store :=
  (chain_visits h).exists_leadsTo v hv

/-- **Every insertion is made in a visit.** -/
theorem exists_makes {id : InsertionId} (hid : id < plan.store.size) :
    ∃ v ∈ visits policy scene lookup settings, v.Makes id :=
  (chain_visits h).exists_makes (Nat.zero_le id) hid

/-- **Every insertion was made at a spot** of the site of the visit that it was made in. -/
theorem madeAt {id : InsertionId} {i : Insertion} (hi : plan.store.get? id = some i) :
    ∃ v ∈ visits policy scene lookup settings, v.Makes id
      ∧ ∃ p ∈ v.site.spots, i.MadeAt v.ctx p := by
  obtain ⟨v, hv, hmakes⟩ := exists_makes h (Store.lt_size hi)
  obtain ⟨className, e, hleads⟩ := exists_leadsTo h hv
  exact ⟨v, hv, hmakes, hleads.madeAt hmakes hi⟩

end Plan

end AnnotationPlan
