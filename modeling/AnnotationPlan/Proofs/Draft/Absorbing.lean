import AnnotationPlan.Proofs.Draft.Accounts
import AnnotationPlan.Proofs.Draft.Making
import AnnotationPlan.Proofs.Draft.Placing
import AnnotationPlan.Proofs.Draft.Receiving

/-!
# Working off a class keeps its account in balance

While a class is worked off for which a constructor is written, the account of the constructor
is in balance from spot to spot. At spots that are not on the constructor no annotation on it
is made, none is in hand, and what the constructor has does not change
(`Steps.accounts`). At a spot on it annotations either become insertions of their own, each
of which goes where it belongs at once (`Draft.Sound.accounts_addSingle`), or they are gathered
in an insertion that is no single annotation, whatever becomes of that
(`Draft.Sound.accounts_gather`).

All this takes that the positions within the types have paths into them. A position without
one would be on the constructor as much as the type itself, and what is withheld there goes
nowhere but into the output.
-/

namespace AnnotationPlan

open Insertion

variable {ctx : Context} {p : Spot} {base : Nat} {name : String}

/-- **What is made for a note of a spot** is on the constructor of the class if the spot is. -/
theorem Spot.Fits.isOnConstructorOf_insertion (hp : p.Fits (some name))
    (hwrites : ctx.writesConstructor = true) (n : Note) :
    (p.insertion n).isOnConstructorOf name = true ↔ ctx.OnConstructor p.toPosition := by
  show (p.insertion n).criteria.compose.isOnConstructorOf name = true ↔ _
  have hname : (p.insertion n).criteria.compose.className? = some name :=
    (p.className?_insertion n).trans hp.className?_eq
  rw [Criteria.isOnConstructorOf_iff, Context.onConstructor_iff, hname,
    p.targetsImplicitConstructor_insertion n, p.hasTypePath_insertion n]
  simp only [hwrites, true_and]
  exact and_comm

/-! ## Spots elsewhere -/

/-- **There is no annotation on the constructor in hand.** -/
def Work.HoldsOff (name : String) (w : Work) : Prop :=
  ∀ j ∈ w.hand, w.draft.store.IsOff name j

/-- Taking an insertion in hand that is no annotation on the constructor. -/
theorem Work.HoldsOff.push {d d' : Draft} {hand : List InsertionId}
    {written : List (InsertionId × InsertionId)} {i : Insertion}
    (h : Work.HoldsOff name ⟨d, hand, written⟩) (hi : i.isOnConstructorOf name = false)
    (hstore : d'.store = d.store.push i) :
    Work.HoldsOff name ⟨d', hand ++ [d.store.size], written⟩ := by
  show ∀ j ∈ hand ++ [d.store.size], d'.store.IsOff name j
  rw [hstore]
  intro j hj
  rcases List.mem_append.mp hj with hj | hj
  · exact (h j hj).grows (Store.grows_push _ _)
  · obtain rfl := List.mem_singleton.mp hj
    exact ⟨i, Store.get?_push_size _ _, hi⟩

/-- **A step at a spot that is not on the constructor** leaves the account in balance, and takes
no annotation on the constructor in hand. -/
theorem Step.accounts {w w' : Work} (h : Step ctx p base w w') (hd : w.draft.Sound (some name))
    (hp : p.Fits (some name)) (hwrites : ctx.writesConstructor = true)
    (hoff : ¬ ctx.OnConstructor p.toPosition) (hhand : w.HoldsOff name)
    (ha : w.draft.Accounts name []) : w'.HoldsOff name ∧ w'.draft.Accounts name [] := by
  have hgrows := h.grows hd
  have hoffSingle : ∀ n : Note, (p.insertion n).isOnConstructorOf name = false := fun n =>
    Bool.eq_false_iff.mpr (fun hon => hoff ((hp.isOnConstructorOf_insertion hwrites n).mp hon))
  have hnew : ∀ id i, w.draft.store.size ≤ id → w'.draft.store.get? id = some i →
      i.isOnConstructorOf name = false := by
    intro id i hid hi
    cases h.madeAt hd hi hid with
    | single n note form => exact hoffSingle n
    | _ => rfl
  have hsettle : w'.hand ⊆ w.hand → w'.HoldsOff name :=
    fun hsub j hj => (hhand j (hsub hj)).grows hgrows
  -- as long as the constructor is left alone, all that counts is what comes into the output
  have hkeep : ∀ ids : List InsertionId, w'.draft.placed = ids.reverse ++ w.draft.placed →
      (∀ id ∈ ids, w'.draft.store.IsOff name id) →
      w'.draft.constructor = w.draft.constructor →
      (∀ c, w.draft.constructor = some c → w'.draft.store.get? c = w.draft.store.get? c) →
      w'.draft.Accounts name [] := by
    intro ids hplaced hids hconstructor hget
    obtain ⟨hdeclared, hnames⟩ := Draft.declared_eq_of_get? hconstructor hget
    exact ha.grow ids hgrows hnew hdeclared hnames hplaced hids
  have hnone : ∀ id ∈ ([] : List InsertionId), w'.draft.store.IsOff name id :=
    fun id hid => absurd hid List.not_mem_nil
  have hold : ∀ {c : InsertionId}, w.draft.constructor = some c → c < w.draft.store.size :=
    fun hc => (hd.constructor_has _ hc).lt_size
  cases h with
  | single n form note =>
    exact ⟨hhand.push (hoffSingle n) rfl,
      hkeep [] rfl hnone rfl (fun c hc => Store.get?_push_of_lt (hold hc) _)⟩
  | receiver text inner form within =>
    exact ⟨hhand.push rfl rfl,
      hkeep [] rfl hnone rfl (fun c hc => Store.get?_push_of_lt (hold hc) _)⟩
  | new text inner form within =>
    exact ⟨hhand.push rfl rfl,
      hkeep [] rfl hnone rfl (fun c hc => Store.get?_push_of_lt (hold hc) _)⟩
  | @cast d hand inner written store type text form within made =>
    obtain ⟨-, ⟨decorated, hcast⟩, hclose, -⟩ := Store.pushCast_spec made
    refine ⟨fun j hj => ?_,
      hkeep [] rfl hnone rfl (fun c hc => Store.get?_pushCast_of_lt made (hold hc))⟩
    rcases List.mem_append.mp hj with hj | hj
    · exact (hhand j (List.mem_append_left _ hj)).grows hgrows
    · rcases List.mem_cons.mp hj with rfl | hj
      · exact ⟨_, hcast, rfl⟩
      · obtain rfl := List.mem_singleton.mp hj
        exact ⟨_, hclose, rfl⟩
  | record id n known =>
    exact ⟨hsettle (List.Subset.refl _), hkeep [] rfl hnone rfl (fun _ _ => rfl)⟩
  | construct n note on none made => exact absurd on hoff
  | place ids paired =>
    exact ⟨hsettle (List.subset_append_left _ _), hkeep ids rfl
      (fun j hj => hhand j (List.mem_append_right _ hj)) rfl (fun _ _ => rfl)⟩
  | fold n note on result single constructor made => exact absurd on hoff
  | declare n ids note on declaration kind paired constructor made => exact absurd on hoff
  | receive on form kind constructor made => exact absurd on hoff
  | annotate n note new kind made =>
    obtain ⟨-, hplaced, hconstructor⟩ := Draft.addNote_spec made
    exact ⟨hsettle (List.Subset.refl _), hkeep [] hplaced hnone hconstructor
      (fun c hc => hd.get?_addNote kind made hc)⟩

/-- **All steps at a spot that is not on the constructor** leave the account in balance. -/
theorem Steps.accounts {w w' : Work} (h : Steps ctx p base w w')
    (hd : w.draft.Sound (some name)) (hp : p.Fits (some name))
    (hwrites : ctx.writesConstructor = true) (hoff : ¬ ctx.OnConstructor p.toPosition)
    (hhand : w.HoldsOff name) (ha : w.draft.Accounts name []) :
    w'.HoldsOff name ∧ w'.draft.Accounts name [] := by
  induction h with
  | refl => exact ⟨hhand, ha⟩
  | tail hsteps hlast ih =>
    exact hlast.accounts (Steps.sound hsteps hp hd).1 hp hwrites hoff ih.1 ih.2

/-! ## Spots on the constructor -/

namespace Draft

variable {d e : Draft} {l : CriteriaList} {hand inner : List InsertionId} {c id : InsertionId}
  {n : Note} {notes : List Note}

/-- **Asking for the constructor** does not change what it has: a new one has nothing. -/
theorem declared_ensureConstructor (h : d.ensureConstructor l = .ok (e, c)) :
    e.declared = d.declared ∧ e.nameTexts = d.nameTexts := by
  unfold Draft.ensureConstructor at h
  cases hc : d.constructor with
  | some k =>
    rw [hc] at h
    cases h
    exact ⟨rfl, rfl⟩
  | none =>
    rw [hc] at h
    obtain ⟨store, hstore, h⟩ := bind_eq_ok.mp h
    cases h
    obtain ⟨className, -, rfl⟩ := Store.pushConstructor_eq_ok.mp hstore
    have hget := Store.get?_push_size d.store
      (.constructor l (.named (Name.simple className)) none [])
    refine ⟨(declared_of_get? (c := d.store.size) rfl hget).trans ?_,
      (nameTexts_of_get? (c := d.store.size) rfl hget).trans ?_⟩
    · rw [declared, hc]
      rfl
    · rw [nameTexts, hc]
      rfl

/-- **Asking for the constructor** leaves the account in balance. -/
theorem Accounts.ensureConstructor (ha : d.Accounts name hand)
    (h : d.ensureConstructor l = .ok (e, c)) : e.Accounts name hand := by
  obtain ⟨hdeclared, hnames⟩ := declared_ensureConstructor h
  unfold Draft.ensureConstructor at h
  cases hc : d.constructor with
  | some k =>
    rw [hc] at h
    cases h
    exact ha
  | none =>
    rw [hc] at h
    obtain ⟨store, hstore, h⟩ := bind_eq_ok.mp h
    cases h
    obtain ⟨className, -, rfl⟩ := Store.pushConstructor_eq_ok.mp hstore
    refine ha.grow [d.store.size] (Store.grows_push _ _) (fun j k hj hk => ?_) hdeclared
      hnames rfl (List.forall_mem_singleton.mpr ⟨_, Store.get?_push_size _ _, rfl⟩)
    obtain rfl := Store.eq_of_get?_push hk hj
    rfl

/-- **The constructor takes up an annotation in hand**, on its name or above it, unless it stands
on types only. That the annotation is in the output while this is done (`g`) does not show
afterwards. -/
theorem Accounts.absorbInto {g : Draft} {criteria : CriteriaList} {type : JavaType}
    {receiver : Option InsertionId} {declarations : List InsertionId} {cs : Criteria}
    {absorbed : Bool} (hd : d.Accounts name [id]) (hc : d.constructor = some c)
    (hget : d.store.get? c = some (.constructor criteria type receiver declarations))
    (hi : d.store.get? id = some (.single n.text l (!n.typeOnly)))
    (hon : l.compose.isOnConstructorOf name = true)
    (hresult : l.compose.isOnReturnType = cs.isOnReturnType) (hlast : ∀ j ∈ d.declared, j < id)
    (hstore : g.store = d.store)
    (hunplace : ∀ store, ({ g with store } : Draft).unplace [id] = { d with store })
    (h : g.absorbInto c cs n [id] = .ok (e, absorbed)) :
    e.Accounts name [] ∨ e = g ∧ l.compose.isOnReturnType = false ∧ n.typeOnly = true := by
  have hi' : g.store.get? id = some (.single n.text l (!n.typeOnly)) := hstore ▸ hi
  rw [absorbInto_of_not_receiver hi' (fun hk => hk), hstore] at h
  split at h
  case isTrue onResult =>
    rw [Store.addTypeAnnotation_eq_ok.mpr ⟨_, hget, rfl, rfl⟩] at h
    cases h
    rw [hunplace]
    have hl : l.compose.isOnReturnType = true := hresult.trans onResult
    exact .inl (hd.fold hc hget hi hl (if_pos (Bool.and_eq_true_iff.mpr ⟨hon, hl⟩)))
  case isFalse notOnResult =>
    rw [Bool.not_eq_true, ← hresult] at notOnResult
    split at h
    case isTrue typeOnly =>
      cases h
      exact .inr ⟨rfl, notOnResult, typeOnly⟩
    case isFalse declaration =>
      rw [Store.attachDeclarations_eq _ hget] at h
      cases h
      rw [hunplace]
      refine .inl (hd.declare hc hget (List.pairwise_singleton _ _)
        (List.forall_mem_singleton.mpr ⟨Store.lt_size hi, hlast⟩) (List.Subset.refl _)
        (List.forall_mem_singleton.mpr (fun i hj _ => ?_)))
      obtain rfl := Option.some.inj (hi.symm.trans hj)
      refine ⟨List.mem_cons_self, notOnResult, ?_⟩
      show (!n.typeOnly) = true
      simpa using declaration

section OnConstructor

variable (hp : p.Fits (some name)) (on : ctx.OnConstructor p.toPosition)
include hp on

/-- **An annotation on the constructor that becomes an insertion of its own** goes where it
belongs. -/
theorem Sound.accounts_addSingle (hd : d.Sound (some name))
    (note : ctx.HasNote p.toPosition n) (ha : d.Accounts name [])
    (h : addSingle ctx p.criteria p.criteria.compose false d n = .ok (e, id)) :
    e.Accounts name [] := by
  let f : Draft :=
    ({ d with store := d.store.push (p.insertion n) } : Draft).record d.store.size n
  have hold : ∀ c, d.constructor = some c → c < d.store.size :=
    fun c hc => (hd.constructor_has c hc).lt_size
  have hwrites := (Context.onConstructor_iff.mp on).2.1
  have hon : (p.insertion n).isOnConstructorOf name = true :=
    (hp.isOnConstructorOf_insertion hwrites n).mpr on
  have hget : f.store.get? d.store.size = some (p.insertion n) := Store.get?_push_size _ _
  have hf : f.Accounts name [d.store.size] := ha.take hd.placed_lt hon rfl rfl rfl hold
  have hgrows : d.store.Grows f.store := Store.grows_push _ _
  have hsound : f.Sound (some name) :=
    hd.of_grows hgrows (hd.wired.push (i := p.insertion n) trivial) rfl rfl
  obtain ⟨⟨e', absorbed⟩, habsorb, hpure⟩ := bind_eq_ok.mp h
  cases hpure
  have habsorb : absorb ctx p.criteria p.criteria.compose (f.place [d.store.size]) n
    [d.store.size] = .ok (e, absorbed) := habsorb
  -- the constructor is asked for with the annotation in the output, and it is taken out again
  obtain ⟨g, c, hensure, hc, -, hsteps⟩ := exists_ensureConstructor hp on note f
  obtain ⟨g', hensure', hstore, hunplace⟩ :=
    ensureConstructor_place hensure (Store.lt_size hget)
  obtain ⟨hgsound, hgrown⟩ := (hsteps 0 [] []).sound hp hsound
  have hg : g.Accounts name [d.store.size] := hf.ensureConstructor hensure
  have hsingle : g.store.get? d.store.size = some (p.insertion n) := hgrown.get?_single hget
  have hdeclared : g.declared = d.declared :=
    (declared_ensureConstructor hensure).1.trans (declared_eq_of_get? (d := d) (e := f) rfl
      (fun c hc => Store.get?_push_of_lt (hold c hc) _)).1
  obtain ⟨criteria, type, receiver, declarations, hcget, -⟩ := hgsound.get?_constructor hc
  rw [absorb_of_on on, hensure'] at habsorb
  obtain htaken | ⟨rfl, notOnResult, typeOnly⟩ := hg.absorbInto hc hcget hsingle hon
    (p.isOnReturnType_insertion n) (hdeclared ▸ ha.declared_lt) hstore hunplace habsorb
  · exact htaken
  · refine (hf.put hget notOnResult ?_).ensureConstructor hensure'
    show (!n.typeOnly) = false
    rw [typeOnly]
    rfl

/-- **Annotations on the constructor that become insertions of their own** go where they
belong. -/
theorem accounts_addSingles (hform : p.form = .single) :
    ∀ {notes : List Note} {d : Draft} {ids : List InsertionId}, d.Sound (some name) →
      (∀ n ∈ notes, ctx.HasNote p.toPosition n) → d.Accounts name [] →
      addSingles ctx p.criteria p.criteria.compose false d notes = .ok (e, ids) →
      e.Accounts name []
  | [], _, _, _, _, ha, h => by
    cases h
    exact ha
  | n :: rest, d, _, hd, hnotes, ha, h => by
    obtain ⟨note, hrest⟩ := List.forall_mem_cons.mp hnotes
    obtain ⟨⟨f, id⟩, hf, h⟩ := bind_eq_ok.mp h
    obtain ⟨⟨g, more⟩, hg, h⟩ := bind_eq_ok.mp h
    cases h
    obtain ⟨-, hsteps⟩ := (addSingle_yields hd hp hform note false).of_ok hf
    have hsound := ((hsteps 0 [] []).sound hp hd).1
    exact accounts_addSingles hform hsound hrest (hd.accounts_addSingle hp on note ha hf) hg

end OnConstructor

/-! ### What gathers annotations -/

/-- **An insertion changes that is not on the constructor**, and the constructor keeps what it
has. -/
theorem Accounts.touch (ha : d.Accounts name hand) (hgrows : d.store.Grows e.store)
    (hsize : e.store.size = d.store.size) (hdeclared : e.declared = d.declared)
    (hnames : e.nameTexts = d.nameTexts) (hplaced : e.placed = d.placed) :
    e.Accounts name hand :=
  ha.grow [] hgrows
    (fun _ _ hid hi => absurd (hsize ▸ Store.lt_size hi) (Nat.not_lt.mpr hid)) hdeclared hnames
    hplaced (fun _ hid => absurd hid List.not_mem_nil)

/-- What gathers annotations comes behind what is there. -/
theorem get?_create_of_lt {form : Form} {text : Option String} {made : List InsertionId}
    (h : create form l inner text d = .ok (e, made)) :
    e.constructor = d.constructor ∧ ∀ j < d.store.size, e.store.get? j = d.store.get? j := by
  cases form with
  | cast type =>
    obtain ⟨store, hstore, h⟩ := bind_eq_ok.mp h
    cases h
    exact ⟨rfl, fun j hj => Store.get?_pushCast_of_lt hstore hj⟩
  | single =>
    cases h
    exact ⟨rfl, fun _ _ => rfl⟩
  | _ =>
    cases h
    exact ⟨rfl, fun j hj => Store.get?_push_of_lt hj _⟩

/-- **What gathers annotations is made**, and it is no annotation on the constructor. -/
theorem Sound.accounts_create (hd : d.Sound (some name)) (ctx : Context) (hform : p.form ≠ .single)
    (hinner : ∀ j ∈ inner, d.store.Has IsWithin j) {text : Option String}
    {made : List InsertionId} (ha : d.Accounts name [])
    (h : create p.form p.criteria inner text d = .ok (e, made)) :
    e.Accounts name [] ∧ e.declared = d.declared := by
  obtain ⟨-, hplaced, hstep⟩ := (create_yields ctx hform hinner text).of_ok h
  obtain ⟨hconstructor, hget⟩ := get?_create_of_lt h
  obtain ⟨hdeclared, hnames⟩ := declared_eq_of_get? hconstructor
    (fun c hc => hget c (hd.constructor_has c hc).lt_size)
  refine ⟨ha.grow [] ((hstep 0 [] []).grows hd) (fun id i hid hi => ?_) hdeclared hnames
    hplaced (fun id hid => absurd hid List.not_mem_nil), hdeclared⟩
  cases (hstep 0 [] []).madeAt hd hi hid with
  | single n note form => exact absurd form hform
  | _ => rfl

end Draft

/-- What gathers annotations is no annotation itself. -/
theorem Made.isOff {s : Store} {id : InsertionId} {made : List InsertionId}
    (h : Made p s id made) : ∀ j ∈ made, s.IsOff name j := by
  cases h with
  | receiver form get => exact List.forall_mem_singleton.mpr ⟨_, get, rfl⟩
  | new form get => exact List.forall_mem_singleton.mpr ⟨_, get, rfl⟩
  | cast form get close =>
    exact List.forall_mem_cons.mpr ⟨⟨_, get, rfl⟩, List.forall_mem_singleton.mpr ⟨_, close, rfl⟩⟩

/-- Nor is it the constructor. -/
theorem Made.constructor_ne {d : Draft} {className : Option String} {id : InsertionId}
    {made : List InsertionId} (h : Made p d.store id made) (hd : d.Sound className) :
    d.constructor ≠ some id := fun hc => by
  obtain ⟨i, hi, -, hnot⟩ := h.has
  obtain ⟨j, hj, hkind, -⟩ := hd.constructor_has _ hc
  obtain rfl := Option.some.inj (hi.symm.trans hj)
  exact hnot hkind

/-- What was there before is in the output of a later draft if it was before. -/
theorem Draft.Later.mem_placed_iff {d e : Draft} {id : InsertionId} (h : d.Later e)
    (hid : id < d.store.size) : id ∈ e.placed ↔ id ∈ d.placed := by
  obtain ⟨new, hnew, hmade⟩ := h.placed
  rw [hnew, List.mem_append]
  exact or_iff_right (fun hmem => Nat.not_lt_of_le (hmade id hmem).1 hid)

namespace Draft

variable {d e : Draft} {l : CriteriaList} {hand inner made : List InsertionId}
  {c id : InsertionId} {n : Note} {notes : List Note}

/-- **A receiver goes to the constructor**, which keeps what is above it and on its name. -/
theorem Accounts.absorbReceiver (ha : d.Accounts name hand) (hc : d.constructor = some c)
    (h : d.absorbReceiver c id = .ok e) : e.Accounts name hand := by
  obtain ⟨⟨kept, hattach⟩, hplaced, hconstructor⟩ := absorbReceiver_spec h
  obtain ⟨criteria, type, receiver, declarations, hget, hcases⟩ :=
    Store.attachReceiver_cases hattach
  -- whichever receiver it has afterwards, all else about the constructor is as it was
  have hget' : ∃ receiver', e.store.get? c
      = some (.constructor criteria type receiver' declarations) := by
    obtain ⟨-, -, hstore⟩ | ⟨-, -, hstore⟩ | ⟨_, _, _, _, _, _, -, -, hkept, -, hstore⟩ := hcases
    · exact ⟨some id, by rw [hstore, Store.get?_modify_self hget]⟩
    · exact ⟨receiver, hstore ▸ hget⟩
    · refine ⟨receiver, ?_⟩
      have hne : kept ≠ c := fun heq => by
        subst heq
        cases hget.symm.trans hkept
      rw [hstore, Store.get?_modify_of_ne hne, hget]
  obtain ⟨receiver', hget'⟩ := hget'
  exact ha.touch (Store.grows_attachReceiver hattach) (Store.size_attachReceiver hattach)
    ((declared_of_get? (hconstructor.trans hc) hget').trans (declared_of_get? hc hget).symm)
    ((nameTexts_of_get? (hconstructor.trans hc) hget').trans (nameTexts_of_get? hc hget).symm)
    hplaced

/-- **Further annotations on what gathers them** do not touch the constructor. -/
theorem Accounts.addNotes :
    ∀ {notes : List Note} {d : Draft}, d.constructor ≠ some id → d.Accounts name hand →
      notes.foldlM (addNote id) d = .ok e → e.Accounts name hand
  | [], _, _, ha, h => by
    cases h
    exact ha
  | n :: rest, d, hid, ha, h => by
    rw [List.foldlM_cons] at h
    obtain ⟨f, hf, h⟩ := bind_eq_ok.mp h
    obtain ⟨hstore, hplaced, hconstructor⟩ := addNote_spec hf
    obtain ⟨i, -, -, hmodify⟩ := Store.addTypeAnnotation_eq_ok.mp hstore
    obtain ⟨hdeclared, hnames⟩ := declared_eq_of_get? hconstructor (fun c hc => by
      have hne : id ≠ c := fun heq => hid (hc.trans (congrArg some heq.symm))
      rw [hmodify, Store.get?_modify_of_ne hne])
    exact addNotes (hconstructor ▸ hid) (ha.touch
      (Store.grows_addTypeAnnotation hstore) (Store.size_addTypeAnnotation hstore) hdeclared
      hnames hplaced) h

section OnConstructor

variable (hp : p.Fits (some name)) (on : ctx.OnConstructor p.toPosition)
include hp on

/-- **What was made is absorbed or not**: a receiver becomes that of the constructor, and
anything else goes above it, behind what is there, or stays in hand. -/
theorem Sound.accounts_absorb (hd : d.Sound (some name)) (note : ctx.HasNote p.toPosition n)
    (hmade : Made p d.store id made) (hordered : made.Pairwise (· < ·))
    (hlater : ∀ j ∈ made, ∀ k ∈ d.declared, k < j) (hout : ∀ j ∈ made, j ∉ d.placed)
    (ha : d.Accounts name []) {absorbed : Bool}
    (h : absorb ctx p.criteria p.criteria.compose d n made = .ok (e, absorbed)) :
    e.Accounts name [] := by
  obtain ⟨g, c, hensure, hc, -, hsteps⟩ := exists_ensureConstructor hp on note d
  obtain ⟨hsound, hgrows⟩ := (hsteps 0 [] []).sound hp hd
  have hg : g.Accounts name [] := ha.ensureConstructor hensure
  have hdeclared : g.declared = d.declared := (declared_ensureConstructor hensure).1
  have hmade' := hmade.grows hgrows
  have hout' : ∀ j ∈ made, j ∉ g.placed := fun j hj =>
    ((later_ensureConstructor hensure).mem_placed_iff (hmade.mem j hj).2).not.mpr (hout j hj)
  have hunplace : ∀ store, ({ g with store } : Draft).unplace made = { g with store } :=
    fun store => unplace_of_notMem hout'
  rw [absorb_of_on on, hensure] at h
  have h : g.absorbInto c p.criteria.compose n made = .ok (e, absorbed) := h
  by_cases hform : p.form = .receiver
  case pos =>
    cases hmade' with
    | new form get => exact absurd (form.symm.trans hform) (by simp)
    | cast form get close => exact absurd (form.symm.trans hform) (by simp)
    | receiver form get =>
      rw [absorbInto, get] at h
      obtain ⟨f, hf, h⟩ := bind_eq_ok.mp h
      cases h
      rw [unplace_of_notMem (d := f) ((absorbReceiver_spec hf).2.1 ▸ hout')]
      exact hg.absorbReceiver hc hf
  case neg =>
    obtain ⟨criteria, type, receiver, declarations, hget, -⟩ := hsound.get?_constructor hc
    obtain ⟨rest, rfl⟩ : ∃ rest, made = id :: rest := by cases hmade <;> exact ⟨_, rfl⟩
    obtain ⟨i, hi, hdeclarable, -⟩ := hmade'.declarable hform id List.mem_cons_self
    have hnot : ¬ i.IsReceiver := fun hk => by
      cases i <;> first | exact hk | exact hdeclarable
    have hresult : ¬ p.criteria.compose.isOnReturnType = true :=
      fun hk => hmade.form_ne_single (hp.returnType hk)
    rw [absorbInto_of_not_receiver hi hnot, if_neg hresult] at h
    split at h
    case isTrue =>
      cases h
      exact hg
    case isFalse =>
      rw [Store.attachDeclarations_eq _ hget] at h
      cases h
      rw [hunplace]
      exact hg.declare hc hget hordered
        (fun j hj => ⟨(hmade'.mem j hj).2, hdeclared ▸ hlater j hj⟩) (List.nil_subset _)
        (fun j hj i hi hon => absurd hon ((hmade'.isOff j hj).not_on hi))

/-- **Annotations on the constructor that are gathered** leave the account in balance. -/
theorem Sound.accounts_gather (hd : d.Sound (some name)) (hform : p.form ≠ .single)
    (hinner : ∀ j ∈ inner, d.store.Has IsWithin j)
    (hnotes : ∀ n ∈ notes, ctx.HasNote p.toPosition n) (ha : d.Accounts name [])
    (h : gather ctx p.form p.criteria p.criteria.compose inner d notes = .ok e) :
    e.Accounts name [] := by
  -- what was made is put into the output in the end, unless the constructor took it
  have hput : ∀ {f : Draft} {made : List InsertionId}, f.Accounts name [] →
      Made p f.store d.store.size made → (f.place made).Accounts name [] := fun hf hmade =>
    hf.grow _ (.refl _) (fun _ _ hid hi => absurd (Store.lt_size hi) (Nat.not_lt.mpr hid)) rfl rfl
      rfl hmade.isOff
  cases notes with
  | nil =>
    rw [gather] at h
    split at h
    case isTrue =>
      obtain ⟨⟨f, made⟩, hf, h⟩ := bind_eq_ok.mp h
      cases h
      obtain ⟨hmade, -⟩ := (create_yields ctx hform hinner none).of_ok hf
      exact hput (hd.accounts_create ctx hform hinner ha hf).1 hmade
    case isFalse =>
      cases h
      exact ha
  | cons n rest =>
    obtain ⟨⟨f, made⟩, hf, h⟩ := bind_eq_ok.mp h
    obtain ⟨⟨g, absorbed⟩, hg, h⟩ := bind_eq_ok.mp h
    obtain ⟨k, hk, h⟩ := bind_eq_ok.mp h
    obtain ⟨note, hrest⟩ := List.forall_mem_cons.mp hnotes
    obtain ⟨hmade, hplaced, hstep⟩ := (create_yields ctx hform hinner (some n.text)).of_ok hf
    obtain ⟨-, hfresh, -⟩ := create_spec hf
    obtain ⟨hcreated, hdeclared⟩ := hd.accounts_create ctx hform hinner ha hf
    have hfsound := (hstep 0 [] []).sound hp hd
    have hrecord : (f.record d.store.size n).Sound (some name) :=
      hfsound.of_grows (.refl _) hfsound.wired rfl rfl
    have hout : ∀ j ∈ made, j ∉ f.placed := fun j hj hmem =>
      Nat.not_lt_of_le (hfresh.between j hj).1 (hd.placed_lt j (hplaced ▸ hmem))
    have hga : g.Accounts name [] := hrecord.accounts_absorb hp on note hmade hfresh.ordered
      (fun j hj i hi => Nat.lt_of_lt_of_le (ha.declared_lt i (hdeclared ▸ hi))
        (hfresh.between j hj).1) hout (hcreated.touch (.refl _) rfl rfl rfl rfl) hg
    obtain ⟨hgsound, hgrows⟩ :=
      (((absorb_made_yields hrecord hp note hmade hout).of_ok hg) 0 [] []).sound hp hrecord
    have hka : k.Accounts name [] :=
      hga.addNotes ((hmade.grows hgrows).constructor_ne hgsound) hk
    have hkmade : Made p k.store d.store.size made :=
      (hmade.grows hgrows).grows (Steps.sound
        (((addNotes_yields hgsound hp (hmade.grows hgrows).has (Nat.le_refl _) hrest).of_ok hk)
          [] []) hp hgsound).2
    cases absorbed with
    | true =>
      cases h
      exact hka
    | false =>
      cases h
      exact hput hka hkmade

end OnConstructor

/-! ## Visits -/

section Visits

variable {s : Site} (hs : s.Fits (some name)) (hwrites : ctx.writesConstructor = true)
  (hpaths : ∀ q ∈ s.nested, q.criteria.compose.hasTypePath = true)
include hs hwrites hpaths

/-- **The positions within the type of a site** are not on the constructor, and what is
withheld there is no annotation on it. -/
theorem accounts_visitAllNested : ∀ {positions : List Position} {d : Draft}
    {ids : List InsertionId}, positions ⊆ s.nested → d.Sound (some name) → d.Accounts name [] →
      visitAllNested ctx s.withholds d positions = .ok (e, ids) →
      e.Accounts name [] ∧ ∀ j ∈ (if s.withholds then ids else []), e.store.IsOff name j
  | [], d, _, _, _, ha, h => by
    cases h
    exact ⟨ha, by simp⟩
  | q :: rest, d, _, hsub, hd, ha, h => by
    have hq : q ∈ s.nested := hsub List.mem_cons_self
    have hp := hs.spots _ (Site.within_mem_spots hq)
    have hrest := List.subset_of_cons_subset hsub
    have hoff : ¬ ctx.OnConstructor (Spot.within q).toPosition := fun on =>
      absurd ((hpaths q hq).symm.trans (Context.onConstructor_iff.mp on).1) (by simp)
    obtain ⟨⟨f, first⟩, hf, h⟩ := bind_eq_ok.mp h
    obtain ⟨⟨g, more⟩, hg, h⟩ := bind_eq_ok.mp h
    cases h
    obtain ⟨-, hsteps⟩ := (visitNested_yields hd hp (hs.within q hq) s.withholds).of_ok hf
    have hfsound := ((hsteps [] []).sound hp hd).1
    obtain ⟨hhand, hfa⟩ := (hsteps [] []).accounts hd hp hwrites hoff
      (fun j hj => absurd hj List.not_mem_nil) ha
    obtain ⟨hga, hmore⟩ := accounts_visitAllNested hrest hfsound hfa hg
    refine ⟨hga, fun j hj => ?_⟩
    have hgrows := ((((visitAllNested_yields hs hrest hfsound (Nat.le_refl _)).of_ok hg).2
      [] []).sound hs hfsound).2
    cases hw : s.withholds with
    | false => simp [hw] at hj
    | true =>
      rw [hw] at hj hhand hmore
      rcases List.mem_append.mp hj with hj | hj
      · exact (hhand j hj).grows hgrows
      · exact hmore j hj

omit hpaths in
/-- **The site itself.** -/
theorem Sound.accounts_visitOwn (hd : d.Sound (some name)) (ha : d.Accounts name [])
    (hinner : ∀ j ∈ inner, d.store.Has IsWithin j)
    (hoff : ∀ j ∈ (if s.withholds then inner else []), d.store.IsOff name j)
    (h : visitOwn ctx s d inner = .ok e) : e.Accounts name [] := by
  have hp := hs.spots _ s.spot_mem_spots
  by_cases on : ctx.OnConstructor s.spot.toPosition
  case neg =>
    exact ((((visitOwn_yields hd hs hinner).of_ok h).2 []).accounts hd hp hwrites on hoff ha).2
  have hrelease := ((release_steps ctx hs hinner d.store.size []).sound hp hd).1
  have hra : (release s d inner).Accounts name [] := by
    unfold release
    split
    case isTrue hplace =>
      rw [(Bool.and_eq_true_iff.mp hplace).1] at hoff
      exact ha.grow inner (.refl _)
        (fun _ _ hid hi => absurd (Store.lt_size hi) (Nat.not_lt.mpr hid)) rfl rfl rfl hoff
    case isFalse => exact ha
  rw [visitOwn, bind_eq_ok] at h
  obtain ⟨notes, hnotes, h⟩ := h
  have hnotes := (notes_yields ctx s.toPosition).of_ok hnotes
  cases hform : s.spot.form with
  | single =>
    rw [hform] at h
    obtain ⟨⟨f, ids⟩, hf, h⟩ := bind_eq_ok.mp h
    cases h
    exact accounts_addSingles hp on hform hrelease hnotes hra hf
  | _ =>
    have hgather : gather ctx s.spot.form s.criteria s.criteria.compose inner
        (release s d inner) notes = .ok e := by
      rw [hform] at h ⊢
      exact h
    exact hrelease.accounts_gather hp on (by rw [hform]; simp)
      (fun j hj => by rw [store_release]; exact hinner j hj) hnotes hra hgather

/-- **A visit leaves the account in balance.** -/
theorem Sound.accounts_visit (hd : d.Sound (some name)) (ha : d.Accounts name [])
    (h : visit ctx d s = .ok e) : e.Accounts name [] := by
  rw [visit_eq, bind_eq_ok] at h
  obtain ⟨⟨f, inner⟩, hf, h⟩ := h
  obtain ⟨hinner, hsteps⟩ :=
    (visitAllNested_yields hs (List.Subset.refl _) hd (Nat.le_refl _)).of_ok hf
  have hsound := ((hsteps [] []).sound hs hd).1
  obtain ⟨hfa, hoff⟩ :=
    accounts_visitAllNested hs hwrites hpaths (List.Subset.refl _) hd ha hf
  exact hsound.accounts_visitOwn hs hwrites hfa hinner hoff h

end Visits

/-- **All visits to the sites of a class leave the account of its constructor in balance**, if
one is written for it. -/
theorem accounts_visits (hwrites : ctx.writesConstructor = true) :
    ∀ {sites : List Site} {d e : Draft}, (∀ s ∈ sites, s.Fits (some name)) →
      (∀ s ∈ sites, ∀ q ∈ s.nested, q.criteria.compose.hasTypePath = true) →
      d.Sound (some name) → d.Accounts name [] → sites.foldlM (visit ctx) d = .ok e →
      e.Accounts name []
  | [], d, _, _, _, _, ha, h => by
    cases h
    exact ha
  | s :: rest, d, e, hsites, hpaths, hd, ha, h => by
    obtain ⟨hs, hrest⟩ := List.forall_mem_cons.mp hsites
    obtain ⟨hpath, hpathsRest⟩ := List.forall_mem_cons.mp hpaths
    rw [List.foldlM_cons, bind_eq_ok] at h
    obtain ⟨f, hf, h⟩ := h
    exact accounts_visits hwrites hrest hpathsRest (hd.of_visit hs hf).1
      (hd.accounts_visit hs hwrites hpath ha hf) h

end Draft

end AnnotationPlan
