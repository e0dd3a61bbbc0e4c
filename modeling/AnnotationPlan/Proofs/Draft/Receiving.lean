import AnnotationPlan.Proofs.Draft.Receiver

/-!
# What becomes of receivers

All spots on the receiver of the constructor without parameters share the one receiver
that the constructor has. The first of them that has annotations makes it, with all its
annotations. Every later one makes a receiver of its own with its first annotation. That
one is merged into the receiver of the constructor; what is added to it afterwards is
added to an insertion that nothing refers to any longer. So of the later spots only the
first annotation each is kept (`Draft.receive`).

At the end of a visit the texts on the receiver are what the spots of the site have made
of them one after another (`Draft.Sound.receiverTexts?_visit`).
-/

namespace AnnotationPlan

open Insertion

namespace Draft

variable {ctx : Context} {p : Spot} {className : Option String} {d e : Draft}
  {c id : InsertionId} {n : Note} {inner : List InsertionId} {notes : List Note}

/-! ## Receiving -/

/-- **What a spot on the receiver makes of the texts** that are there: its own texts if
there are none, and otherwise those that are there and its own first one. -/
def receive (old : Option (List String)) : List String → Option (List String)
  | [] => old
  | first :: rest =>
    match old with
    | none => some (first :: rest)
    | some texts => some (Store.addMissing texts [first])

/-- Asking for the constructor leaves the receiver alone. -/
theorem keepsReceiver_ensureConstructor {criteria : CriteriaList}
    (h : d.ensureConstructor criteria = .ok (e, c)) :
    d.KeepsReceiver e ∧ e.constructor = some c
      ∧ ∀ j < d.store.size, e.store.get? j = d.store.get? j := by
  unfold ensureConstructor at h
  cases hc : d.constructor with
  | some k =>
    rw [hc] at h
    cases h
    exact ⟨.refl _, hc, fun _ _ => rfl⟩
  | none =>
    rw [hc, bind_eq_ok] at h
    obtain ⟨store, hstore, h⟩ := h
    cases h
    refine ⟨keepsReceiver_construct hc hstore, rfl, fun j hj => ?_⟩
    obtain ⟨name, -, rfl⟩ := Store.pushConstructor_eq_ok.mp hstore
    exact Store.get?_push_of_lt hj _

/-- **Adding notes to an insertion** leaves all others alone, and its own texts become
more. -/
theorem addNotes_spec : ∀ {notes : List Note} {d e : Draft},
    notes.foldlM (addNote id) d = .ok e →
    e.constructor = d.constructor
      ∧ (∀ j, j ≠ id → e.store.get? j = d.store.get? j)
      ∧ e.store.textsAt id
          = (d.store.textsAt id).map (fun texts => texts ++ notes.map Note.text)
  | [], d, e, h => by
    obtain rfl : d = e := Except.ok.inj h
    refine ⟨rfl, fun _ _ => rfl, ?_⟩
    simp
  | n :: rest, d, e, h => by
    rw [List.foldlM_cons, bind_eq_ok] at h
    obtain ⟨f, hf, h⟩ := h
    obtain ⟨hconstructor, hstore, htexts⟩ := addNotes_spec h
    obtain ⟨hadd, -, hconstructor'⟩ := addNote_spec hf
    obtain ⟨i, -, -, hmodify⟩ := Store.addTypeAnnotation_eq_ok.mp hadd
    refine ⟨hconstructor.trans hconstructor', fun j hj => ?_, ?_⟩
    · rw [hstore j hj, hmodify, Store.get?_modify_of_ne hj.symm]
    · rw [htexts, hmodify, Store.textsAt_annotate, Option.map_map]
      refine congrArg (fun g => Option.map g _) (funext fun texts => ?_)
      show texts ++ [n.text] ++ rest.map Note.text = texts ++ (n :: rest).map Note.text
      rw [List.append_assoc]
      rfl

/-- **Absorbing a receiver** gives the constructor that receiver, unless it has one that
it keeps. Apart from the constructor and the receiver it had, nothing changes. -/
theorem absorbReceiver_keeps (hc : d.constructor = some c) (h : d.absorbReceiver c id = .ok e) :
    e.receiver? = some (d.receiver?.getD id)
    ∧ ∀ j, j ≠ c → d.receiver? ≠ some j → e.store.get? j = d.store.get? j := by
  obtain ⟨⟨kept, hattach⟩, -, hconstructor⟩ := absorbReceiver_spec h
  obtain ⟨criteria, type, receiver, declarations, hget, hcases⟩ :=
    Store.attachReceiver_cases hattach
  have hc' : e.constructor = some c := hconstructor.trans hc
  rw [show d.receiver? = receiver from receiver?_of_get? hc hget]
  obtain ⟨rfl, -, hstore⟩ | ⟨rfl, -, hstore⟩ | ⟨keptCriteria, keptType, keptInner, place,
    added, inner, rfl, -, hkget, -, hstore⟩ := hcases
  · have hcget : e.store.get? c = some (.constructor criteria type (some id) declarations) := by
      rw [hstore, Store.get?_modify_self hget]
    refine ⟨receiver?_of_get? hc' hcget, fun j hjc _ => ?_⟩
    rw [hstore, Store.get?_modify_of_ne hjc.symm]
  · have hcget := hstore ▸ hget
    exact ⟨receiver?_of_get? hc' hcget, fun j _ _ => by rw [hstore]⟩
  · have hckept : kept ≠ c := by
      intro heq
      subst heq
      cases hget.symm.trans hkget
    have hcget : e.store.get? c = some (.constructor criteria type (some kept) declarations) := by
      rw [hstore, Store.get?_modify_of_ne hckept, hget]
    refine ⟨receiver?_of_get? hc' hcget, fun j _ hj => ?_⟩
    have hjkept : kept ≠ j := fun heq => hj (congrArg some heq)
    rw [hstore, Store.get?_modify_of_ne hjkept]

/-- **What absorbing a receiver does to the texts**: it becomes the receiver itself, or
its texts are added to those that are there. -/
theorem receiver?_absorbReceiver (hc : d.constructor = some c)
    {place : CriteriaList} {type : JavaType}
    (hid : d.store.get? id = some (.receiver place type inner)) (hne : d.receiver? ≠ some id)
    (h : d.absorbReceiver c id = .ok e) :
    e.store.get? id = some (.receiver place type inner)
    ∧ ((d.receiver? = none ∧ e.receiver? = some id)
      ∨ ∃ r texts, d.receiver? = some r ∧ d.store.textsAt r = some texts ∧ r ≠ id
          ∧ e.receiver? = some r
          ∧ e.store.textsAt r = some (Store.addMissing texts type.annotations)) := by
  obtain ⟨hkept, hsame⟩ := absorbReceiver_keeps hc h
  obtain ⟨⟨kept, hattach⟩, -, -⟩ := absorbReceiver_spec h
  obtain ⟨criteria, ctype, receiver, declarations, hget, hcases⟩ :=
    Store.attachReceiver_cases hattach
  have hreceiver : d.receiver? = receiver := receiver?_of_get? hc hget
  have hcid : id ≠ c := by
    intro heq
    subst heq
    cases hget.symm.trans hid
  refine ⟨(hsame id hcid hne).trans hid, ?_⟩
  obtain ⟨rfl, -, -⟩ | ⟨rfl, -, -⟩ | ⟨keptCriteria, keptType, keptInner, place', added, inner',
    rfl, hkeptid, hkget, hidget, hstore⟩ := hcases
  · rw [hreceiver] at hkept
    exact Or.inl ⟨hreceiver, hkept⟩
  · exact absurd hreceiver hne
  · obtain rfl : type = added := by
      cases hidget.symm.trans hid
      rfl
    rw [hreceiver] at hkept
    refine Or.inr ⟨kept, keptType.annotations, hreceiver, Store.textsAt_of_get? hkget, hkeptid,
      hkept, ?_⟩
    rw [Store.textsAt_of_get? (hstore ▸ Store.get?_modify_self hkget)]
    exact congrArg some (JavaType.annotations_withAnnotations _ _)

/-- **What the constructor makes of a receiver** that was just made: its own receiver, or
more texts on the one it has. -/
theorem receiver?_absorb {place : CriteriaList} {type : JavaType} {absorbed : Bool}
    (on : ctx.OnConstructor p.toPosition)
    (hid : d.store.get? id = some (.receiver place type inner)) (hne : d.receiver? ≠ some id)
    (h : absorb ctx p.criteria p.criteria.compose d n [id] = .ok (e, absorbed)) :
    e.store.get? id = some (.receiver place type inner)
    ∧ ((d.receiverTexts? = none ∧ e.receiver? = some id)
      ∨ ∃ r texts, d.receiverTexts? = some texts ∧ r ≠ id ∧ e.receiver? = some r
          ∧ e.store.textsAt r = some (Store.addMissing texts type.annotations)) := by
  rw [absorb_of_on on, bind_eq_ok] at h
  obtain ⟨⟨f, c⟩, hensure, h⟩ := h
  obtain ⟨hkeep, hc, hsame⟩ := keepsReceiver_ensureConstructor hensure
  have hid' := (hsame id (Store.lt_size hid)).trans hid
  dsimp only at h hid'
  rw [absorbInto, hid', bind_eq_ok] at h
  obtain ⟨g, hg, h⟩ := h
  cases h
  have htexts := hkeep.receiverTexts?_eq
  unfold receiverTexts? at htexts
  obtain ⟨hget, ⟨hnone, hreceiver⟩ | ⟨r, texts, hr, hrtexts, hrid, hreceiver, hmerged⟩⟩ :=
    receiver?_absorbReceiver hc hid' (hkeep.1 ▸ hne) hg
  · refine ⟨hget, Or.inl ⟨?_, hreceiver⟩⟩
    rw [receiverTexts?, ← htexts, hnone]
    rfl
  · refine ⟨hget, Or.inr ⟨r, texts, ?_, hrid, hreceiver, hmerged⟩⟩
    rw [receiverTexts?, ← htexts, hr]
    exact hrtexts

/-- Adding notes to a receiver does not change which one the constructor has. -/
theorem receiver?_addNotes {place : CriteriaList} {type : JavaType} {r : InsertionId}
    (hr : d.receiver? = some r) (hid : d.store.get? id = some (.receiver place type inner))
    (h : notes.foldlM (addNote id) d = .ok e) : e.receiver? = some r := by
  obtain ⟨hconstructor, hstore, -⟩ := addNotes_spec h
  obtain ⟨c, hc, hrc⟩ := Option.bind_eq_some_iff.mp hr
  obtain ⟨i, hi, hri⟩ := Option.bind_eq_some_iff.mp hrc
  have hne : c ≠ id := by
    intro heq
    subst heq
    obtain rfl := Option.some.inj (hi.symm.trans hid)
    cases hri
  rw [receiver?_of_get? (hconstructor.trans hc) ((hstore c hne).trans hi)]
  exact hri

/-- **What becomes of a receiver that was made with its first note**: if it is the one that
the constructor has, all further notes go to it, and otherwise they are lost. -/
theorem receiverTexts?_fill {f : Draft} {place : CriteriaList} {type : JavaType}
    {absorbed : Bool} (on : ctx.OnConstructor p.toPosition)
    (hid : d.store.get? id = some (.receiver place type inner))
    (htype : type.annotations = [n.text]) (hne : d.receiver? ≠ some id)
    (habsorb : absorb ctx p.criteria p.criteria.compose d n [id] = .ok (f, absorbed))
    (hadd : notes.foldlM (addNote id) f = .ok e) :
    e.receiverTexts? = receive d.receiverTexts? ((n :: notes).map Note.text) := by
  obtain ⟨-, hstore, htexts⟩ := addNotes_spec hadd
  obtain ⟨hget, ⟨hnone, hreceiver⟩ | ⟨r, texts, hold, hrid, hreceiver, hmerged⟩⟩ :=
    receiver?_absorb on hid hne habsorb
  · have hreceiver' := receiver?_addNotes hreceiver hget hadd
    rw [hnone, receiverTexts?, hreceiver']
    show e.store.textsAt id = some ((n :: notes).map Note.text)
    rw [htexts, Store.textsAt_of_get? hget]
    show some (type.annotations ++ notes.map Note.text) = _
    rw [htype]
    rfl
  · -- The notes go to the new receiver, and the constructor has another one.
    have hreceiver' := receiver?_addNotes hreceiver hget hadd
    rw [hold, receiverTexts?, hreceiver']
    show e.store.textsAt r = some (Store.addMissing texts [n.text])
    unfold Store.textsAt
    rw [hstore r hrid, ← htype]
    exact hmerged

/-- **A spot on the receiver of the constructor** makes of the texts there what is to be
made of them. -/
theorem Sound.receiverTexts?_gather (hd : d.Sound className) (hp : p.Receives ctx)
    (h : gather ctx p.form p.criteria p.criteria.compose inner d notes = .ok e) :
    e.receiverTexts? = receive d.receiverTexts? (notes.map Note.text) := by
  have hkeep : ∀ text, d.KeepsReceiver
      { d with store := d.store.pushReceiver text p.criteria inner } := fun text =>
    hd.keepsReceiver_of_lt rfl (fun j hj => Store.get?_push_of_lt hj _)
  rw [hp.1] at h
  cases notes with
  | nil =>
    rw [gather] at h
    split at h
    case isTrue =>
      rw [bind_eq_ok] at h
      obtain ⟨⟨f, made⟩, hf, h⟩ := h
      cases hf
      cases h
      exact (hkeep none).receiverTexts?_eq
    case isFalse =>
      cases h
      rfl
  | cons n rest =>
    let d₁ : Draft :=
      ({ d with store := d.store.pushReceiver (some n.text) p.criteria inner } : Draft).record
        d.store.size n
    have hd₁ : d₁.receiverTexts? = d.receiverTexts? := (hkeep (some n.text)).receiverTexts?_eq
    have hid : d₁.store.get? d.store.size
        = some (.receiver p.criteria (JavaType.unnamed.annotate n.text) inner) :=
      Store.get?_push_size _ _
    have hne : d₁.receiver? ≠ some d.store.size := by
      intro hr
      rw [show d₁.receiver? = d.receiver? from (hkeep (some n.text)).1] at hr
      obtain ⟨criteria, type, inner', hget⟩ := hd.get?_receiver hr
      exact Nat.lt_irrefl _ (Store.lt_size hget)
    rw [gather, bind_eq_ok] at h
    obtain ⟨⟨d₂, made⟩, hcreate, h⟩ := h
    cases hcreate
    rw [bind_eq_ok] at h
    obtain ⟨⟨f, absorbed⟩, habsorb, h⟩ := h
    rw [bind_eq_ok] at h
    obtain ⟨g, hadd, h⟩ := h
    have he : e.receiverTexts? = g.receiverTexts? := by
      cases absorbed <;> cases h <;> rfl
    rw [he, ← hd₁]
    exact receiverTexts?_fill (d := d₁) hp.2 hid (JavaType.annotations_annotate _ _) hne
      habsorb hadd

/-! ## Visits -/

/-- **What a spot makes of the texts on the receiver**: only a spot on the receiver of the
constructor changes them. -/
def after (ctx : Context) (old : Option (List String)) (p : Spot) : Option (List String) :=
  if ctx.writesConstructor && p.onConstructorReceiver then receive old (p.texts ctx.formatter)
  else old

/-- A spot elsewhere changes nothing. -/
theorem after_of_not_receives {old : Option (List String)} (hp : ¬ p.Receives ctx) :
    after ctx old p = old :=
  if_neg (fun h => hp (Spot.receives_iff.mpr h))

/-- A spot on the receiver of the constructor brings its texts. -/
theorem after_of_receives {old : Option (List String)} (hp : p.Receives ctx)
    (hnotes : ctx.formatter.notes p.criteria p.annotations = .ok notes) :
    after ctx old p = receive old (notes.map Note.text) := by
  unfold after Spot.texts
  rw [if_pos (Spot.receives_iff.mp hp), hnotes]

/-- The texts after a position within a type. -/
theorem Sound.receiverTexts?_visitNested (hd : d.Sound className) {q : Position}
    (hp : (Spot.within q).Fits className)
    (hpath : ∃ path, q.criteria.compose.typePath? = some path) {withhold : Bool}
    {ids : List InsertionId} (h : visitNested ctx withhold d q = .ok (e, ids)) :
    e.receiverTexts? = after ctx d.receiverTexts? (.within q) := by
  by_cases hr : (Spot.within q).Receives ctx
  · have hform : Form.classify q.criteria.compose none = .receiver := hr.1
    rw [visitNested, bind_eq_ok] at h
    obtain ⟨notes, hnotes, h⟩ := h
    rw [hform] at h
    obtain ⟨f, hf, h⟩ := bind_eq_ok.mp h
    cases h
    rw [← hform] at hf
    rw [after_of_receives hr hnotes]
    exact hd.receiverTexts?_gather (p := .within q) hr hf
  · obtain ⟨-, hsteps⟩ := (visitNested_yields hd hp hpath withhold).of_ok h
    rw [after_of_not_receives hr]
    exact ((hsteps [] []).keepsReceiver hd hp hr (Nat.le_refl _)).receiverTexts?_eq

/-- The texts after the positions within the type of a site. -/
theorem receiverTexts?_visitAllNested {s : Site} (hs : s.Fits className) :
    ∀ {positions : List Position} {d e : Draft} {ids : List InsertionId},
      positions ⊆ s.nested → d.Sound className →
      visitAllNested ctx s.withholds d positions = .ok (e, ids) →
      e.receiverTexts? = (positions.map Spot.within).foldl (after ctx) d.receiverTexts?
  | [], d, e, ids, _, _, h => by
    cases h
    rfl
  | q :: rest, d, e, ids, hsub, hd, h => by
    rw [visitAllNested, bind_eq_ok] at h
    obtain ⟨⟨f, first⟩, hf, h⟩ := h
    obtain ⟨⟨g, more⟩, hg, h⟩ := bind_eq_ok.mp h
    cases h
    have hq : q ∈ s.nested := hsub List.mem_cons_self
    have hp := hs.spots _ (Site.within_mem_spots hq)
    obtain ⟨-, hsteps⟩ := (visitNested_yields hd hp (hs.within q hq) s.withholds).of_ok hf
    have hsound := ((hsteps [] []).sound hp hd).1
    rw [receiverTexts?_visitAllNested hs (List.subset_of_cons_subset hsub) hsound hg,
      hd.receiverTexts?_visitNested hp (hs.within q hq) hf]
    rfl

/-- Putting what was withheld into the output leaves the receiver alone. -/
theorem receiverTexts?_release (s : Site) (d : Draft) (inner : List InsertionId) :
    (release s d inner).receiverTexts? = d.receiverTexts? := by
  unfold release
  split <;> rfl

/-- The texts after the site itself. -/
theorem Sound.receiverTexts?_visitOwn (hd : d.Sound className) {s : Site}
    (hs : s.Fits className) (hinner : ∀ j ∈ inner, d.store.Has IsWithin j)
    (h : visitOwn ctx s d inner = .ok e) :
    e.receiverTexts? = after ctx d.receiverTexts? s.spot := by
  have hp := hs.spots _ s.spot_mem_spots
  by_cases hr : s.spot.Receives ctx
  · rw [visitOwn, bind_eq_ok] at h
    obtain ⟨notes, hnotes, h⟩ := h
    have hrelease := ((release_steps ctx hs hinner d.store.size []).sound hp hd).1
    have hgather : gather ctx s.spot.form s.criteria s.criteria.compose inner
        (release s d inner) notes = .ok e := by
      rw [hr.1] at h ⊢
      exact h
    rw [after_of_receives hr hnotes, ← receiverTexts?_release s d inner]
    exact hrelease.receiverTexts?_gather hr hgather
  · obtain ⟨-, hsteps⟩ := (visitOwn_yields hd hs hinner).of_ok h
    rw [after_of_not_receives hr]
    exact ((hsteps []).keepsReceiver hd hp hr (Nat.le_refl _)).receiverTexts?_eq

/-- **The texts after a visit** are what the spots of the site make of them. -/
theorem Sound.receiverTexts?_visit (hd : d.Sound className) {s : Site} (hs : s.Fits className)
    (h : visit ctx d s = .ok e) :
    e.receiverTexts? = s.spots.foldl (after ctx) d.receiverTexts? := by
  rw [visit_eq, bind_eq_ok] at h
  obtain ⟨⟨f, inner⟩, hf, h⟩ := h
  obtain ⟨hinner, hsteps⟩ :=
    (visitAllNested_yields hs (List.Subset.refl _) hd (Nat.le_refl _)).of_ok hf
  have hsound := ((hsteps [] []).sound hs hd).1
  rw [hsound.receiverTexts?_visitOwn hs hinner h,
    receiverTexts?_visitAllNested hs (List.Subset.refl _) hd hf]
  unfold Site.spots
  rw [List.foldl_append]
  rfl

/-- **The texts after all visits** to the sites of a class. -/
theorem receiverTexts?_visits :
    ∀ {sites : List Site} {d e : Draft}, (∀ s ∈ sites, s.Fits className) → d.Sound className →
      sites.foldlM (visit ctx) d = .ok e →
      e.receiverTexts? = (sites.flatMap Site.spots).foldl (after ctx) d.receiverTexts?
  | [], d, e, _, _, h => by
    cases h
    rfl
  | s :: rest, d, e, hsites, hd, h => by
    obtain ⟨hs, hrest⟩ := List.forall_mem_cons.mp hsites
    rw [List.foldlM_cons, bind_eq_ok] at h
    obtain ⟨f, hf, h⟩ := h
    obtain ⟨-, hsteps⟩ := (visit_yields hd hs).of_ok hf
    have hsound := ((hsteps []).sound hs hd).1
    rw [receiverTexts?_visits hrest hsound h, hd.receiverTexts?_visit hs hf, List.flatMap_cons,
      List.foldl_append]

/-! ## What is left of the texts -/

/-- **What is received** of the texts on several spots: all of the first, and the first of
each later one that is not there yet. -/
def received? : List (List String) → Option (List String)
  | [] => none
  | first :: later => some (Store.addMissing first (later.filterMap List.head?))

/-- Once there is a receiver, of every spot the first text is added. -/
theorem foldl_receive_some :
    ∀ (later : List (List String)) (texts : List String),
      later.foldl receive (some texts)
        = some (Store.addMissing texts (later.filterMap List.head?))
  | [], _ => rfl
  | [] :: rest, texts => foldl_receive_some rest texts
  | (first :: more) :: rest, texts => by
    rw [List.foldl_cons]
    show rest.foldl receive (some (Store.addMissing texts [first])) = _
    rw [foldl_receive_some rest]
    rfl

/-- **The spots together** leave what is received of those with annotations. -/
theorem foldl_receive_none : ∀ all : List (List String),
    all.foldl receive none = received? (all.filter (fun texts => !texts.isEmpty))
  | [] => rfl
  | [] :: rest => foldl_receive_none rest
  | (first :: more) :: rest => by
    rw [List.foldl_cons, List.filter_cons]
    show rest.foldl receive (some (first :: more)) = some (Store.addMissing _ _)
    rw [foldl_receive_some]
    refine congrArg (fun firsts => some (Store.addMissing (first :: more) firsts)) ?_
    -- spots without annotations have no first one
    induction rest with
    | nil => rfl
    | cons texts rest ih =>
      cases texts with
      | nil => exact ih
      | cons t ts => exact congrArg (t :: ·) ih

/-- If a constructor is written, the spots on its receiver are those that count. -/
theorem foldl_after (hwrites : ctx.writesConstructor = true) :
    ∀ (spots : List Spot) (old : Option (List String)),
      spots.foldl (after ctx) old
        = ((spots.filter Spot.onConstructorReceiver).map (Spot.texts ctx.formatter)).foldl
            receive old
  | [], _ => rfl
  | p :: rest, old => by
    rw [List.foldl_cons, foldl_after hwrites rest, List.filter_cons]
    unfold after
    rw [hwrites, Bool.true_and]
    split
    · rfl
    · rfl

end Draft

namespace ClassElement

/-- **The spots of a class on the receiver of the constructor without parameters.** -/
def receiverSpots (name : String) (c : ClassElement) : List Spot :=
  ((c.sites name).flatMap Site.spots).filter Spot.onConstructorReceiver

/-- **The texts on these spots**, for each that has annotations. -/
def receiverTexts (f : Formatter) (name : String) (c : ClassElement) : List (List String) :=
  ((c.receiverSpots name).map (Spot.texts f)).filter (fun texts => !texts.isEmpty)

/-- The texts of the spots that have annotations are the texts of all spots. -/
theorem forall_receiverTexts {f : Formatter} {name : String} {c : ClassElement}
    {P : String → Prop} :
    (∀ texts ∈ c.receiverTexts f name, ∀ t ∈ texts, P t)
      ↔ ∀ p ∈ c.receiverSpots name, ∀ t ∈ p.texts f, P t := by
  constructor
  · intro h p hp t ht
    refine h (p.texts f) (List.mem_filter.mpr ⟨List.mem_map_of_mem hp, ?_⟩) t ht
    rw [List.isEmpty_eq_false_iff_exists_mem.mpr ⟨t, ht⟩]
    rfl
  · intro h texts htexts t ht
    obtain ⟨p, hp, rfl⟩ := List.mem_map.mp (List.mem_filter.mp htexts).1
    exact h p hp t ht

end ClassElement

end AnnotationPlan
