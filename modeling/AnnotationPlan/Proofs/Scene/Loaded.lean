import AnnotationPlan.Scene.Load
import AnnotationPlan.Proofs.AnnotationUse.Loaded
import AnnotationPlan.Proofs.Scene.CastPlaces

/-!
# The lambdas of loaded scenes have keys

Lambdas are kept as bare lists of pairs, and nothing in their type forbids that two of them are
listed with the same location. But where they are loaded, they are loaded as a map: of two with
the same location only the last one counts. So whatever text a scene is loaded from, its lambdas
have keys (`Scene.hasKeys_of_ofText`).
-/

namespace AnnotationPlan

/-- A map that is made of pairs has the entries that the pairs make. -/
theorem OrderedMap.ofList_entries {κ ν : Type} [DecidableEq κ] (es : List (κ × ν)) :
    (ofList es).entries = Entries.ofList es :=
  (List.foldl_hom OrderedMap.entries (fun _ _ => rfl)).symm

namespace Load

variable {σ α κ ν : Type} {key : KeyReader κ} {value : Loader ν} {s : Source}

/-- What setting a field keeps, loading it keeps. -/
theorem keeps_field {I : σ → Prop} {name : String} {value : Loader α} {set : σ → α → σ}
    (h : ∀ r a s, value s = .ok a → I r → I (set r a)) :
    ∀ s r r', I r → (field name value set).load r s = .ok r' → I r' := by
  intro s r r' hr hload
  obtain ⟨a, ha, rfl⟩ := map_eq_ok hload
  exact h r a s ha hr

/-- The values of pairs are loaded. -/
theorem exists_of_mem_pairs {es : List (κ × ν)} (h : pairs key value s = .ok es) {e : κ × ν}
    (he : e ∈ es) : ∃ s, value s = .ok e.2 := by
  cases s with
  | object members =>
    obtain ⟨m, -, hm⟩ := exists_of_mem_mapM h e he
    obtain ⟨k, -, hm⟩ := bind_eq_ok.mp hm
    obtain ⟨v, hv, hm⟩ := bind_eq_ok.mp hm
    cases hm
    exact ⟨m.2, hv⟩
  | _ => cases h

/-- **The values of a map** are loaded. -/
theorem exists_of_mem_map [DecidableEq κ] {m : OrderedMap κ ν} (h : map key value s = .ok m)
    {e : κ × ν} (he : e ∈ m.entries) : ∃ s, value s = .ok e.2 := by
  obtain ⟨es, hes, rfl⟩ := map_eq_ok h
  rw [OrderedMap.ofList_entries] at he
  exact exists_of_mem_pairs hes ((Entries.ofList_spec es).2 he)

/-- What is loaded from a text is loaded from what is read of it. -/
theorem exists_of_ofText {value : Loader α} {text : String} {a : α}
    (h : ofText value text = .ok a) : ∃ s, value s = .ok a := by
  unfold ofText at h
  generalize Source.ofText text = read at h
  obtain ⟨source, complete⟩ := read
  obtain ⟨a', ha, h⟩ := bind_eq_ok.mp h
  cases complete with
  | false => cases h
  | true =>
    cases h
    exact ⟨source, ha⟩

end Load

/-! ## Blocks, member by member -/

theorem haveKeys_iff {lambdas : List (RelativeLocation × MethodElement)} :
    haveKeys lambdas ↔ ∀ e ∈ lambdas, e.2.HasKeys := by
  induction lambdas with
  | nil => simp [haveKeys]
  | cons e rest ih => simp [haveKeys, ih]

theorem ExpressionElement.hasKeys_iff {x : ExpressionElement} :
    x.HasKeys ↔ (x.lambdas.map Prod.fst).Nodup ∧ ∀ e ∈ x.lambdas, e.2.HasKeys := by
  obtain ⟨casts, news, instanceOfs, memberReferences, calls, lambdas⟩ := x
  rw [HasKeys, haveKeys_iff]

theorem BlockElement.hasKeys_iff {b : BlockElement} : b.HasKeys ↔ b.expressions.HasKeys := by
  cases b
  rw [HasKeys]

theorem MethodElement.hasKeys_iff {m : MethodElement} : m.HasKeys ↔ m.body.HasKeys := by
  cases m
  rw [HasKeys]

/-! ## Loading -/

section Blocks

variable {lambda : Load.Loader MethodElement} (hlambda : ∀ s m, lambda s = .ok m → m.HasKeys)
  {s : Source}
include hlambda

/-- **Loaded expressions** have keys, if each lambda by itself has. -/
theorem ExpressionElement.hasKeys_of_loadWith {x : ExpressionElement}
    (h : loadWith lambda s = .ok x) : x.HasKeys := by
  rw [hasKeys_iff]
  refine Load.keeps_of_record
    (I := fun x => (x.lambdas.map Prod.fst).Nodup ∧ ∀ e ∈ x.lambdas, e.2.HasKeys) ?_
    ⟨List.nodup_nil, nofun⟩ h
  simp only [List.forall_mem_cons]
  refine ⟨Load.keeps_field fun _ _ _ _ hx => hx, Load.keeps_field fun _ _ _ _ hx => hx,
    Load.keeps_field fun _ _ _ _ hx => hx, Load.keeps_field fun _ _ _ _ hx => hx,
    Load.keeps_field fun _ _ _ _ hx => hx, Load.keeps_field fun x es s hes _ => ?_, nofun⟩
  obtain ⟨hnodup, hsub⟩ := Entries.ofList_spec es
  refine ⟨hnodup, fun e he => ?_⟩
  obtain ⟨s', hs'⟩ := Load.exists_of_mem_pairs hes (hsub he)
  exact hlambda s' e.2 hs'

/-- A loaded block has keys, if each lambda by itself has. -/
theorem BlockElement.hasKeys_of_loadWith {b : BlockElement} (h : loadWith lambda s = .ok b) :
    b.HasKeys := by
  rw [hasKeys_iff]
  refine Load.keeps_of_record (I := fun b => b.expressions.HasKeys) ?_
    ⟨List.nodup_nil, trivial⟩ h
  simp only [List.forall_mem_cons]
  exact ⟨Load.keeps_field fun _ _ _ _ hb => hb,
    Load.keeps_field fun _ _ _ hx _ => ExpressionElement.hasKeys_of_loadWith hlambda hx, nofun⟩

end Blocks

/-- Loaded methods have keys, however deep their lambdas lie. -/
theorem MethodElement.hasKeys_of_loadWithin : ∀ (n : Nat) (s : Source) (m : MethodElement),
    loadWithin n s = .ok m → m.HasKeys
  | 0, _, _, h => by cases h
  | n + 1, _, _, h => by
    rw [hasKeys_iff]
    refine Load.keeps_of_record (I := fun m => m.body.HasKeys) ?_ ⟨List.nodup_nil, trivial⟩ h
    simp only [List.forall_mem_cons]
    refine ⟨Load.keeps_field fun _ _ _ _ hm => hm, Load.keeps_field fun _ _ _ _ hm => hm,
      Load.keeps_field fun _ _ _ _ hm => hm, Load.keeps_field fun _ _ _ _ hm => hm,
      Load.keeps_field fun _ _ _ _ hm => hm, Load.keeps_field fun _ _ _ _ hm => hm,
      Load.keeps_field fun _ _ _ _ hm => hm, Load.keeps_field fun _ _ _ hb _ => ?_, nofun⟩
    exact BlockElement.hasKeys_of_loadWith (hasKeys_of_loadWithin n) hb

/-- **A loaded class** has keys. -/
theorem ClassElement.hasKeys_of_load {s : Source} {c : ClassElement} (h : load s = .ok c) :
    c.HasKeys := by
  have hmethod := MethodElement.hasKeys_of_loadWithin Source.depthLimit
  have hblocks : ∀ (s : Source) (inits : OrderedMap UInt32 BlockElement),
      Load.map Load.numberKey (BlockElement.loadWith MethodElement.load) s = .ok inits →
      ∀ i ∈ inits.entries, i.2.HasKeys := by
    intro s inits hinits i hi
    obtain ⟨s', hs'⟩ := Load.exists_of_mem_map hinits hi
    exact BlockElement.hasKeys_of_loadWith hmethod hs'
  have hdefault : (default : ClassElement).HasKeys := by
    constructor <;> exact fun _ hmem => absurd hmem List.not_mem_nil
  refine Load.keeps_of_record (I := HasKeys) ?_ hdefault h
  simp only [List.forall_mem_cons]
  refine ⟨Load.keeps_field fun _ _ _ _ hc => ⟨hc.1, hc.2, hc.3, hc.4⟩,
    Load.keeps_field fun _ _ _ _ hc => ⟨hc.1, hc.2, hc.3, hc.4⟩,
    Load.keeps_field fun _ _ _ _ hc => ⟨hc.1, hc.2, hc.3, hc.4⟩,
    Load.keeps_field fun _ _ _ _ hc => ⟨hc.1, hc.2, hc.3, hc.4⟩,
    Load.keeps_field fun _ _ _ _ hc => ⟨hc.1, hc.2, hc.3, hc.4⟩,
    Load.keeps_field fun _ _ _ _ hc => ⟨hc.1, hc.2, hc.3, hc.4⟩,
    Load.keeps_field fun _ methods s hmethods hc => { hc with methods := fun m hm => ?_ },
    Load.keeps_field fun _ inits s hinits hc => { hc with staticInits := hblocks s inits hinits },
    Load.keeps_field fun _ inits s hinits hc => { hc with instanceInits := hblocks s inits hinits },
    Load.keeps_field fun _ inits s hinits hc => { hc with fieldInits := fun i hi => ?_ }, nofun⟩
  · obtain ⟨s', hs'⟩ := Load.exists_of_mem_map hmethods hm
    exact hmethod s' m.2 hs'
  · obtain ⟨s', hs'⟩ := Load.exists_of_mem_map hinits hi
    exact ExpressionElement.hasKeys_of_loadWith hmethod hs'

/-- **The lambdas of a loaded scene have keys**, whatever the text that it is loaded from. -/
theorem Scene.hasKeys_of_ofText {text : String} {scene : Scene} (h : ofText text = .ok scene) :
    scene.HasKeys := by
  obtain ⟨s, hload⟩ := Load.exists_of_ofText h
  have hdefault : (default : Scene).HasKeys := fun _ hc => absurd hc List.not_mem_nil
  refine Load.keeps_of_record (I := HasKeys) ?_ hdefault hload
  simp only [List.forall_mem_cons]
  refine ⟨Load.keeps_field fun _ _ _ _ hscene => hscene,
    Load.keeps_field fun _ _ _ _ hscene => hscene,
    Load.keeps_field fun _ _ _ hclasses _ c hc => ?_, nofun⟩
  obtain ⟨s', hs'⟩ := Load.exists_of_mem_map hclasses hc
  exact ClassElement.hasKeys_of_load hs'

end AnnotationPlan
