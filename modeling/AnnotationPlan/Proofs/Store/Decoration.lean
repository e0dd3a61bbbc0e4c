import AnnotationPlan.Proofs.JavaType.Shown
import AnnotationPlan.Proofs.Store.Growth

/-!
# What the type of a cast is decorated with

A single annotation within a type says two things to the cast that it is written into: the
path of its position and its text, its **mark** (`Store.mark?`). Decorating the type of a
cast is writing the marks of the insertions within, one after another
(`Store.decorate_eq_ok_iff`). It fails for the first mark whose path does not fit the type
of the cast as it was requested, whatever was written before
(`Store.decorate_eq_error`), and then nothing is made.

Whatever a cast accepts at a position that the text of its type goes to is written in the
text of the cast (`Store.shown_mark_written`).
-/

namespace AnnotationPlan.Store

open JavaType (annotateAll? annotationsAt? textsAt)

variable {s s' : Store} {criteria : CriteriaList} {whole t t' type : JavaType}
variable {inner : List InsertionId} {marks : List (TypePath × String)} {id : InsertionId}
variable {text : Option String}

/-- **The mark of a single annotation**: the path of its position and its text. -/
def mark? (s : Store) (id : InsertionId) : Option (TypePath × String) :=
  match s.get? id with
  | some (.single text place _) => place.compose.typePath?.map (fun path => (path, text))
  | _ => none

/-- What has a mark is a single annotation on a position within a type. -/
theorem mark?_eq_some {path : TypePath} {text : String} (h : s.mark? id = some (path, text)) :
    ∃ place separateLine, s.get? id = some (.single text place separateLine)
      ∧ place.compose.typePath? = some path := by
  unfold mark? at h
  split at h
  case h_1 a place separateLine hid =>
    obtain ⟨p, hp, hpair⟩ := Option.map_eq_some_iff.mp h
    obtain ⟨rfl, rfl⟩ := Prod.mk.inj hpair
    exact ⟨place, separateLine, hid, hp⟩
  case h_2 => cases h

/-- A single annotation on a position within a type has a mark. -/
theorem mark?_of_single {path : TypePath} {text : String} {place : CriteriaList}
    {separateLine : Bool} (h : s.get? id = some (.single text place separateLine))
    (hpath : place.compose.typePath? = some path) : s.mark? id = some (path, text) := by
  rw [mark?, h]
  dsimp only
  rw [hpath]
  rfl

/-- Marks stay as they are while the store grows. -/
theorem Grows.mark?_eq {m : TypePath × String} (h : s.Grows s') (hid : s.mark? id = some m) :
    s'.mark? id = some m := by
  obtain ⟨place, separateLine, hget, hpath⟩ := mark?_eq_some hid
  exact mark?_of_single (h.get?_single hget) hpath

/-- So do those of several annotations. -/
theorem Grows.map_mark?_eq (h : s.Grows s') (hids : inner.map s.mark? = marks.map some) :
    inner.map s'.mark? = marks.map some := by
  rw [← hids]
  refine List.map_congr_left (fun id hid => ?_)
  obtain ⟨m, -, hm⟩ := List.mem_map.mp (hids ▸ List.mem_map_of_mem (f := s.mark?) hid)
  rw [← hm]
  exact h.mark?_eq hm.symm

/-- Decorating with a marked annotation first. -/
theorem decorate_cons {path : TypePath} {text : String} (h : s.mark? id = some (path, text)) :
    s.decorate criteria whole (id :: inner) t
      = match t.annotateAt? path text with
        | none => .error (.typePathMismatch path.text whole.text criteria.text)
        | some t => s.decorate criteria whole inner t := by
  obtain ⟨place, separateLine, hid, hpath⟩ := mark?_eq_some h
  cases hat : t.annotateAt? path text <;> simp only [decorate, hid, hpath, hat]

/-- **Decorating is writing the marks.** -/
theorem decorate_eq_ok_iff :
    ∀ {inner : List InsertionId} {marks : List (TypePath × String)} {t : JavaType},
      inner.map s.mark? = marks.map some →
        (s.decorate criteria whole inner t = .ok t' ↔ annotateAll? marks t = some t')
  | [], [], t, _ => by
    rw [decorate, annotateAll?, Except.ok.injEq, Option.some.injEq]
  | id :: inner, (path, text) :: marks, t, h => by
    obtain ⟨hid, hrest⟩ := List.cons.inj h
    rw [decorate_cons hid, JavaType.annotateAll?_cons]
    cases t.annotateAt? path text with
    | none => simp
    | some u => exact decorate_eq_ok_iff hrest

/-- **Decorating fails for the first path that does not fit.** -/
theorem decorate_eq_error {m : TypePath × String} :
    ∀ {inner : List InsertionId} {marks : List (TypePath × String)} {t : JavaType},
      inner.map s.mark? = marks.map some →
        marks.find? (fun m => !decide (t.Fits m.1)) = some m →
          s.decorate criteria whole inner t
            = .error (.typePathMismatch m.1.text whole.text criteria.text)
  | [], [], t, _, h => by cases h
  | id :: inner, (path, text) :: marks, t, hmarks, h => by
    obtain ⟨hid, hrest⟩ := List.cons.inj hmarks
    rw [decorate_cons hid]
    cases hu : t.annotateAt? path text with
    | none =>
      have hmisfit : ¬ t.Fits path := fun hfits => by
        rw [← JavaType.annotateAt?_isSome_iff t path text, hu] at hfits
        cases hfits
      rw [List.find?_cons_of_pos (by simpa using hmisfit)] at h
      obtain rfl := Option.some.inj h
      rfl
    | some u =>
      have hfits : t.Fits path := by
        rw [← JavaType.annotateAt?_isSome_iff t path text, hu]
        rfl
      -- the others fit what is decorated as they fit what was to be decorated
      have hsame : ∀ p, u.Fits p ↔ t.Fits p :=
        JavaType.fits_congr (JavaType.bare_eq_of_annotateAt? hu)
      rw [List.find?_cons_of_neg (by simpa using hfits)] at h
      refine decorate_eq_error hrest ?_
      simpa only [hsame] using h

/-! ## Casts -/

@[simp] theorem bare_annotated (text : Option String) (t : JavaType) :
    (annotated text t).bare = t.bare := by
  cases text with
  | none => rfl
  | some a => exact JavaType.bare_annotate a t

/-- The annotation of a whole type is written at its outermost position. -/
theorem annotationsAt?_annotated (text : Option String) (t : JavaType) (path : TypePath) :
    (annotated text t).annotationsAt? path
      = (t.annotationsAt? path).map (· ++ if path = .root then text.toList else []) := by
  cases text with
  | none => simp [annotated]
  | some a =>
    have hroot : t.annotateAt? .root a = some (annotated (some a) t) := rfl
    rw [JavaType.annotationsAt?_annotateAt? hroot]
    simp only [eq_comm, Option.toList_some]

/-- **Making a cast with marked annotations within.** -/
theorem pushCast_eq_ok_iff (h : inner.map s.mark? = marks.map some) :
    s.pushCast type text inner criteria = .ok s' ↔
      ∃ decorated, annotateAll? marks (annotated text type) = some decorated
        ∧ s' = (s.push (.cast criteria decorated false)).push
            (.closeParenthesis criteria false) :=
  pushCast_eq_ok.trans
    (exists_congr (fun _ => and_congr_left' (decorate_eq_ok_iff h)))

/-- **The decoration of casts is exact.** A cast with annotations within can be made if and
only if every one of their type paths fits the type; otherwise the error names the first
that does not. The type of the cast has the same shape and the same names as the requested
one, and at each of its positions are the annotations that were there, then the one of the
whole type if the position is the outermost, then those from within whose path leads there,
in their order. The cast and its parenthesis are the only new insertions, and the others
are as they were. -/
theorem pushCast_exact (s : Store) (type : JavaType) (text : Option String)
    (criteria : CriteriaList) (inner : List InsertionId) (marks : List (TypePath × String))
    (h : inner.map s.mark? = marks.map some) :
    ((∃ s', s.pushCast type text inner criteria = .ok s') ↔ ∀ m ∈ marks, type.Fits m.1)
      ∧ (∀ m, marks.find? (fun m => !decide (type.Fits m.1)) = some m →
          s.pushCast type text inner criteria
            = .error (.typePathMismatch m.1.text type.text criteria.text))
      ∧ ∀ s', s.pushCast type text inner criteria = .ok s' →
          ∃ decorated : JavaType, decorated.bare = type.bare
            ∧ (∀ q, decorated.annotationsAt? q = (type.annotationsAt? q).map
                (fun as => as ++ (if q = .root then text.toList else []) ++ textsAt marks q))
            ∧ s'.size = s.size + 2
            ∧ s'.get? s.size = some (.cast criteria decorated false)
            ∧ s'.get? (s.size + 1) = some (.closeParenthesis criteria false)
            ∧ ∀ j, j < s.size → s'.get? j = s.get? j := by
  have hfits : ∀ p, (annotated text type).Fits p ↔ type.Fits p :=
    JavaType.fits_congr (bare_annotated text type)
  refine ⟨?_, fun m hm => ?_, fun s' hs' => ?_⟩
  · have hsome : (annotateAll? marks (annotated text type)).isSome ↔
        ∀ m ∈ marks, type.Fits m.1 := by
      simp only [JavaType.annotateAll?_isSome_iff, hfits]
    rw [← hsome, Option.isSome_iff_exists]
    constructor
    · rintro ⟨s', hs'⟩
      obtain ⟨decorated, hdecorated, -⟩ := (pushCast_eq_ok_iff h).mp hs'
      exact ⟨decorated, hdecorated⟩
    · rintro ⟨decorated, hdecorated⟩
      exact ⟨_, (pushCast_eq_ok_iff h).mpr ⟨decorated, hdecorated, rfl⟩⟩
  · have herror : s.decorate criteria type inner (annotated text type)
        = .error (.typePathMismatch m.1.text type.text criteria.text) :=
      decorate_eq_error h (by simpa only [hfits] using hm)
    rw [pushCast, herror]
    rfl
  · obtain ⟨decorated, hdecorated, rfl⟩ := (pushCast_eq_ok_iff h).mp hs'
    refine ⟨decorated, ?_, fun q => ?_, by simp, get?_push_push_size s _ _,
      get?_push_push_succ s _ _, fun j hj => get?_push_push_of_lt hj _ _⟩
    · exact (JavaType.bare_eq_of_annotateAll? hdecorated).trans (bare_annotated text type)
    · rw [JavaType.annotationsAt?_annotateAll? q hdecorated, annotationsAt?_annotated,
        Option.map_map]
      rfl

/-- Two annotations within a type, on its first argument and on the component of an
array. -/
def marked : Store :=
  (Store.empty.push (.single "@A" (.ofList [.atLocation ⟨[.argument 0]⟩]) false)).push
    (.single "@B" (.ofList [.atLocation ⟨[.array]⟩]) false)

/-- The first of them fits a parameterized type, the second does not. -/
theorem pushCast_marked :
    (∃ s', marked.pushCast (.declared [] "List" [.named "E"] none) none [0] .empty = .ok s')
      ∧ marked.pushCast (.declared [] "List" [.named "E"] none) none [0, 1, 0] .empty
        = .error (.typePathMismatch "[" "List<E>" (CriteriaList.empty).text) :=
  ⟨(pushCast_exact marked _ none .empty [0] [(⟨[.argument 0]⟩, "@A")] (by decide +kernel)).1.mpr
      (by decide +kernel),
    (pushCast_exact marked _ none .empty [0, 1, 0]
      [(⟨[.argument 0]⟩, "@A"), (⟨[.array]⟩, "@B"), (⟨[.argument 0]⟩, "@A")]
      (by decide +kernel)).2.1 (⟨[.array]⟩, "@B") (by decide +kernel)⟩

/-! ## What can be read of a cast -/

/-- The text of a cast is its type in parentheses. -/
theorem render_cast {separateLine : Bool} (h : s.get? id = some (.cast criteria t separateLine)) :
    s.render id = .ok ("((" ++ t.text ++ ") ") := by
  rw [render, renderWithin, lookup_eq_ok.mpr h]
  rfl

/-- What is to be written at a position is there afterwards. -/
theorem exists_of_mem_marks {m : TypePath × String} (h : annotateAll? marks t = some t')
    (hm : m ∈ marks) : ∃ u, t'.at? m.1 = some u ∧ m.2 ∈ u.annotations := by
  have hfits : t'.Fits m.1 := (JavaType.fits_congr (JavaType.bare_eq_of_annotateAll? h) m.1).mpr
    (JavaType.annotateAll?_isSome_iff.mp (by rw [h]; rfl) m hm)
  obtain ⟨u, hu⟩ := Option.isSome_iff_exists.mp hfits
  have hat := JavaType.annotationsAt?_annotateAll? m.1 h
  rw [annotationsAt?, hu, Option.map_some] at hat
  obtain ⟨as, -, has⟩ := Option.map_eq_some_iff.mp hat.symm
  refine ⟨u, hu, has ▸ List.mem_append_right _ ?_⟩
  exact List.mem_map_of_mem (List.mem_filter.mpr ⟨hm, by simp⟩)

/-- **What a cast accepts is written in its text**, where the text of the type goes. -/
theorem shown_mark_written {m : TypePath × String} (hmarks : inner.map s.mark? = marks.map some)
    (h : s.pushCast type text inner criteria = .ok s') (hm : m ∈ marks)
    (hshown : type.Shown m.1) : ∃ written, s'.render s.size = .ok written ∧ Occurs m.2 written := by
  obtain ⟨decorated, hdecorated, rfl⟩ := (pushCast_eq_ok_iff hmarks).mp h
  have hbare : decorated.bare = type.bare :=
    (JavaType.bare_eq_of_annotateAll? hdecorated).trans (bare_annotated text type)
  obtain ⟨u, hu, hmem⟩ := exists_of_mem_marks hdecorated hm
  have hocc := JavaType.occurs_of_shown ((JavaType.shown_congr hbare m.1).mpr hshown) hu hmem
  exact ⟨_, render_cast (get?_push_push_size s _ _), (hocc.append_right _).append_left _⟩

/-- **No accepted annotation disappears in writing** where the text of the type goes. A text
that is added at a position of a type occurs in the text of the type, and what a cast
accepts within its type occurs in the text of the cast, as long as the path does not lead
into a declared type without a name or into the bound of a wildcard that is not bounded. -/
theorem accepted_annotation_written :
    (∀ (t : JavaType) (path : TypePath) (a : String), t.Fits path → t.Shown path →
        ∃ t', t.annotateAt? path a = some t' ∧ Occurs a t'.text)
      ∧ ∀ (s s' : Store) (type : JavaType) (text : Option String) (criteria : CriteriaList)
          (inner : List InsertionId) (marks : List (TypePath × String)),
          inner.map s.mark? = marks.map some → s.pushCast type text inner criteria = .ok s' →
            ∀ m ∈ marks, type.Shown m.1 →
              ∃ written, s'.render s.size = .ok written ∧ Occurs m.2 written := by
  refine ⟨fun t path a hfits hshown => ?_, fun s s' type text criteria inner marks hmarks h m hm
    hshown => shown_mark_written hmarks h hm hshown⟩
  obtain ⟨t', ht'⟩ := Option.isSome_iff_exists.mp
    ((JavaType.annotateAt?_isSome_iff t path a).mpr hfits)
  obtain ⟨-, u, hu, ha⟩ := JavaType.annotateAt?_spec ht'
  have hshown' : t'.Shown path :=
    (JavaType.shown_congr (JavaType.bare_eq_of_annotateAt? ht') path).mpr hshown
  exact ⟨t', ht', JavaType.occurs_of_shown hshown' hu ha⟩

/-- An annotation on the component of an array, on its element type, and the cast that it
is written in. -/
theorem accepted_annotation_written_component :
    (∃ t', (JavaType.array [] (.named "E")).annotateAt? ⟨[.array]⟩ "@B" = some t'
        ∧ Occurs "@B" t'.text)
      ∧ ∃ s', marked.pushCast (.array [] (.named "E")) none [1] .empty = .ok s'
        ∧ ∃ written, s'.render 2 = .ok written ∧ Occurs "@B" written := by
  have hshown : (JavaType.array [] (.named "E")).Shown ⟨[.array]⟩ := ⟨rfl, fun _ _ => trivial⟩
  refine ⟨accepted_annotation_written.1 _ _ _ (by decide +kernel) hshown, _, rfl, ?_⟩
  exact accepted_annotation_written.2 marked _ (.array [] (.named "E")) none .empty [1]
    [(⟨[.array]⟩, "@B")] (by decide +kernel) rfl _ List.mem_cons_self hshown

/-- **A declared type without a name hides its arguments**: an annotation is accepted there,
and neither the text before nor the text afterwards has it. -/
theorem unnamed_argument_not_written :
    (JavaType.declared [] "" [.named "B"] none).annotateAt? ⟨[.argument 0]⟩ "@A"
        = some (.declared [] "" [.declared ["@A"] "B" [] none] none)
      ∧ ¬ Occurs "@A" (JavaType.declared [] "" [.named "B"] none).text
      ∧ ¬ Occurs "@A" (JavaType.declared [] "" [.declared ["@A"] "B" [] none] none).text := by
  have hempty : "@A" ≠ "" := by decide +kernel
  have htext : ∀ arguments, (JavaType.declared [] "" arguments none).text = "" := fun _ => rfl
  refine ⟨rfl, fun h => hempty ?_, fun h => hempty ?_⟩
  · rw [htext] at h
    exact h.eq_empty
  · rw [htext] at h
    exact h.eq_empty

/-- A wildcard that is not bounded hides its bound in the same way: it is written as a question
mark before and afterwards. -/
example :
    (JavaType.wildcard [] .unbounded (some (.named "B"))).annotateAt? ⟨[.wildcard]⟩ "@A"
        = some (.wildcard [] .unbounded (some (.declared ["@A"] "B" [] none)))
      ∧ ¬ Occurs "@A" (JavaType.wildcard [] .unbounded (some (.named "B"))).text
      ∧ ¬ Occurs "@A"
          (JavaType.wildcard [] .unbounded (some (.declared ["@A"] "B" [] none))).text :=
  ⟨rfl, by decide +kernel, by decide +kernel⟩

end AnnotationPlan.Store
