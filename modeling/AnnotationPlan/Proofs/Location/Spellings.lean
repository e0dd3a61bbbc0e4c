import AnnotationPlan.Proofs.Location.RoundTrip

/-!
# Which texts spell one location

The six kinds of locations have a grammar each, and the texts that are read as a location are the
ones that the grammar has for it: they **spell** the location (`Kind.parse_eq_ok_iff`). A text
spells one location at most, but a location has many spellings. One of them is its written form, if
its names can be read (`Kind.isCanonical_text`), and two texts that are written forms spell one
location only if they are one text (`Kind.IsCanonical.eq_of_spelledAlike`).
-/

namespace AnnotationPlan

open Location Location.Scan

/-- **The texts of type paths.** -/
theorem TypePath.parse_eq_ok_iff {s : String} {p : TypePath} :
    TypePath.parse s = .ok p ↔ Row Step.Written s.toList p.steps :=
  scan_takes.parse_eq_ok_iff scan_row

/-- **The texts of paths in the syntax tree**, which may have blanks around them. -/
theorem AstPath.parse_eq_ok_iff {s : String} {p : AstPath} :
    AstPath.parse s = .ok p ↔ p.Framed s.toList := by
  obtain ⟨before, after, htext, hbefore, hafter⟩ := Text.exists_blanks_trimChars s.toList
  refine ⟨fun h => ?_, fun h => ?_⟩
  · rw [AstPath.parse] at h
    split at h
    case isTrue hnil =>
      cases h
      rw [hnil, List.nil_append] at htext
      rw [htext]
      exact .empty (List.forall_mem_append.mpr ⟨hbefore, hafter⟩)
    case isFalse =>
      obtain ⟨front, hfront, hwritten⟩ := scan_takes (Scan.parse_eq_ok_iff.mp h)
      rw [hfront, List.append_nil] at htext
      rw [htext]
      exact .path hbefore hafter hwritten
  · rw [AstPath.parse]
    generalize s.toList = cs at h
    cases h with
    | empty blanks => exact if_pos (Text.trimChars_of_blanks blanks)
    | path blanksBefore blanksAfter written =>
      rw [written.isTrimmed.trimChars_between blanksBefore blanksAfter, if_neg written.ne_nil]
      exact parse_of_ok (scan_written written) _ _

namespace Location

/-- The locations of a kind. -/
def Kind.Key : Kind → Type
  | .typePath => TypePath
  | .astPath => AstPath
  | .relative => RelativeLocation
  | .bound => BoundLocation
  | .supertype => SupertypeLocation
  | .localVariable => LocalLocation

instance Kind.decidableEqKey : (kind : Kind) → DecidableEq kind.Key
  | .typePath => inferInstanceAs (DecidableEq TypePath)
  | .astPath => inferInstanceAs (DecidableEq AstPath)
  | .relative => inferInstanceAs (DecidableEq RelativeLocation)
  | .bound => inferInstanceAs (DecidableEq BoundLocation)
  | .supertype => inferInstanceAs (DecidableEq SupertypeLocation)
  | .localVariable => inferInstanceAs (DecidableEq LocalLocation)

namespace Kind

/-- Read a text as a location of the kind. -/
def parse : (kind : Kind) → String → Except ParseError kind.Key
  | .typePath => TypePath.parse
  | .astPath => AstPath.parse
  | .relative => RelativeLocation.parse
  | .bound => BoundLocation.parse
  | .supertype => SupertypeLocation.parse
  | .localVariable => LocalLocation.parse

/-- The written form of a location. -/
def text : (kind : Kind) → kind.Key → String
  | .typePath => TypePath.text
  | .astPath => AstPath.text
  | .relative => RelativeLocation.text
  | .bound => BoundLocation.text
  | .supertype => SupertypeLocation.text
  | .localVariable => LocalLocation.text

/-- **A text spells a location**: it is what is written for it. -/
def Spells : (kind : Kind) → String → kind.Key → Prop
  | .typePath => fun s p => Row TypePath.Step.Written s.toList p.steps
  | .astPath => fun s p => AstPath.Framed s.toList p
  | .relative => fun s l => RelativeLocation.Written s.toList l
  | .bound => fun s l => BoundLocation.Written s.toList l
  | .supertype => fun s l => SupertypeLocation.Written s.toList l
  | .localVariable => fun s l => LocalLocation.Written s.toList l

/-- **Two texts spell one location.** -/
def SpelledAlike (kind : Kind) (s s' : String) : Prop := ∃ k, kind.Spells s k ∧ kind.Spells s' k

/-- **A text is canonical**: it is the written form of the location that it spells. -/
def IsCanonical (kind : Kind) (s : String) : Prop := ∃ k, kind.Spells s k ∧ kind.text k = s

variable {kind : Kind} {s s' : String} {k k' : kind.Key}

/-- **The texts of locations**: a text is read as a location exactly if it spells the location. -/
theorem parse_eq_ok_iff : kind.parse s = .ok k ↔ kind.Spells s k := by
  cases kind with
  | typePath => exact TypePath.parse_eq_ok_iff
  | astPath => exact AstPath.parse_eq_ok_iff
  | relative => exact RelativeLocation.parse_eq_ok_iff
  | bound => exact BoundLocation.parse_eq_ok_iff
  | supertype => exact SupertypeLocation.parse_eq_ok_iff
  | localVariable => exact LocalLocation.parse_eq_ok_iff

/-- A zero type index may be written, and zeros before a number. -/
example : Kind.relative.parse "#007,0" = Kind.relative.parse "#7" := by decide +kernel

/-- **A text spells one location** at most. -/
theorem Spells.unique (h : kind.Spells s k) (h' : kind.Spells s k') : k = k' :=
  Except.ok.inj ((parse_eq_ok_iff.mpr h).symm.trans (parse_eq_ok_iff.mpr h'))

/-- Texts that spell a location are spelled alike if they are read as the same. -/
theorem Spells.spelledAlike_iff (h : kind.Spells s k) :
    kind.SpelledAlike s s' ↔ kind.parse s = kind.parse s' := by
  rw [parse_eq_ok_iff.mpr h, eq_comm, parse_eq_ok_iff]
  refine ⟨fun ⟨k', hk, hk'⟩ => ?_, fun h' => ⟨k, h, h'⟩⟩
  rwa [h.unique hk]

/-- **A location can be read back**: the names in it can. -/
def Readable : (kind : Kind) → kind.Key → Prop
  | .astPath => AstPath.Readable
  | .localVariable => LocalLocation.Readable
  | _ => fun _ => True

/-- **The written form of a location** is canonical. -/
theorem isCanonical_text (kind : Kind) (k : kind.Key) (h : kind.Readable k) :
    kind.IsCanonical (kind.text k) := by
  refine ⟨k, parse_eq_ok_iff.mp ?_, rfl⟩
  cases kind with
  | typePath => exact TypePath.parse_text k
  | astPath => exact AstPath.parse_text h
  | relative => exact RelativeLocation.parse_text k
  | bound => exact BoundLocation.parse_text k
  | supertype => exact SupertypeLocation.parse_text k
  | localVariable => exact LocalLocation.parse_text h

/-- **Canonical texts that spell one location** are one text. -/
theorem IsCanonical.eq_of_spelledAlike (hs : kind.IsCanonical s) (hs' : kind.IsCanonical s')
    (h : kind.SpelledAlike s s') : s = s' := by
  obtain ⟨k, hk, rfl⟩ := hs
  obtain ⟨k', hk', rfl⟩ := hs'
  obtain ⟨l, hl, hl'⟩ := h
  rw [hk.unique hl, hk'.unique hl']

end Kind

end Location

end AnnotationPlan
