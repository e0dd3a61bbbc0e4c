import AnnotationPlan.Proofs.Criteria.Names
import AnnotationPlan.Proofs.Plan.Safety
import AnnotationPlan.Report.Response

/-!
# Reading a listing

A listing is read line by line, and the line of an insertion column by column: number, kind,
criteria and text, with tabs between them. The text is escaped, so it is on one line and holds
no tab, whatever is in it (`Listing.occurrences_escaped`). The criteria are not, nor are the
messages of warnings, and the names of classes and of all that is in them are texts of any
kind. So the lines of a listing are those of its insertions and warnings exactly if no such
name and no message holds the end of a line; every line end in them makes one line more, and
every tab in a name one column more (`Plan.listing_lines`).
-/

namespace AnnotationPlan

namespace Text

variable {x : Char} {mark : String}

/-- **The parts of a text** that stand between the places of a character, before the first and
behind the last one. -/
def parts (x : Char) (s : String) : List String := (s.toList.splitOn x).map String.ofList

/-- There is one more part than there are places of the character. -/
theorem length_parts (s : String) : (parts x s).length = occurrences x s + 1 := by
  have hsplit : ∀ cs : List Char, (cs.splitOn x).length = cs.count x + 1 := by
    intro cs
    induction cs with
    | nil => rfl
    | cons c rest ih =>
      rw [List.splitOn_cons_eq_if_modifyHead, List.count_cons]
      split
      · rw [List.length_cons, ih]
      · rw [List.length_modifyHead, ih, Nat.add_zero]
  rw [parts, List.length_map, hsplit]
  rfl

/-- A text without the character is its only part. -/
theorem parts_of_not_mem {s : String} (h : x ∉ s.toList) : parts x s = [s] := by
  rw [parts, List.splitOn_eq_singleton h, List.map_singleton, String.ofList_toList]

/-- The parts on both sides of a place of the character. -/
theorem parts_append (hmark : mark.toList = [x]) (s t : String) :
    parts x (s ++ mark ++ t) = parts x s ++ parts x t := by
  rw [parts, String.toList_append, String.toList_append, hmark, List.append_assoc,
    List.singleton_append, List.splitOn_append_cons_self, List.map_append]
  rfl

/-- **Texts that each end in the character** are taken apart one by one, and nothing stands
behind the last one. -/
theorem parts_join (hmark : mark.toList = [x]) :
    ∀ ss : List String, parts x (String.join (ss.map (· ++ mark))) = ss.flatMap (parts x) ++ [""]
  | [] => rfl
  | s :: rest => by
    rw [List.map_cons, String.join_cons, parts_append hmark, parts_join hmark rest,
      List.flatMap_cons, List.append_assoc]

/-- Texts with the character between them are taken apart one by one. -/
theorem parts_intercalate (hmark : mark.toList = [x]) :
    ∀ {ss : List String}, ss ≠ [] → parts x (String.intercalate mark ss) = ss.flatMap (parts x)
  | [s], _ => by
    rw [String.intercalate_singleton, List.flatMap_singleton]
  | s :: t :: rest, _ => by
    rw [String.intercalate_cons_cons, parts_append hmark,
      parts_intercalate hmark (List.cons_ne_nil t rest)]
    rfl

theorem length_flatMap_parts (ss : List String) :
    (ss.flatMap (parts x)).length = ss.length + (ss.map (occurrences x)).sum := by
  induction ss with
  | nil => rfl
  | cons s rest ih =>
    rw [List.flatMap_cons, List.length_append, ih, length_parts, List.length_cons, List.map_cons,
      List.sum_cons]
    omega

/-- **Texts are their own parts** exactly if none of them has the character. -/
theorem flatMap_parts_eq_self_iff {ss : List String} :
    ss.flatMap (parts x) = ss ↔ ∀ s ∈ ss, x ∉ s.toList := by
  constructor
  · intro h
    have hlength := length_flatMap_parts (x := x) ss
    rw [h] at hlength
    exact sum_occurrences_eq_zero_iff.mp (by omega)
  · intro h
    induction ss with
    | nil => rfl
    | cons s rest ih =>
      obtain ⟨hs, hrest⟩ := List.forall_mem_cons.mp h
      rw [List.flatMap_cons, parts_of_not_mem hs, ih hrest]
      rfl

end Text

open Text

namespace Listing

variable {x : Char}

/-! ## Escaped texts -/

/-- The digits of a number to the base sixteen. -/
theorem exists_digitChar_of_mem_toDigits (n : Nat) :
    ∀ c ∈ Nat.toDigits 16 n, ∃ d < 16, c = d.digitChar := by
  induction n using Nat.strongRecOn with
  | ind n ih =>
    rcases Nat.lt_or_ge n 16 with hlt | hge
    · rw [Nat.toDigits_of_lt_base hlt]
      exact fun c hc => ⟨n, hlt, List.mem_singleton.mp hc⟩
    · rw [Nat.toDigits_of_base_le (by decide) hge]
      intro c hc
      rcases List.mem_append.mp hc with hc | hc
      · exact ih (n / 16) (by omega) c hc
      · exact ⟨n % 16, Nat.mod_lt n (by decide), List.mem_singleton.mp hc⟩

/-- The printable characters of ASCII. -/
def isPrintable (c : Char) : Bool := decide (0x20 ≤ c.toNat ∧ c.toNat < 0x7F)

/-- **A character is escaped by printable ones.** -/
theorem all_isPrintable_escape (c : Char) : (escape c).all isPrintable = true := by
  by_cases hletter : c = '\t' ∨ c = '\r' ∨ c = '\n' ∨ c = '\'' ∨ c = '"' ∨ c = '\\'
  · obtain rfl | rfl | rfl | rfl | rfl | rfl := hletter <;> rfl
  · simp only [not_or] at hletter
    obtain ⟨ht, hr, hn, hsingle, hdouble, hback⟩ := hletter
    unfold escape
    rw [if_neg ht, if_neg hr, if_neg hn, if_neg hsingle, if_neg hdouble, if_neg hback]
    split
    case isTrue hc => exact List.all_eq_true.mpr (List.forall_mem_singleton.mpr (decide_eq_true hc))
    case isFalse =>
      have hdigit : ∀ d < 16, isPrintable d.digitChar = true := by decide
      have hdigits : (Nat.toDigits 16 c.toNat).all isPrintable = true := by
        refine List.all_eq_true.mpr (fun e he => ?_)
        obtain ⟨d, hd, rfl⟩ := exists_digitChar_of_mem_toDigits c.toNat e he
        exact hdigit d hd
      rw [List.all_cons, List.all_cons, List.all_cons, List.all_append, hdigits]
      rfl

/-- **An escaped text** is on one line and holds no tab. -/
theorem occurrences_escaped (hx : IsBreak x) (s : String) : occurrences x (escaped s) = 0 := by
  refine occurrences_eq_zero_iff.mpr (fun hmem => ?_)
  rw [escaped, String.toList_ofList] at hmem
  obtain ⟨c, -, hc⟩ := List.mem_flatMap.mp hmem
  have hprintable := List.all_eq_true.mp (all_isPrintable_escape c) x hc
  rcases hx with rfl | rfl <;> cases hprintable

/-! ## Rows -/

/-- **What a line of the listing is made of.** -/
structure Row where
  /-- The number of an insertion of the output. -/
  id : InsertionId
  /-- The insertion. -/
  insertion : Insertion
  /-- The source text. -/
  text : String

namespace Row

/-- The four columns of the line. -/
def columns (r : Row) : List String :=
  [r.id.repr, r.insertion.kindName, r.insertion.criteria.text, escaped r.text]

/-- **The line of an insertion**, without its end. -/
def line (r : Row) : String := String.intercalate "\t" r.columns

/-- The names in the criteria. -/
def names (r : Row) : List String := r.insertion.criteria.names

/-- **The line ends and tabs in the columns** are those of the names. -/
theorem occurrences_columns (hx : IsBreak x) (r : Row) :
    (r.columns.map (occurrences x)).sum = (r.names.map (occurrences x)).sum := by
  have hkind : occurrences x r.insertion.kindName = 0 := by
    cases r.insertion <;> rw [Insertion.kindName] <;> exact occurrences_of_isUnbroken hx rfl
  simp only [columns, List.map_cons, List.map_nil, List.sum_cons, List.sum_nil,
    occurrences_repr hx, hkind, occurrences_escaped hx, r.insertion.criteria.occurrences_text hx,
    names]
  omega

/-- The line ends in a line are those of the names. -/
theorem occurrences_line (r : Row) :
    occurrences '\n' r.line = (r.names.map (occurrences '\n')).sum := by
  rw [line, occurrences_intercalate (by decide), occurrences_columns (.inl rfl)]

/-- **A row is on one line** exactly if no name holds the end of a line. -/
theorem not_mem_line_iff (r : Row) :
    '\n' ∉ r.line.toList ↔ ∀ name ∈ r.names, '\n' ∉ name.toList := by
  rw [← occurrences_eq_zero_iff, occurrences_line, sum_occurrences_eq_zero_iff]

/-- The columns that a line has. -/
theorem parts_line (r : Row) : parts '\t' r.line = r.columns.flatMap (parts '\t') :=
  parts_intercalate rfl (List.cons_ne_nil _ _)

/-- **A line has four columns and one more for every tab in a name.** -/
theorem length_parts_line (r : Row) :
    (parts '\t' r.line).length = 4 + (r.names.map (occurrences '\t')).sum := by
  rw [parts_line, length_flatMap_parts, occurrences_columns (.inr rfl)]
  rfl

/-- **The columns of a line are those that it is made of** exactly if no name holds a tab. -/
theorem parts_line_eq_iff (r : Row) :
    parts '\t' r.line = r.columns ↔ ∀ name ∈ r.names, '\t' ∉ name.toList := by
  rw [parts_line, flatMap_parts_eq_self_iff, ← sum_occurrences_eq_zero_iff,
    ← sum_occurrences_eq_zero_iff, occurrences_columns (.inr rfl)]

end Row

/-- The line of a warning, without its end. -/
def warningText (w : Warning) : String := "warning[" ++ Warning.code ++ "]: " ++ w.message

theorem occurrences_warningText (hx : IsBreak x) (w : Warning) :
    occurrences x (warningText w) = occurrences x w.message := by
  rw [warningText, occurrences_append, occurrences_of_isUnbroken hx (by decide), Nat.zero_add]

/-- A warning is on one line exactly if its message is. -/
theorem not_mem_warningText_iff (w : Warning) :
    '\n' ∉ (warningText w).toList ↔ '\n' ∉ w.message.toList := by
  rw [← occurrences_eq_zero_iff, occurrences_warningText (.inl rfl), occurrences_eq_zero_iff]

/-- **The lines of a text**: what stands before each line end. -/
def lines (s : String) : List String := (parts '\n' s).dropLast

/-- **Lines that are written** are taken apart one by one. -/
theorem lines_join (ss : List String) :
    lines (String.join (ss.map (· ++ "\n"))) = ss.flatMap (parts '\n') := by
  rw [lines, parts_join rfl, List.dropLast_concat]

end Listing

open Listing

namespace Plan

/-! ## The listing of a plan -/

/-- The row of an insertion. -/
def row (p : Plan) (id : InsertionId) : Except PlanError Row := do
  let i ← p.store.lookup id
  let text ← p.store.render id
  pure ⟨id, i, text⟩

/-- **The rows of the output.** -/
def rows (p : Plan) : Except PlanError (List Row) := p.order.mapM p.row

section Rows

variable {plan : Plan} {rows : List Row}

/-- What a row is made of. -/
theorem row_eq_ok {id : InsertionId} {r : Row} : plan.row id = .ok r
    ↔ r.id = id ∧ plan.store.get? id = some r.insertion ∧ plan.store.render id = .ok r.text := by
  constructor
  · intro h
    obtain ⟨i, hi, h⟩ := bind_eq_ok.mp h
    obtain ⟨text, htext, h⟩ := bind_eq_ok.mp h
    cases h
    exact ⟨rfl, Store.lookup_eq_ok.mp hi, htext⟩
  · rintro ⟨rfl, hi, htext⟩
    exact bind_eq_ok.mpr ⟨_, Store.lookup_eq_ok.mpr hi, bind_eq_ok.mpr ⟨_, htext, rfl⟩⟩

/-- The line of an insertion is that of its row. -/
theorem listingLine_of_row {id : InsertionId} {r : Row} (h : plan.row id = .ok r) :
    plan.listingLine id = .ok (r.line ++ "\n") := by
  obtain ⟨rfl, hi, htext⟩ := row_eq_ok.mp h
  have hline : insertionLine r.id r.insertion r.text = r.line ++ "\n" := by
    rw [insertionLine, Row.line, Row.columns, String.intercalate_cons_cons,
      String.intercalate_cons_cons, String.intercalate_cons_cons, String.intercalate_singleton]
    simp only [String.append_assoc]
  rw [← hline]
  exact bind_eq_ok.mpr ⟨_, Store.lookup_eq_ok.mpr hi, bind_eq_ok.mpr ⟨_, htext, rfl⟩⟩

/-- **The lines of insertions are those of their rows**, one after another. -/
theorem mapM_listingLine : ∀ {ids : List InsertionId} {rows : List Row},
    ids.mapM plan.row = .ok rows →
    rows.map Row.id = ids
      ∧ ids.mapM plan.listingLine = .ok (rows.map (fun r => r.line ++ "\n"))
  | [], rows, h => by
    cases h
    exact ⟨rfl, rfl⟩
  | id :: rest, rows, h => by
    rw [List.mapM_cons] at h
    obtain ⟨r, hr, h⟩ := bind_eq_ok.mp h
    obtain ⟨more, hmore, h⟩ := bind_eq_ok.mp h
    cases h
    obtain ⟨hids, hlines⟩ := mapM_listingLine hmore
    refine ⟨?_, ?_⟩
    · rw [List.map_cons, hids, (row_eq_ok.mp hr).1]
    · rw [List.mapM_cons]
      exact bind_eq_ok.mpr ⟨_, listingLine_of_row hr, bind_eq_ok.mpr ⟨_, hlines, rfl⟩⟩

/-- **A listing is written line by line**, first the insertions and then the warnings. -/
theorem listing_of_rows (h : plan.rows = .ok rows) : plan.listing
    = .ok (String.join
      ((rows.map Row.line ++ plan.warnings.map warningText).map (· ++ "\n"))) := by
  have hlines := (mapM_listingLine h).2
  rw [List.map_append, List.map_map, List.map_map, String.join_append]
  exact bind_eq_ok.mpr ⟨_, hlines, rfl⟩

end Rows

variable {policy : NamePolicy} {scene : Scene} {lookup : ConstructorLookup} {settings : Settings}
  {plan : Plan}

/-- What a run leaves behind has rows. -/
theorem exists_rows (h : ofSceneWith policy scene lookup settings = .ok plan) :
    ∃ rows, plan.rows = .ok rows := by
  obtain ⟨d, className, hstore, horder, hd, -, -⟩ :=
    (visits_yields .trivial policy scene lookup settings).of_ok h
  refine exists_mapM_ok (fun id hid => ?_)
  rw [horder, List.mem_reverse] at hid
  obtain ⟨i, hi⟩ := Store.exists_get? (hd.placed_lt id hid)
  obtain ⟨text, htext⟩ := Store.exists_render hd.wired.closed hd.wired.acyclic
    hd.wired.receiversInClass (hd.placed_lt id hid)
  exact ⟨⟨id, i, text⟩, row_eq_ok.mpr ⟨rfl, hstore ▸ hi, hstore ▸ htext⟩⟩

/-- **The lines and columns of a listing.** Whatever plan a run leaves behind can be listed, and
the listing ends with the end of a line, unless it is empty. Each insertion of the output has a
row, of which its line is made, and the lines of the warnings follow. The listing has as many
lines as there are insertions in the output and warnings, and one more for each line end in the
message of a warning or in a name in the criteria of a row. So its lines are those of the
insertions and of the warnings exactly if there is no such line end. The line of a row has four
columns, and one more for each tab in a name in its criteria, and its columns are number, kind,
criteria and escaped text exactly if there is no such tab. -/
theorem listing_lines (h : ofSceneWith policy scene lookup settings = .ok plan) :
    ∃ rows s, plan.rows = .ok rows ∧ plan.listing = .ok s
      ∧ rows.map Row.id = plan.order
      ∧ (∀ r ∈ rows,
        plan.store.get? r.id = some r.insertion ∧ plan.store.render r.id = .ok r.text)
      ∧ parts '\n' s = lines s ++ [""]
      ∧ (lines s).length = plan.order.length + plan.warnings.length
          + (rows.map (fun r => (r.names.map (occurrences '\n')).sum)).sum
          + (plan.warnings.map (fun w => occurrences '\n' w.message)).sum
      ∧ (lines s = rows.map Row.line ++ plan.warnings.map warningText
        ↔ (∀ r ∈ rows, ∀ name ∈ r.names, '\n' ∉ name.toList)
          ∧ ∀ w ∈ plan.warnings, '\n' ∉ w.message.toList)
      ∧ ∀ r ∈ rows,
        (parts '\t' r.line).length = 4 + (r.names.map (occurrences '\t')).sum
        ∧ (parts '\t' r.line = r.columns ↔ ∀ name ∈ r.names, '\t' ∉ name.toList) := by
  obtain ⟨rows, hrows⟩ := exists_rows h
  obtain ⟨hids, -⟩ := mapM_listingLine hrows
  have hlength : rows.length = plan.order.length := by rw [← hids, List.length_map]
  have hlines := lines_join (rows.map Row.line ++ plan.warnings.map warningText)
  have hrow : (rows.map Row.line).map (occurrences '\n')
      = rows.map (fun r => (r.names.map (occurrences '\n')).sum) := by
    rw [List.map_map]
    refine List.map_congr_left (fun r _ => ?_)
    rw [Function.comp_apply, r.occurrences_line]
  have hwarning : (plan.warnings.map warningText).map (occurrences '\n')
      = plan.warnings.map (fun w => occurrences '\n' w.message) := by
    rw [List.map_map]
    refine List.map_congr_left (fun w _ => ?_)
    rw [Function.comp_apply, occurrences_warningText (.inl rfl)]
  refine ⟨rows, _, hrows, listing_of_rows hrows, hids, fun r hr => ?_, ?_, ?_, ?_,
    fun r _ => ⟨r.length_parts_line, r.parts_line_eq_iff⟩⟩
  · obtain ⟨id, -, hid⟩ := exists_of_mem_mapM hrows r hr
    obtain ⟨rfl, hi, htext⟩ := row_eq_ok.mp hid
    exact ⟨hi, htext⟩
  · rw [hlines, parts_join rfl]
  · rw [hlines, length_flatMap_parts, List.length_append, List.length_map, List.length_map,
      hlength, List.map_append, List.sum_append, hrow, hwarning, Nat.add_assoc (_ + _)]
  · rw [hlines, flatMap_parts_eq_self_iff, List.forall_mem_append, List.forall_mem_map,
      List.forall_mem_map]
    exact and_congr (forall₂_congr (fun r _ => r.not_mem_line_iff))
      (forall₂_congr (fun w _ => not_mem_warningText_iff w))

end Plan

/-- **A class whose name holds the end of a line**, and one whose name holds a tab. -/
def Scene.brokenNames : Scene where
  definitions := .ofList [{ name := "A" }]
  packages := .empty
  classes := .ofList [
    ("C\nD", { (default : ClassElement) with annotations := [.ofName "A"] }),
    ("E\tF", { (default : ClassElement) with annotations := [.ofName "A"] })]

namespace Plan

/-- Two insertions are on three lines, and the second one has five columns. -/
theorem listing_brokenNames :
    ∃ plan, ofSceneWith ⟨[]⟩ Scene.brokenNames .nothing {} = .ok plan
      ∧ plan.order = [0, 1] ∧ plan.warnings = []
      ∧ ∃ rows s, plan.rows = .ok rows ∧ plan.listing = .ok s
        ∧ (lines s).length = 3
        ∧ lines s ≠ rows.map Row.line ++ plan.warnings.map warningText
        ∧ rows.map (fun r => (parts '\t' r.line).length) = [4, 5] := by
  obtain ⟨plan, hplan, horder, hwarnings, hnames⟩ : ∃ plan,
      ofSceneWith ⟨[]⟩ Scene.brokenNames .nothing {} = .ok plan ∧ plan.order = [0, 1]
      ∧ plan.warnings = [] ∧ plan.rows.map (List.map Row.names) = .ok [["C\nD"], ["E\tF"]] :=
    ⟨_, rfl, rfl, rfl, rfl⟩
  obtain ⟨rows, s, hrows, hlisting, -, -, -, hlength, hlines, hcolumns⟩ := listing_lines hplan
  rw [hrows] at hnames
  have hnames : rows.map Row.names = [["C\nD"], ["E\tF"]] := Except.ok.inj hnames
  have hcounted : ∀ x, rows.map (fun r => (r.names.map (occurrences x)).sum)
      = [["C\nD"], ["E\tF"]].map (fun names => (names.map (occurrences x)).sum) := by
    intro x
    rw [← hnames, List.map_map]
    rfl
  refine ⟨plan, hplan, horder, hwarnings, rows, s, hrows, hlisting, ?_, fun h => ?_, ?_⟩
  · rw [hlength, hcounted, horder, hwarnings]
    rfl
  · obtain ⟨r, hr, hname⟩ : ∃ r ∈ rows, r.names = ["C\nD"] := by
      refine List.mem_map.mp ?_
      rw [hnames]
      exact List.mem_cons_self
    exact (hlines.mp h).1 r hr "C\nD" (hname ▸ List.mem_cons_self) (by decide)
  · have hfour : ∀ r ∈ rows, (parts '\t' r.line).length
        = 4 + (r.names.map (occurrences '\t')).sum := fun r hr => (hcolumns r hr).1
    have htabs := congrArg (List.map (4 + ·)) (hcounted '\t')
    rw [List.map_map] at htabs
    exact (List.map_congr_left hfour).trans htabs

/-- **The listing of two insertions need not have two lines**, and the line of an insertion need
not have four columns. -/
theorem brokenNames_listed :
    ∃ plan s, ofScene Scene.brokenNames .nothing {} = .ok plan
      ∧ plan.order.length = 2 ∧ plan.warnings.length = 0
      ∧ plan.listing = .ok s
      ∧ (lines s).map (parts '\t')
        = [["0", "annotation", "[is(CLASS, C"], ["D)]", "@A"],
          ["1", "annotation", "[is(CLASS, E", "F)]", "@A"]] := by
  refine ⟨_, "0\tannotation\t[is(CLASS, C\nD)]\t@A\n1\tannotation\t[is(CLASS, E\tF)]\t@A\n",
    rfl, ?_, ?_, ?_, ?_⟩
  · rfl
  · rfl
  · decide +kernel
  · decide +kernel

end Plan

end AnnotationPlan
