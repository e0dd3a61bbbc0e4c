import AnnotationPlan.Scene.Element

/-!
# Ways through a scene

A way leads from an element of a scene to one further down, member by member. Going a way
creates what is missing, so that a way leads somewhere at all is not worth much; what is
needed here is that it leads to an element that **is there** (`Element.Leads`). Then what
stands at its end can be changed, and only that changes (`Element.Leads.exists_modifyAt?`).

Members that are entries of a map can also be taken out of it (`Element.remove`), which is
what one does with entries in which there is nothing (`Element.isIdle`).
-/

namespace AnnotationPlan

/-! ## Entries of maps -/

namespace Entries

variable {κ ν : Type} [DecidableEq κ]

/-- Take the entry of a key out of a list of pairs. -/
def erase (k : κ) (es : List (κ × ν)) : List (κ × ν) :=
  es.eraseP (fun e => e.1 = k)

/-- **An entry that is there** stands between others, and what is written to its key or
taken out of the list is that entry. -/
theorem exists_split {k : κ} {v : ν} {es : List (κ × ν)} (there : insert k v es = es) :
    ∃ before after, es = before ++ (k, v) :: after ∧ erase k es = before ++ after
      ∧ ∀ v', insert k v' es = before ++ (k, v') :: after := by
  induction es with
  | nil => cases there
  | cons e rest ih =>
    obtain ⟨k', w⟩ := e
    by_cases hk : k' = k
    · subst hk
      have hw : v = w := by simpa [insert, alter] using there
      subst hw
      exact ⟨[], rest, rfl, by simp [erase], fun v' => by simp [insert, alter]⟩
    · have hrest : insert k v rest = rest := by simpa [insert, alter, hk] using there
      obtain ⟨before, after, hsplit, herase, hinsert⟩ := ih hrest
      refine ⟨(k', w) :: before, after, congrArg _ hsplit, ?_, fun v' => ?_⟩
      · rw [erase, List.eraseP_cons_of_neg (by simpa using hk)]
        exact congrArg _ herase
      · show alter k _ ((k', w) :: rest) = _
        rw [alter, if_neg hk]
        exact congrArg _ (hinsert v')

end Entries

namespace OrderedMap

variable {κ ν : Type} [DecidableEq κ]

/-- Take the entry of a key out of a map. -/
def erase (m : OrderedMap κ ν) (k : κ) : OrderedMap κ ν :=
  ⟨Entries.erase k m.entries, List.Nodup.sublist (List.eraseP_sublist.map _) m.distinct⟩

end OrderedMap

/-! ## Elements in which there is nothing -/

namespace AstInsertions

/-- Whether there is nothing to be inserted: no annotation, and no cast. -/
def isIdle (i : AstInsertions) : Bool :=
  i.annotations.entries.all (fun e => e.2.isEmpty) && i.casts.isEmpty

end AstInsertions

/-- Whether there is nothing in a variable. -/
def VariableElement.isIdle (v : VariableElement) : Bool :=
  v.annotations.isEmpty && v.type.isEmpty && v.insertions.isIdle

/-- Whether there is no annotation in any of several types. -/
def TypeElement.allEmpty {κ : Type} (ts : OrderedMap κ TypeElement) : Bool :=
  ts.entries.all (fun e => e.2.isEmpty)

mutual

/-- Whether there is nothing in expressions. -/
def ExpressionElement.isIdle : ExpressionElement → Bool
  | ⟨casts, news, instanceOfs, memberReferences, calls, lambdas⟩ =>
    TypeElement.allEmpty casts && TypeElement.allEmpty news && TypeElement.allEmpty instanceOfs
      && TypeElement.allEmpty memberReferences && TypeElement.allEmpty calls
      && areIdle lambdas
termination_by structural e => e

/-- Whether there is nothing in any of several lambdas. -/
def areIdle : List (RelativeLocation × MethodElement) → Bool
  | [] => true
  | (_, m) :: rest => m.isIdle && areIdle rest
termination_by structural es => es

/-- Whether there is nothing in a method. -/
def MethodElement.isIdle : MethodElement → Bool
  | ⟨annotations, receiver, returnType, bounds, parameters, insertions, body⟩ =>
    annotations.isEmpty && receiver.isEmpty && returnType.isEmpty
      && TypeElement.allEmpty bounds && parameters.entries.all (fun p => p.2.isIdle)
      && insertions.isIdle && body.isIdle
termination_by structural m => m

/-- Whether there is nothing in a block. -/
def BlockElement.isIdle : BlockElement → Bool
  | ⟨locals, expressions⟩ => locals.entries.all (fun l => l.2.isIdle) && expressions.isIdle
termination_by structural b => b

end

namespace Element

/-- **Whether there is nothing in an element**: no annotation at it or anywhere within, and
no cast to be inserted. It does not take annotations to make something of a cast, or to ask
for a class; so these are never idle, and neither is the scene itself. -/
def isIdle : Element → Bool
  | package p => p.annotations.isEmpty
  | method m => m.isIdle
  | variableDeclaration v => v.isIdle
  | block b => b.isIdle
  | expressions x => x.isIdle
  | type t => t.isEmpty
  | scene _ => false
  | classDeclaration _ => false
  | cast _ => false

/-! ## Taking members out -/

/-- What goes into a syntax tree, without one of the entries. -/
def insertionsWithout (i : AstInsertions) : Segment → AstInsertions
  | .annotatedPlace path => { i with annotations := i.annotations.erase path }
  | .castPlace path _ => { i with casts := i.casts.erase path }
  | _ => i

/-- A class without one of the entries of its maps. -/
def classWithout (c : ClassElement) : Segment → ClassElement
  | .bound l => { c with bounds := c.bounds.erase l }
  | .supertype l => { c with supertypes := c.supertypes.erase l }
  | .field name => { c with fields := c.fields.erase name }
  | .method name => { c with methods := c.methods.erase name }
  | .staticInit n => { c with staticInits := c.staticInits.erase n }
  | .instanceInit n => { c with instanceInits := c.instanceInits.erase n }
  | .fieldInit name => { c with fieldInits := c.fieldInits.erase name }
  | segment => { c with insertions := insertionsWithout c.insertions segment }

/-- A method without one of the entries of its maps. -/
def methodWithout (m : MethodElement) : Segment → MethodElement
  | .bound l => { m with bounds := m.bounds.erase l }
  | .parameter n => { m with parameters := m.parameters.erase n }
  | segment => { m with insertions := insertionsWithout m.insertions segment }

/-- Expressions without one of the entries of their maps. -/
def expressionsWithout (x : ExpressionElement) : Segment → ExpressionElement
  | .cast l => { x with casts := x.casts.erase l }
  | .new l => { x with news := x.news.erase l }
  | .instanceOf l => { x with instanceOfs := x.instanceOfs.erase l }
  | .memberReference l => { x with memberReferences := x.memberReferences.erase l }
  | .call l => { x with calls := x.calls.erase l }
  | .lambda l => { x with lambdas := Entries.erase l x.lambdas }
  | _ => x

/-- **Take a member out of an element**, if it is an entry of one of the maps of the element.
Members that are no entries – the receiver, the result type and the code of a method, the
type of a variable, the expressions of a block – remain. -/
def remove (segment : Segment) : Element → Element
  | scene s =>
    match segment with
    | .package name => .scene { s with packages := s.packages.erase name }
    | .classDeclaration name => .scene { s with classes := s.classes.erase name }
    | _ => .scene s
  | classDeclaration c => .classDeclaration (classWithout c segment)
  | method m => .method (methodWithout m segment)
  | variableDeclaration v =>
    .variableDeclaration { v with insertions := insertionsWithout v.insertions segment }
  | block b =>
    match segment with
    | .localVariable l => .block { b with locals := b.locals.erase l }
    | _ => .block b
  | expressions x => .expressions (expressionsWithout x segment)
  | type t =>
    match segment with
    | .inner path => .type { t with inner := Entries.erase path t.inner }
    | _ => .type t
  | cast c =>
    match segment with
    | .inner path => .cast { c with inner := Entries.erase path c.inner }
    | _ => .cast c
  | package p => .package p

/-! ## Ways -/

/-- **A way leads to an element that is there**: each member on the way, put back as it is,
leaves the element unchanged that it is a member of. -/
inductive Leads : Element → List Segment → Element → Prop
  /-- The way that leads nowhere else. -/
  | here {e : Element} : Leads e [] e
  /-- On to a member, and further. -/
  | member {e x : Element} {segment : Segment} {way : List Segment} {m : Member}
      (get : e.member? segment = some m) (there : m.2 m.1 = e) (onward : Leads m.1 way x) :
      Leads e (segment :: way) x

end Element

end AnnotationPlan
