import AnnotationPlan.Settings

/-!
# What a flag overrides

A flag wins over the variable of the same setting: if it is given, the setting has its value, and
what the variable says does not show – as long as it says something that can be read. A value that
cannot be read is no value of an earlier layer that a later one could replace. It stops the program
while the variables are read, before any flag is looked at, so that an error is the same with flags
and without (`LayeredSettings.resolve_eq_error_iff`).

What counts as a value that cannot be read is said by the words that a variable takes
(`Setting.words`), and of two such values the one of the first variable is reported
(`LayeredSettings.firstFault?`). With a flag given, this fault is all that still depends on the
variable of its setting (`LayeredSettings.resolve_masked`).
-/

namespace AnnotationPlan

/-- **A setting** that has a variable and a flag. -/
inductive Setting where
  /-- The policy for constructors of which nothing is known. -/
  | unknownConstructors
  /-- Whether compiled classes are consulted. -/
  | readBytecode

namespace Setting

/-- The variable of a setting. -/
def variableName : Setting → String
  | unknownConstructors => LayeredSettings.unknownConstructorsVariable
  | readBytecode => LayeredSettings.noBytecodeVariable

/-- The words that the variable of a setting takes. -/
def words : Setting → List String
  | unknownConstructors => ["suppress", "synthesize"]
  | readBytecode => ["1", "true", "yes", "on", "0", "false", "no", "off", ""]

/-- What the variable of a setting is expected to hold. -/
def expected : Setting → String
  | unknownConstructors => "suppress or synthesize"
  | readBytecode => "a boolean (1/0, true/false, yes/no, on/off)"

/-- **The flag of a setting is given.** -/
def IsFlagged (o : Overrides) : Setting → Prop
  | unknownConstructors => o.unknownConstructors ≠ none
  | readBytecode => o.noBytecode = true

/-- **What is wrong with the value of a variable**, if it has a value and that is none of the words
that it takes. -/
def fault? (s : Setting) : Option String → Option SettingError
  | none => none
  | some text =>
    if settingWord text ∈ s.words then none else some ⟨s.variableName, text, s.expected⟩

variable {s : Setting} {text : String}

/-- A word that the variable takes is no fault. -/
theorem fault?_of_mem (h : settingWord text ∈ s.words) : s.fault? (some text) = none := if_pos h

/-- Any other text is a fault. -/
theorem fault?_of_notMem (h : settingWord text ∉ s.words) :
    s.fault? (some text) = some ⟨s.variableName, text, s.expected⟩ := if_neg h

end Setting

namespace LayeredSettings

variable {environment environment' : String → Option String} {o : Overrides}

/-- **The fault of an environment**: the one of its first variable, or else the one of its
second. -/
def firstFault? (environment : String → Option String) : Option SettingError :=
  (Setting.unknownConstructors.fault? (environment unknownConstructorsVariable)).or
    (Setting.readBytecode.fault? (environment noBytecodeVariable))

/-! ## The layers -/

/-- **A flag has the last word.** -/
theorem merge_flag {α : Type} (first : Layered α) (a : α) :
    first.merge ⟨a, .flag⟩ = ⟨a, .flag⟩ := by
  have hrank : first.layer.rank ≤ Layer.flag.rank := by
    cases first.layer <;> decide
  rw [Layered.merge, if_pos hrank]

/-- What the flag of the first setting says, whatever was there before. -/
theorem withOverrides_of_policy (h : o.unknownConstructors ≠ none)
    (a a' : Layered UnknownConstructors) (b : Layered Bool) :
    withOverrides ⟨a, b⟩ o = withOverrides ⟨a', b⟩ o := by
  obtain ⟨policy, hpolicy⟩ := Option.ne_none_iff_exists'.mp h
  unfold withOverrides
  simp only [hpolicy, merge_flag]

/-- What the flag of the second setting says, whatever was there before. -/
theorem withOverrides_of_noBytecode (h : o.noBytecode = true) (a : Layered UnknownConstructors)
    (b b' : Layered Bool) : withOverrides ⟨a, b⟩ o = withOverrides ⟨a, b'⟩ o := by
  unfold withOverrides
  simp only [h, if_true, merge_flag]

/-- The first setting after its variable. -/
def policyOf : Option String → Except SettingError (Layered UnknownConstructors)
  | none => .ok defaults.unknownConstructors
  | some text => do
    let policy ← UnknownConstructors.parse unknownConstructorsVariable text
    pure (defaults.unknownConstructors.merge ⟨policy, .environment⟩)

/-- The second setting after its variable. -/
def bytecodeOf : Option String → Except SettingError (Layered Bool)
  | none => .ok defaults.readBytecode
  | some text => do
    let noBytecode ← parseFlag noBytecodeVariable text
    pure (defaults.readBytecode.merge ⟨!noBytecode, .environment⟩)

/-- **One variable after the other** is read. -/
theorem withEnvironment_defaults (environment : String → Option String) :
    defaults.withEnvironment environment = (do
      let a ← policyOf (environment unknownConstructorsVariable)
      let b ← bytecodeOf (environment noBytecodeVariable)
      pure ⟨a, b⟩) := by
  unfold withEnvironment policyOf bytecodeOf
  cases environment unknownConstructorsVariable with
  | none =>
    cases environment noBytecodeVariable with
    | none => rfl
    | some text =>
      dsimp only [pure_bind]
      cases parseFlag noBytecodeVariable text <;> rfl
  | some text =>
    dsimp only
    generalize UnknownConstructors.parse unknownConstructorsVariable text = policy
    cases environment noBytecodeVariable with
    | none => cases policy <;> rfl
    | some text =>
      dsimp only
      generalize parseFlag noBytecodeVariable text = noBytecode
      cases policy <;> cases noBytecode <;> rfl

/-! ## Faults -/

/-- The first variable is read unless its value is a fault. -/
theorem policyOf_cases (value : Option String) :
    (∃ e, Setting.unknownConstructors.fault? value = some e ∧ policyOf value = .error e)
      ∨ (Setting.unknownConstructors.fault? value = none ∧ ∃ a, policyOf value = .ok a) := by
  cases value with
  | none => exact .inr ⟨rfl, _, rfl⟩
  | some text =>
    dsimp only [policyOf, UnknownConstructors.parse]
    split
    case h_1 h => exact .inr ⟨Setting.fault?_of_mem (by rw [h]; decide), _, rfl⟩
    case h_2 h => exact .inr ⟨Setting.fault?_of_mem (by rw [h]; decide), _, rfl⟩
    case h_3 hsuppress hsynthesize =>
      refine .inl ⟨_, Setting.fault?_of_notMem ?_, rfl⟩
      simp only [Setting.words, List.mem_cons, List.not_mem_nil, or_false, not_or]
      exact ⟨hsuppress, hsynthesize⟩

/-- The second variable is read unless its value is a fault. -/
theorem bytecodeOf_cases (value : Option String) :
    (∃ e, Setting.readBytecode.fault? value = some e ∧ bytecodeOf value = .error e)
      ∨ (Setting.readBytecode.fault? value = none ∧ ∃ b, bytecodeOf value = .ok b) := by
  cases value with
  | none => exact .inr ⟨rfl, _, rfl⟩
  | some text =>
    have hwords : settingWord text ∈ Setting.readBytecode.words
        ↔ settingWord text ∈ ["1", "true", "yes", "on"]
          ∨ settingWord text ∈ ["0", "false", "no", "off", ""] :=
      List.mem_append (s := ["1", "true", "yes", "on"])
    dsimp only [bytecodeOf, parseFlag]
    split
    case isTrue h => exact .inr ⟨Setting.fault?_of_mem (hwords.mpr (.inl h)), _, rfl⟩
    case isFalse htrue =>
      split
      case isTrue h => exact .inr ⟨Setting.fault?_of_mem (hwords.mpr (.inr h)), _, rfl⟩
      case isFalse hfalse =>
        refine .inl ⟨_, Setting.fault?_of_notMem ?_, rfl⟩
        exact fun h => (hwords.mp h).elim htrue hfalse

/-- **What an environment and flags lead to**: the fault of the environment, or else what the
variables say and behind it what the flags say. -/
theorem resolve_cases (environment : String → Option String) (o : Overrides) :
    (∃ e, firstFault? environment = some e ∧ resolve environment o = .error e)
      ∨ (firstFault? environment = none
        ∧ ∃ a b, policyOf (environment unknownConstructorsVariable) = .ok a
          ∧ bytecodeOf (environment noBytecodeVariable) = .ok b
          ∧ resolve environment o = .ok (withOverrides ⟨a, b⟩ o)) := by
  unfold firstFault? resolve
  rw [withEnvironment_defaults]
  rcases policyOf_cases (environment unknownConstructorsVariable) with
    ⟨e, hfault, ha⟩ | ⟨hfault, a, ha⟩
  · rw [hfault, ha]
    exact .inl ⟨e, rfl, rfl⟩
  · rw [hfault, ha]
    rcases bytecodeOf_cases (environment noBytecodeVariable) with ⟨e, hfault, hb⟩ | ⟨hfault, b, hb⟩
    · rw [hfault, hb]
      exact .inl ⟨e, rfl, rfl⟩
    · rw [hfault, hb]
      exact .inr ⟨rfl, a, b, rfl, rfl, rfl⟩

/-- **An error is the fault of the environment**, whatever flags there are. -/
theorem resolve_eq_error_iff {e : SettingError} :
    resolve environment o = .error e ↔ firstFault? environment = some e := by
  rcases resolve_cases environment o with ⟨e', hfault, h⟩ | ⟨hfault, a, b, -, -, h⟩
  · rw [hfault, h, Except.error.injEq, Option.some.injEq]
  · rw [hfault, h]
    exact iff_of_false (fun h => by cases h) (fun h => by cases h)

/-! ## Flags -/

/-- **A flag overrides the variable of its setting** if there is no fault: with the flag given,
environments that differ in that variable only lead to the same settings. -/
theorem resolve_eq_of_firstFault?_eq_none (s : Setting) (ho : s.IsFlagged o)
    (hsame : ∀ name, name ≠ s.variableName → environment name = environment' name)
    (h : firstFault? environment = none) (h' : firstFault? environment' = none) :
    resolve environment o = resolve environment' o := by
  rcases resolve_cases environment o with ⟨e, hfault, -⟩ | ⟨-, a, b, ha, hb, hresolve⟩
  · rw [hfault] at h
    cases h
  rcases resolve_cases environment' o with ⟨e, hfault, -⟩ | ⟨-, a', b', ha', hb', hresolve'⟩
  · rw [hfault] at h'
    cases h'
  rw [hresolve, hresolve']
  cases s with
  | unknownConstructors =>
    rw [hsame noBytecodeVariable (by decide), hb'] at hb
    obtain rfl : b' = b := Except.ok.inj hb
    rw [withOverrides_of_policy ho a a']
  | readBytecode =>
    rw [hsame unknownConstructorsVariable (by decide), ha'] at ha
    obtain rfl : a' = a := Except.ok.inj ha
    rw [withOverrides_of_noBytecode ho a' b b']

/-- The fault of one variable is all that environments can differ in which differ in that
variable only. -/
theorem firstFault?_eq_of_fault?_eq (s : Setting)
    (hsame : ∀ name, name ≠ s.variableName → environment name = environment' name)
    (h : s.fault? (environment s.variableName) = s.fault? (environment' s.variableName)) :
    firstFault? environment = firstFault? environment' := by
  unfold firstFault?
  cases s with
  | unknownConstructors =>
    rw [hsame noBytecodeVariable (by decide)]
    exact congrArg (Option.or · _) h
  | readBytecode =>
    rw [hsame unknownConstructorsVariable (by decide)]
    exact congrArg (Option.or _) h

/-- **What a flag overrides.** Two environments differ in the variable of one setting only, and the
flag of that setting is given. If the variable has no wrong value in either of them – if it is
missing, or has one of the words that it takes – they lead to the same settings, from the same
layers, or to the same error. In general they do so exactly if they have the same fault; and a
fault is an error whatever flags are given, so a wrong value in the variable is not overridden. -/
theorem resolve_masked (s : Setting) (ho : s.IsFlagged o)
    (hsame : ∀ name, name ≠ s.variableName → environment name = environment' name) :
    (s.fault? (environment s.variableName) = none →
        s.fault? (environment' s.variableName) = none →
        resolve environment o = resolve environment' o)
      ∧ (resolve environment o = resolve environment' o
          ↔ firstFault? environment = firstFault? environment')
      ∧ ∀ e, resolve environment o = .error e ↔ firstFault? environment = some e := by
  have hiff : resolve environment o = resolve environment' o
      ↔ firstFault? environment = firstFault? environment' := by
    constructor
    · intro h
      refine Option.ext (fun e => ?_)
      rw [← resolve_eq_error_iff (o := o), ← resolve_eq_error_iff (o := o), h]
    · intro h
      cases hfault : firstFault? environment with
      | none => exact resolve_eq_of_firstFault?_eq_none s ho hsame hfault (h ▸ hfault)
      | some e =>
        rw [resolve_eq_error_iff.mpr hfault, resolve_eq_error_iff.mpr (h ▸ hfault)]
  refine ⟨fun h h' => ?_, hiff, fun e => resolve_eq_error_iff⟩
  exact hiff.mpr (firstFault?_eq_of_fault?_eq s hsame (h.trans h'.symm))

/-- An environment in which one variable has a value and nothing else has. -/
def only (name text : String) : String → Option String := fun n =>
  if n = name then some text else none

/-- The flag for the policy overrides a variable that is set and one that is not. -/
theorem resolve_masked_policy :
    Setting.unknownConstructors.IsFlagged ⟨some .suppress, false⟩
    ∧ (∀ name, name ≠ Setting.unknownConstructors.variableName →
        only unknownConstructorsVariable " Synthesize" name = none)
    ∧ resolve (only unknownConstructorsVariable " Synthesize") ⟨some .suppress, false⟩
        = resolve (fun _ => none) ⟨some .suppress, false⟩ := by
  have hflag : Setting.unknownConstructors.IsFlagged ⟨some .suppress, false⟩ := nofun
  have hsame : ∀ name, name ≠ Setting.unknownConstructors.variableName →
      only unknownConstructorsVariable " Synthesize" name = none := fun name hname => if_neg hname
  exact ⟨hflag, hsame, (resolve_masked .unknownConstructors hflag hsame).1
    (by decide +kernel) rfl⟩

/-- **A value that cannot be read is not overridden**, though the flag of its setting is given. -/
theorem wrong_value_not_masked :
    Setting.unknownConstructors.IsFlagged ⟨some .suppress, false⟩
    ∧ (∀ name, name ≠ Setting.unknownConstructors.variableName →
        only unknownConstructorsVariable "maybe" name = none)
    ∧ resolve (only unknownConstructorsVariable "maybe") ⟨some .suppress, false⟩
        = .error ⟨unknownConstructorsVariable, "maybe", "suppress or synthesize"⟩
    ∧ resolve (fun _ => none) ⟨some .suppress, false⟩
        = .ok ⟨⟨.suppress, .flag⟩, ⟨true, .default⟩⟩ :=
  ⟨nofun, fun _ hname => if_neg hname, resolve_eq_error_iff.mpr (by decide +kernel), rfl⟩

end LayeredSettings

end AnnotationPlan
