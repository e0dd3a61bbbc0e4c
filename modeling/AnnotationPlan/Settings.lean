import AnnotationPlan.Synthesis.Constructors
import AnnotationPlan.Text.Blank

/-!
# Where settings come from

Every setting has a default, may be set by an environment variable, and may be set
by a flag of the command line; the later of these **layers** wins. The text of an
environment variable is read without the blanks around it and without regard to the
case of its ASCII letters.

Both variables are read before any flag is looked at, so a wrong value stops the
program even if a flag would override it.
-/

namespace AnnotationPlan

/-- **Where a value comes from.** -/
inductive Layer where
  /-- It is the default. -/
  | default
  /-- An environment variable sets it. -/
  | environment
  /-- A flag sets it. -/
  | flag
deriving DecidableEq

/-- The precedence of a layer. -/
def Layer.rank : Layer → Nat
  | .default => 0
  | .environment => 1
  | .flag => 2

/-- **A value and where it comes from.** -/
structure Layered (α : Type) where
  /-- The value. -/
  value : α
  /-- Where it comes from. -/
  layer : Layer
deriving DecidableEq

/-- **Of two values the one of the later layer**; within one layer the second. -/
def Layered.merge {α : Type} (first second : Layered α) : Layered α :=
  if first.layer.rank ≤ second.layer.rank then second else first

/-- **A text that is no value of a setting.** -/
structure SettingError where
  /-- The setting. -/
  setting : String
  /-- The text. -/
  value : String
  /-- What is expected. -/
  expected : String
deriving DecidableEq

/-- The text that reports a wrong value. -/
def SettingError.message (e : SettingError) : String :=
  "invalid value '" ++ e.value ++ "' for " ++ e.setting ++ ": expected " ++ e.expected

/-- A text as settings are compared: trimmed, with small ASCII letters. -/
def settingWord (s : String) : String :=
  String.ofList ((Text.trimChars s.toList).map Char.toLower)

namespace UnknownConstructors

/-- The name of a policy. -/
def name : UnknownConstructors → String
  | .suppress => "suppress"
  | .synthesize => "synthesize"

/-- **Read a text as a policy**, for the setting with the given name. -/
def parse (setting s : String) : Except SettingError UnknownConstructors :=
  match settingWord s with
  | "suppress" => .ok .suppress
  | "synthesize" => .ok .synthesize
  | _ => .error ⟨setting, s, "suppress or synthesize"⟩

/-- What the setting is called where it is given as a flag. -/
def flagName : String := "unknown-constructors"

end UnknownConstructors

/-- **Read a text as a truth value**, for the setting with the given name. -/
def parseFlag (setting s : String) : Except SettingError Bool :=
  if settingWord s ∈ ["1", "true", "yes", "on"] then .ok true
  else if settingWord s ∈ ["0", "false", "no", "off", ""] then .ok false
  else .error ⟨setting, s, "a boolean (1/0, true/false, yes/no, on/off)"⟩

/-- What the command line sets. -/
structure Overrides where
  /-- The policy for constructors of which nothing is known. -/
  unknownConstructors : Option UnknownConstructors := none
  /-- Whether compiled classes must not be consulted. -/
  noBytecode : Bool := false

/-- **The settings of a run, and where they come from.** -/
structure LayeredSettings where
  /-- The policy for constructors of which nothing is known. -/
  unknownConstructors : Layered UnknownConstructors
  /-- Whether compiled classes are consulted. -/
  readBytecode : Layered Bool
deriving DecidableEq

namespace LayeredSettings

/-- The variable for the policy. -/
def unknownConstructorsVariable : String := "ANNINSERT_UNKNOWN_CONSTRUCTORS"

/-- The variable that keeps compiled classes from being consulted. -/
def noBytecodeVariable : String := "ANNINSERT_NO_BYTECODE"

/-- The defaults. -/
def defaults : LayeredSettings :=
  let s : Settings := {}
  ⟨⟨s.unknownConstructors, .default⟩, ⟨s.readBytecode, .default⟩⟩

/-- The settings after the environment variables. -/
def withEnvironment (s : LayeredSettings) (environment : String → Option String) :
    Except SettingError LayeredSettings := do
  let unknownConstructors ← match environment unknownConstructorsVariable with
    | none => pure s.unknownConstructors
    | some text => do
      let policy ← UnknownConstructors.parse unknownConstructorsVariable text
      pure (s.unknownConstructors.merge ⟨policy, .environment⟩)
  let readBytecode ← match environment noBytecodeVariable with
    | none => pure s.readBytecode
    | some text => do
      let noBytecode ← parseFlag noBytecodeVariable text
      pure (s.readBytecode.merge ⟨!noBytecode, .environment⟩)
  pure ⟨unknownConstructors, readBytecode⟩

/-- The settings after the flags. -/
def withOverrides (s : LayeredSettings) (o : Overrides) : LayeredSettings :=
  ⟨match o.unknownConstructors with
    | none => s.unknownConstructors
    | some policy => s.unknownConstructors.merge ⟨policy, .flag⟩,
    if o.noBytecode then s.readBytecode.merge ⟨false, .flag⟩ else s.readBytecode⟩

/-- **The settings that an environment and flags lead to.** -/
def resolve (environment : String → Option String) (o : Overrides) :
    Except SettingError LayeredSettings := do
  let s ← defaults.withEnvironment environment
  pure (s.withOverrides o)

/-- The settings alone. -/
def plain (s : LayeredSettings) : Settings :=
  ⟨s.unknownConstructors.value, s.readBytecode.value⟩

end LayeredSettings

end AnnotationPlan
