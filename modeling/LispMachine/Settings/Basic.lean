import LispMachine.Text.Blank
import LispMachine.Text.Quoted

/-!
The settings of a machine, and the three environment variables that override them. A flag in the
environment is a word for yes or no, with blanks around it and in any case.
-/

set_option autoImplicit false

namespace LispMachine

/-- How hard the compiler of native code tries. It has no effect on results. -/
inductive OptimizationLevel where
  | none
  | speed
  | speedAndSize
  deriving DecidableEq

/-- The name of a level in settings files. -/
def OptimizationLevel.name : OptimizationLevel → String
  | .none => "none"
  | .speed => "speed"
  | .speedAndSize => "speed_and_size"

/-- The level with a given name. -/
def OptimizationLevel.ofName? : String → Option OptimizationLevel
  | "none" => some .none
  | "speed" => some .speed
  | "speed_and_size" => some .speedAndSize
  | _ => Option.none

/-- What can be chosen about a machine. -/
structure Settings where
  /-- Compile every function before its first invocation. -/
  compileOnFirstCall : Bool := false
  /-- Check the operand stack before each instruction of a compiled function. -/
  safeStack : Bool := true
  /-- How deep applications may nest. -/
  maxEvalDepth : Nat := 800
  /-- How many allocations make a collection due. -/
  collectionThreshold : Nat := 10000
  optimization : OptimizationLevel := .speed
  /-- Count the opcodes that are interpreted. -/
  metering : Bool := false

/-- Why settings are refused. -/
inductive SettingsError where
  /-- The settings file is malformed or gives a setting the wrong kind of value. -/
  | malformed
  /-- An environment variable holds no word for yes or no. -/
  | notBoolean (name value : String)
  deriving DecidableEq

/-- The refusal of an environment variable in words. -/
def notBooleanMessage (name value : String) : String :=
  s!"{name} must be a boolean, got {quoted value}"

/-- The text without blanks at either end. -/
def trimBlanks (text : String) : String :=
  String.ofList
    ((text.toList.dropWhile isBlank).reverse.dropWhile isBlank).reverse

/-- What a flag says. The empty flag says no. -/
def parseFlag? (text : String) : Option Bool :=
  let word := String.ofList ((trimBlanks text).toList.map Char.toLower)
  if ["1", "true", "on", "yes"].contains word then some true
  else if ["0", "false", "off", "no", ""].contains word then some false
  else none

namespace Settings

/-- The flag in an environment variable, `none` when the variable is not set. -/
def flag? (environment : List (String × String)) (name : String) :
    Except SettingsError (Option Bool) :=
  match environment.lookup name with
  | none => .ok none
  | some value =>
    match parseFlag? value with
    | some on => .ok (some on)
    | none => .error (.notBoolean name value)

/-- The settings with what the environment overrides. -/
def override (settings : Settings) (environment : List (String × String)) :
    Except SettingsError Settings := do
  let compile ← flag? environment "BYTEVM_JIT"
  let safe ← flag? environment "BYTEVM_SAFE"
  let metering ← flag? environment "BYTEVM_METER"
  return { settings with
    compileOnFirstCall := compile.getD settings.compileOnFirstCall
    safeStack := safe.getD settings.safeStack
    metering := metering.getD settings.metering }

end Settings

end LispMachine
