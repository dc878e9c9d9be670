import LispMachine.Settings.Basic
import LispMachine.Toml.Document

/-!
Settings files. Every setting is optional and keys that are no settings are passed over, but a
setting must have the right kind of value.
-/

set_option autoImplicit false

namespace LispMachine

/-- Whether a value holds nothing. -/
def Toml.Value.isEmptyContainer : Toml.Value → Bool
  | .array [] | .inline [] | .table _ [] => true
  | _ => false

/-- The optimization level that a value names: by a string, or by the only key of a table, under
which nothing stands. -/
def OptimizationLevel.ofToml? : Toml.Value → Option OptimizationLevel
  | .string name => ofName? name
  | .inline [(name, value)] | .table _ [(name, value)] =>
    if value.isEmptyContainer then ofName? name else Option.none
  | _ => Option.none

namespace Settings

/-- The flag in a value. -/
def flagOf : Toml.Value → Except SettingsError Bool
  | .bool on => .ok on
  | _ => .error .malformed

/-- The number in a value. -/
def countOf : Toml.Value → Except SettingsError Nat
  | .int n => if 0 ≤ n then .ok n.toNat else .error .malformed
  | _ => .error .malformed

/-- The settings with one of them changed as a settings file says. -/
def assign (settings : Settings) (name : String) (value : Toml.Value) :
    Except SettingsError Settings :=
  match name with
  | "jit_on_first_call" => return { settings with compileOnFirstCall := ← flagOf value }
  | "safe_stack" => return { settings with safeStack := ← flagOf value }
  | "byte_metering" => return { settings with metering := ← flagOf value }
  | "max_lisp_eval_depth" => return { settings with maxEvalDepth := ← countOf value }
  | "gc_threshold" => return { settings with collectionThreshold := ← countOf value }
  | "opt_level" =>
    match OptimizationLevel.ofToml? value with
    | some level => .ok { settings with optimization := level }
    | none => .error .malformed
  | _ => .ok settings

/-- The settings that a file gives, over the default ones. -/
def ofText (text : String) : Except SettingsError Settings :=
  match Toml.parse? text with
  | none => .error .malformed
  | some fields => fields.foldlM (fun settings (name, value) => settings.assign name value) {}

end Settings

end LispMachine
