import FaultSnapshot.Settings
import FaultSnapshot.Text.Numeral

/-!
# Settings from the environment

Each setting has a variable. The strict reading reports the first variable whose text is no value
of its setting; the lenient reading takes the standard value there. A variable that is not set, is
not text or is blank counts as missing in both.
-/

namespace FaultSnapshot

/-- The settings that have a variable, in the order in which they are read. -/
inductive Setting
  | window
  | limit
  | format
  | sink
  deriving DecidableEq, Repr

/-- The name of the variable. -/
def Setting.key : Setting → String
  | window => "SNAPERR_THROTTLE_WINDOW_MS"
  | limit => "SNAPERR_THROTTLE_MAX"
  | format => "SNAPERR_FORMAT"
  | sink => "SNAPERR_SINK"

/-- All settings, in the order in which they are read. -/
def Setting.all : List Setting := [.window, .limit, .format, .sink]

/-- What the environment holds under a name. -/
inductive Variable
  | unset
  | undecodable
  | text (value : String)
  deriving DecidableEq, Repr

namespace Variable

/-- The variable that holds these bytes. -/
def ofBytes (bytes : ByteArray) : Variable :=
  match String.fromUTF8? bytes with
  | some value => text value
  | none => undecodable

/-- The text of a variable that is set and is text. -/
def text? : Variable → Option String
  | text value => some value
  | _ => none

/-- The text of a variable that holds more than blanks. -/
def filled? (v : Variable) : Option String := v.text?.filter fun value => !Text.isBlankText value

end Variable

/-- The variables of all settings. -/
abbrev Environment := Setting → Variable

namespace Settings

/-- Reads a count of at most `bound`. A negative number means zero. -/
def readCount (bound : Nat) (key value : String) : Except Fault Nat :=
  let trimmed := Text.trimChars value.toList
  match Text.readUnsigned? bound trimmed with
  | some n => .ok n
  | none =>
    match Text.readSigned? trimmed with
    | some n => if n < 0 then .ok 0 else .error (.badCount key (String.ofList trimmed))
    | none => .error (.badCount key (String.ofList trimmed))

/-- Reads the length of the window. -/
def readWindow (value : String) : Except Fault UInt64 :=
  (readCount (UInt64.size - 1) Setting.window.key value).map UInt64.ofNat

/-- Reads the reports of a window. -/
def readLimit (value : String) : Except Fault UInt32 :=
  (readCount (UInt32.size - 1) Setting.limit.key value).map UInt32.ofNat

/-- The value read, or the standard one where there is no text. -/
def strictly {α : Type} (read : String → Except Fault α) (standard : α) : Option String → Except Fault α
  | some value => read value
  | none => .ok standard

/-- The value read, or the standard one where there is no text or no value. -/
def leniently {α : Type} (read : String → Except Fault α) (standard : α) : Option String → α
  | some value => (read value).toOption.getD standard
  | none => standard

/-- The settings of an environment, or what is wrong with the first variable that has no value. -/
def fromEnvironment (env : Environment) : Except Fault Settings := do
  let windowMs ← strictly readWindow standard.windowMs (env .window).filled?
  let maxPerWindow ← strictly readLimit standard.maxPerWindow (env .limit).filled?
  let format ← strictly Format.read standard.format (env .format).filled?
  let sink ← strictly Sink.read standard.sink (env .sink).filled?
  return { windowMs, maxPerWindow, format, sink }

/-- The settings of an environment, standard ones in place of variables that have no value. -/
def ofEnvironment (env : Environment) : Settings where
  windowMs := leniently readWindow standard.windowMs (env .window).text?
  maxPerWindow := leniently readLimit standard.maxPerWindow (env .limit).text?
  format := leniently Format.read standard.format (env .format).text?
  sink := leniently Sink.read standard.sink (env .sink).text?

end Settings

end FaultSnapshot
