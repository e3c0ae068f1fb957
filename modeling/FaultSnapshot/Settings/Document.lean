import FaultSnapshot.Json.Printer
import FaultSnapshot.Json.Reader
import FaultSnapshot.Settings

/-!
# Settings as JSON

Settings are written as an object of four members. They are read from an object with these members
in any order among others, or from an array of the four values.
-/

namespace FaultSnapshot.Settings

def fieldNames : List String := ["throttle_window_ms", "throttle_max_per_window", "format", "sink"]

def toJson (s : Settings) : Json :=
  .ofMembers [("throttle_window_ms", .ofNat s.windowMs.toNat), ("throttle_max_per_window", .ofNat s.maxPerWindow.toNat),
    ("format", .ofString s.format.name), ("sink", .ofString s.sink.name)]

def compact (s : Settings) : String := s.toJson.compactText

def ofJson? (j : Json) : Option Settings :=
  match j.fields? fieldNames with
  | some [some window, some limit, some format, some sink] => do
    return {
      windowMs := UInt64.ofNat (← window.nat? (UInt64.size - 1))
      maxPerWindow := UInt32.ofNat (← limit.nat? (UInt32.size - 1))
      format := ← Format.ofName? (← format.name?)
      sink := ← Sink.ofName? (← sink.name?) }
  | _ => none

/-- The settings of a JSON text. -/
def read? (s : String) : Option Settings := Json.read? s >>= ofJson?

end FaultSnapshot.Settings
