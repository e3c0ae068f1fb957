import FaultSnapshot.Fault
import FaultSnapshot.Text.Blank

/-!
# Settings

How often reports may be made, in which format, and where they go. A zero window or a zero limit
turns throttling off.
-/

namespace FaultSnapshot

/-- The format of a report. -/
inductive Format
  | text
  | json
  deriving DecidableEq, Repr

/-- Where reports go. -/
inductive Sink
  | stdout
  | log
  | none
  deriving DecidableEq, Repr

namespace Format

/-- The name in settings. -/
def name : Format → String
  | text => "text"
  | json => "json"

def inspect : Format → String
  | text => "Text"
  | json => "Json"

/-- The format with exactly this name. -/
def ofName? : String → Option Format
  | "text" => some text
  | "json" => some json
  | _ => Option.none

/-- Reads a name; blanks around it and ASCII case do not count. -/
def read (s : String) : Except Fault Format :=
  let name := Text.asciiLower (Text.trim s)
  match ofName? name with
  | some format => .ok format
  | Option.none => .error (.unknownFormat name)

end Format

namespace Sink

/-- The name in settings. -/
def name : Sink → String
  | stdout => "stdout"
  | log => "log"
  | none => "none"

def inspect : Sink → String
  | stdout => "Stdout"
  | log => "Log"
  | none => "None"

/-- The sink with exactly this name. -/
def ofName? : String → Option Sink
  | "stdout" => some stdout
  | "log" => some log
  | "none" => some none
  | _ => Option.none

/-- Reads a name; blanks around it and ASCII case do not count. -/
def read (s : String) : Except Fault Sink :=
  let name := Text.asciiLower (Text.trim s)
  match ofName? name with
  | some sink => .ok sink
  | Option.none => .error (.unknownSink name)

end Sink

/-- What a tracer is assembled from. -/
structure Settings where
  windowMs : UInt64
  maxPerWindow : UInt32
  format : Format
  sink : Sink
  deriving DecidableEq, Repr

namespace Settings

/-- The length of a window when nothing else is set. -/
def defaultWindowMs : UInt64 := 1000

/-- The reports of a window when nothing else is set. -/
def defaultMaxPerWindow : UInt32 := 5

/-- The settings when nothing is set. -/
def standard : Settings := ⟨defaultWindowMs, defaultMaxPerWindow, .text, .stdout⟩

instance : Inhabited Settings := ⟨standard⟩

def withThrottle (s : Settings) (windowMs : UInt64) (maxPerWindow : UInt32) : Settings :=
  { s with windowMs, maxPerWindow }

def withFormat (s : Settings) (format : Format) : Settings := { s with format }

def withSink (s : Settings) (sink : Sink) : Settings := { s with sink }

/-- Every report is allowed. -/
def throttlingDisabled (s : Settings) : Bool := s.windowMs == 0 || s.maxPerWindow == 0

def inspect (s : Settings) : String :=
  "SnaperrConfig \x7b throttle_window_ms: " ++ toString s.windowMs ++ ", throttle_max_per_window: " ++
    toString s.maxPerWindow ++ ", format: " ++ s.format.inspect ++ ", sink: " ++ s.sink.inspect ++ " \x7d"

/-- One change to settings, with names as they were typed. -/
inductive Change
  | throttle (windowMs : UInt64) (maxPerWindow : UInt32)
  | format (name : String)
  | sink (name : String)

def apply (s : Settings) : Change → Except Fault Settings
  | .throttle windowMs maxPerWindow => .ok (s.withThrottle windowMs maxPerWindow)
  | .format name => (Format.read name).map s.withFormat
  | .sink name => (Sink.read name).map s.withSink

/-- Makes changes in order, up to the first that fails. -/
def build (changes : List Change) : Except Fault Settings := changes.foldlM apply standard

end Settings

end FaultSnapshot
