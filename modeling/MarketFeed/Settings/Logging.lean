/-!
Levels and ready-made settings of logging.
-/

namespace MarketFeed

inductive LogLevel where
  | trace
  | debug
  | info
  | warn
  | error
deriving DecidableEq, Repr

namespace LogLevel

def name : LogLevel → String
  | trace => "trace"
  | debug => "debug"
  | info => "info"
  | warn => "warn"
  | error => "error"

def table : List (String × LogLevel) :=
  [trace, debug, info, warn, error].map fun level => (level.name, level)

end LogLevel

inductive LogFormat where
  | pretty
  | compact
  | json
deriving DecidableEq, Repr

def LogFormat.name : LogFormat → String
  | pretty => "pretty"
  | compact => "compact"
  | json => "json"

structure Logging where
  level : LogLevel
  format : LogFormat
  showThreadIds : Bool
  showTarget : Bool
  showSpanEvents : Bool
deriving DecidableEq, Repr

namespace Logging

def standard : Logging := ⟨.info, .pretty, false, true, false⟩

/-- For working on an application: more is shown. -/
def development : Logging := { standard with level := .debug, showSpanEvents := true }

/-- For machines to read. -/
def production : Logging := { standard with format := .json, showThreadIds := true }

/-- For test runs: only what needs attention. -/
def test : Logging := { standard with level := .warn, format := .compact, showTarget := false }

def table : List (String × Logging) :=
  [("default", standard), ("development", development), ("production", production), ("test", test)]

end Logging

end MarketFeed
