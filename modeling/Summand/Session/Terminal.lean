import Summand.Console.Sink
import Summand.Log.Logged

/-! A session acts on a terminal: it writes to a sink, it reports events, and
it uses up input. What happened stays on record when the session fails. -/
namespace Summand

/-- What a session has done so far. -/
structure Terminal where
  output : Sink := {}
  log : Array Event := #[]
  /-- How many bytes of input have been used up. -/
  consumed : Nat := 0
  deriving Repr, DecidableEq

/-- A computation that talks to a terminal. -/
abbrev Session := EStateM IoError Terminal

namespace Session

/-- Writes to the terminal's sink. -/
def write (writing : Writing α) : Session α
  | { output, log, consumed } =>
    match writing output with
    | .ok value output => .ok value { output, log, consumed }
    | .error error output => .error error { output, log, consumed }

/-- Puts events on record. -/
def report (events : List Event) : Session Unit :=
  modify fun terminal => { terminal with log := terminal.log ++ events }

/-- Takes over the value of a logged computation and puts its events on
record. -/
def logged (computation : Logged α) : Session α := do
  report computation.events
  pure computation.value

/-- Uses up bytes of input. -/
def consume (count : Nat) : Session Unit :=
  modify fun terminal => { terminal with consumed := terminal.consumed + count }

end Session
end Summand
