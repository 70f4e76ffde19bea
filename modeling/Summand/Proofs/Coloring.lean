import Summand.Console.WriteRequest
import Summand.Proofs.Evaluation

/-! A color that was set is taken back, however the writing in between ends.
When the sequence that sets the color does not get through, nothing is done any
more. Otherwise one reset and one flush follow the colored text, whether it was
written in full or cut, and what becomes of them is no part of the outcome. -/
namespace Summand.Coloring
open Delivery Evaluation Writing

/-- The bytes that set a color. -/
def escapeBytes (color : Color) : List UInt8 := color.escape.flatMap Utf8.encode

example : escapeBytes Color.tree = Utf8.encode "\x1b[38;5;10m" := by decide

/-- The bytes that take all colors back. -/
def resetBytes : List UInt8 := Utf8.encode Color.reset

/-- What a sink is asked to do once colored writing is over. -/
def closing : List Request := [.writeAll resetBytes, .flush]

variable {writing : Writing Unit} {color : Color} {bytes : List UInt8}
  {before painted drawn after : Sink} {result : Except IoError Unit}

/-- A computation that tells of an error as of any other reply. -/
def told (calling : Writing Reply) : Writing Reply := do
  match ← attempt calling with
  | .ok reply => pure reply
  | .error error => pure (.failed error)

/-- What closing does to a sink: one reset, as much of it as fits, and one flush. -/
structure Closes (drawn after : Sink) : Prop where
  asked : ∃ replies, answerAll closing drawn = .ok replies after
  calls : after.flushCalls = drawn.flushCalls + 1
  free : barrier drawn = none →
    after.accepted.toList = drawn.accepted.toList ++ resetBytes
  within : ∀ wall ∈ barrier drawn, after.accepted.toList =
    drawn.accepted.toList ++ resetBytes.take (wall.room drawn)

/-- How trees are shown in color. -/
def coloredTree : View := { mode := .tree, color := true }

end Summand.Coloring
