import Summand.Expr
import Summand.Token.Buffer

/-! A sum is read off a token buffer: an operand, then any number of additive
operators, each with its operand. An operand is a number. Operators fold to
the left. Reading never fails: a missing operand becomes a placeholder, and
any other token ends the sum and stays in the buffer. -/
namespace Summand.TokenBuffer

/-- Reads one operand. -/
def operand (buffer : TokenBuffer) : Logged (Expr × TokenBuffer) := do
  let (token, buffer) ← buffer.expect .number
  pure (.number token, buffer)

/-- How many tokens are left before the end of file. -/
def remaining (buffer : TokenBuffer) : Nat :=
  buffer.body.size - buffer.cursor

theorem cursor_lt_of_isAdditive {buffer : TokenBuffer}
    (additive : buffer.current.kind.isAdditive = true) : buffer.cursor < buffer.body.size := by
  by_cases inside : buffer.cursor < buffer.body.size
  · exact inside
  · simp [current, tokenAt, inside, Token.endOfFile, Kind.isAdditive] at additive

theorem remaining_advance_lt {buffer : TokenBuffer}
    (additive : buffer.current.kind.isAdditive = true) :
    buffer.advance.remaining < buffer.remaining := by
  have inside := cursor_lt_of_isAdditive additive
  simp only [remaining, advance]
  omega

theorem remaining_operand_le (buffer : TokenBuffer) :
    buffer.operand.value.2.remaining ≤ buffer.remaining := by
  simp only [operand, expect, bind, pure]
  split
  · simp only [remaining, advance]
    omega
  · exact Nat.le_refl _

/-- Extends a sum by the operators and operands that follow it. -/
def extendSum (left : Expr) (buffer : TokenBuffer) : Logged (Expr × TokenBuffer) :=
  if _ : buffer.current.kind.isAdditive then
    let right := buffer.advance.operand
    let rest := extendSum (.binary left buffer.current right.value.1) right.value.2
    ⟨rest.value, right.events ++ rest.events⟩
  else
    pure (left, buffer)
termination_by buffer.remaining
decreasing_by exact Nat.lt_of_le_of_lt (remaining_operand_le _) (remaining_advance_lt ‹_›)

/-- Reads a sum from the cursor on. -/
def parse (buffer : TokenBuffer) : Logged (Expr × TokenBuffer) := do
  let (left, buffer) ← buffer.operand
  extendSum left buffer

end Summand.TokenBuffer

namespace Summand.Expr

/-- The syntax tree of a source. -/
def ofSource (source : String) : Logged Expr := do
  let buffer ← TokenBuffer.ofSource source
  let (expr, _) ← buffer.parse
  pure expr

end Summand.Expr
