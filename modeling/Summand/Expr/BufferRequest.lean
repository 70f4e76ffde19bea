import Summand.Expr.Parsing

/-! One call on a token buffer, as a value, with what it answers. A list of
requests is a history of a buffer. -/
namespace Summand.TokenBuffer

/-- A call on a buffer. -/
inductive Request where
  /-- All tokens of the buffer. -/
  | tokens
  /-- The token a number of places ahead. -/
  | peek (offset : Nat)
  /-- The token under the cursor. -/
  | current
  /-- The token under the cursor, moving on. -/
  | next
  /-- The token under the cursor if it is of a kind, else a placeholder. -/
  | expect (kind : Kind)
  /-- The sum that starts under the cursor. -/
  | parse
  deriving Repr, DecidableEq

/-- What a request yields. -/
inductive Reply where
  | all (tokens : List Token)
  | one (token : Token)
  | tree (expr : Expr)
  | failed (error : LookaheadError)
  deriving Repr, DecidableEq

/-- Carries out one request. A request that fails leaves the buffer alone. -/
def answer (buffer : TokenBuffer) : Request → Logged (Reply × TokenBuffer)
  | .tokens => pure (.all buffer.tokens, buffer)
  | .peek offset =>
    match buffer.peek offset with
    | .ok token => pure (.one token, buffer)
    | .error error => pure (.failed error, buffer)
  | .current => pure (.one buffer.current, buffer)
  | .next => pure (.one buffer.current, buffer.advance)
  | .expect kind => do
    let (token, buffer) ← buffer.expect kind
    pure (.one token, buffer)
  | .parse => do
    let (expr, buffer) ← buffer.parse
    pure (.tree expr, buffer)

/-- Carries out requests one after another. Each reply comes with the token
that is current after it. -/
def answerAll (buffer : TokenBuffer) : List Request → Logged (List (Reply × Token) × TokenBuffer)
  | [] => pure ([], buffer)
  | request :: requests => do
    let (reply, buffer) ← buffer.answer request
    let (replies, last) ← buffer.answerAll requests
    pure ((reply, buffer.current) :: replies, last)

end Summand.TokenBuffer
