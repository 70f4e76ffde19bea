import Summand.Token.Stream

/-! A token buffer holds the tokens of a source that the grammar cares about,
with a cursor. The end of file closes the buffer and answers every look past
it, so there is always a current token. The cursor may move past the end; it
only ever moves forward. -/
namespace Summand

/-- The tokens of a source without white space and bad tokens. `body` leaves
out the end of file, which is known from the length of the source. -/
structure TokenBuffer where
  body : Array Token
  sourceLength : Nat
  cursor : Nat
  deriving Repr, DecidableEq

/-- Why a look ahead has no answer. -/
inductive LookaheadError where
  /-- The index looked at is beyond 64 bits. -/
  | overflow
  deriving Repr, DecidableEq

/-- The wording of a failed look ahead. -/
def LookaheadError.message : LookaheadError → String
  | overflow => "attempt to add with overflow"

namespace TokenBuffer

/-- The greatest index a look ahead can name. -/
def indexLimit : Nat := UInt64.size - 1

/-- Collects the tokens of a source and reports how many there are. -/
def ofSource (source : String) : Logged TokenBuffer := do
  let (tokens, last) ← (TokenStream.ofSource source).drain
  let body := (tokens.filter (!·.kind.isTrivia)).toArray
  Logged.emit (.bufferedTokens (body.size + 1))
  pure { body, sourceLength := last.position, cursor := 0 }

/-- All tokens of the buffer, the end of file included. -/
def tokens (buffer : TokenBuffer) : List Token :=
  buffer.body.toList ++ [.endOfFile buffer.sourceLength]

/-- The token at an index, or the end of file beyond the last one. -/
def tokenAt (buffer : TokenBuffer) (index : Nat) : Token :=
  buffer.body[index]?.getD (.endOfFile buffer.sourceLength)

/-- The token a number of places after the current one. -/
def peek (buffer : TokenBuffer) (offset : Nat) : Except LookaheadError Token :=
  if buffer.cursor + offset ≤ indexLimit then .ok (buffer.tokenAt (buffer.cursor + offset))
  else .error .overflow

/-- The token under the cursor. -/
def current (buffer : TokenBuffer) : Token :=
  buffer.tokenAt buffer.cursor

/-- Moves the cursor one place on. -/
def advance (buffer : TokenBuffer) : TokenBuffer :=
  { buffer with cursor := buffer.cursor + 1 }

/-- Takes the current token if it is of the wanted kind. Otherwise the cursor
stays and a placeholder for the wanted token, with the cursor as its position,
is reported and handed out instead. -/
def expect (buffer : TokenBuffer) (kind : Kind) : Logged (Token × TokenBuffer) :=
  let token := buffer.current
  if token.kind = kind then
    pure (token, buffer.advance)
  else do
    Logged.emit (.missingToken kind token.kind buffer.cursor)
    pure (.placeholder kind buffer.cursor, buffer)

end TokenBuffer
end Summand
