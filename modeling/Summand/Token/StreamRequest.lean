import Summand.Token.Stream

/-! One way of reading from a token stream, as a value, with what it answers.
A list of requests is a history of a stream. -/
namespace Summand.TokenStream

/-- A way of reading from a stream. -/
inductive Request where
  /-- The next token, which may be the end of file. -/
  | next
  /-- The next token, unless it is the end of file. -/
  | next?
  /-- The token after a number of others. -/
  | nth? (n : Nat)
  /-- At most a number of tokens. -/
  | take (n : Nat)
  /-- All tokens before the end of file. -/
  | drain
  /-- All tokens, the end of file included. -/
  | tokenize
  deriving Repr, DecidableEq

/-- What a request yields. -/
inductive Reply where
  | one (token : Token)
  | optional (token : Option Token)
  | many (tokens : List Token)
  deriving Repr, DecidableEq

/-- Carries out one request. -/
def answer (stream : TokenStream) : Request → Logged (Reply × TokenStream)
  | .next => do
    let (token, stream) ← stream.next
    pure (.one token, stream)
  | .next? => do
    let (token, stream) ← stream.next?
    pure (.optional token, stream)
  | .nth? n => do
    let (token, stream) ← stream.nth? n
    pure (.optional token, stream)
  | .take n => do
    let (tokens, stream) ← stream.take n
    pure (.many tokens, stream)
  | .drain => do
    let (tokens, stream) ← stream.drain
    pure (.many tokens, stream)
  | .tokenize => do
    let (tokens, stream) ← stream.tokenize
    pure (.many tokens, stream)

/-- Carries out requests one after another on one stream. -/
def answerAll (stream : TokenStream) : List Request → Logged (List Reply × TokenStream)
  | [] => pure ([], stream)
  | request :: requests => do
    let (reply, stream) ← stream.answer request
    let (replies, stream) ← stream.answerAll requests
    pure (reply :: replies, stream)

end Summand.TokenStream
