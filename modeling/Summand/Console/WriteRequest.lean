import Summand.Console.Foreground

/-! One call on a sink, as a value, with what it answers. A list of requests
goes on after a failed one. -/
namespace Summand.Writing

/-- A call on a sink. -/
inductive Request where
  /-- Offer bytes once. -/
  | write (bytes : List UInt8)
  /-- Write all bytes. -/
  | writeAll (bytes : List UInt8)
  /-- Pass on what was taken. -/
  | flush
  deriving Repr, DecidableEq

/-- What a request yields. -/
inductive Reply where
  | count (taken : Nat)
  | done
  | failed (error : IoError)
  deriving Repr, DecidableEq

/-- Carries out a request. An error is an answer as well. -/
def answer (request : Request) : Writing Reply := do
  let outcome ← attempt <| match request with
    | .write bytes => Reply.count <$> write bytes
    | .writeAll bytes => do writeAll bytes; pure .done
    | .flush => do flush; pure .done
  match outcome with
  | .ok reply => pure reply
  | .error error => pure (.failed error)

/-- Carries out requests one after another. Each reply comes with how many
bytes had been taken after it. -/
def answerAll : List Request → Writing (List (Reply × Nat))
  | [] => pure []
  | request :: requests => do
    let reply ← answer request
    let length ← written
    let replies ← answerAll requests
    pure ((reply, length) :: replies)

/-- Carries out requests with a foreground color, after a note of how many
bytes had been taken once the color was set. -/
def answerColored (color : Option Color) (requests : List Request) :
    Writing (Nat × List (Reply × Nat)) :=
  withForeground color do
    let length ← written
    let replies ← answerAll requests
    pure (length, replies)

end Summand.Writing
