import Summand.Log.Logged
import Summand.Token

/-! A source is read as a stream of tokens. A token takes the longest run of
characters that belong together: numerals join into one number, white space
into one gap, and any other character stands alone. Every character belongs to
some token, so reading never fails, and each token makes the stream shorter
until only the end of file is left. Each token read is reported, the end of
file included, every time it is read. -/
namespace Summand

/-- Whether two neighbouring characters belong to one token. -/
def fuses (first second : Char) : Bool :=
  (isNumeric first && isNumeric second) || (isBlank first && isBlank second)

/-- The value of a run of numerals. A run that cannot be read counts as zero
and is reported. -/
def numberValue (position : Nat) (digits : List Char) : Logged Nat :=
  match Numeral.read? digits with
  | some value => pure value
  | none => do
    Logged.emit (.malformedNumber (String.ofList digits) position)
    pure 0

/-- The token that a run of characters makes. Only numbers have a value. -/
def Token.ofRun (kind : Kind) (position : Nat) (run : List Char) : Logged Token := do
  let text := some (String.ofList run)
  if kind = .number then
    let value ← numberValue position run
    pure { kind, position, text, value := some value }
  else
    pure { kind, position, text, value := none }

/-- What is left of a source: the characters not read yet, and how many were
read before them. -/
structure TokenStream where
  position : Nat
  rest : List Char
  deriving Repr, DecidableEq

namespace TokenStream

/-- The stream of a whole source. -/
def ofSource (source : String) : TokenStream :=
  { position := 0, rest := source.toList }

/-- Takes the token in front without reporting it. At the end the stream
stays as it is. -/
def scan (stream : TokenStream) : Logged (Token × TokenStream) :=
  match stream.rest with
  | [] => pure (.endOfFile stream.position, stream)
  | c :: rest => do
    let run := c :: rest.takeWhile (fuses c)
    let token ← Token.ofRun (.ofChar c) stream.position run
    pure (token, { position := stream.position + run.length, rest := rest.dropWhile (fuses c) })

/-- Reads the next token. The end of file can be read any number of times. -/
def next (stream : TokenStream) : Logged (Token × TokenStream) := do
  let (token, stream) ← stream.scan
  Logged.emit (.lexedToken token.kind token.position)
  pure (token, stream)

/-- Reads the next token, unless it is the end of file. -/
def next? (stream : TokenStream) : Logged (Option Token × TokenStream) := do
  let (token, stream) ← stream.next
  pure (if token.kind = .endOfFile then none else some token, stream)

/-- Skips up to a number of tokens and reads the one after them. -/
def nth? : Nat → TokenStream → Logged (Option Token × TokenStream)
  | 0, stream => stream.next?
  | n + 1, stream => do
    let (token?, stream) ← stream.next?
    match token? with
    | none => pure (none, stream)
    | some _ => stream.nth? n

/-- Reads at most a number of tokens. Once that many are read, or the end is
reached, nothing more is taken off the stream. -/
def take : Nat → TokenStream → Logged (List Token × TokenStream)
  | 0, stream => pure ([], stream)
  | n + 1, stream => do
    let (token?, stream) ← stream.next?
    match token? with
    | none => pure ([], stream)
    | some token => do
      let (tokens, stream) ← stream.take n
      pure (token :: tokens, stream)

theorem next?_rest_length_lt {stream : TokenStream} {token : Token}
    (read : stream.next?.value.1 = some token) :
    stream.next?.value.2.rest.length < stream.rest.length := by
  obtain ⟨position, rest⟩ := stream
  cases rest with
  | nil => simp [next?, next, scan, bind, pure, Token.endOfFile] at read
  | cons c rest =>
    have shorter : (rest.dropWhile (fuses c)).length ≤ rest.length :=
      (List.dropWhile_sublist _).length_le
    simp only [next?, next, scan, bind, pure, List.length_cons]
    omega

/-- Reads all tokens before the end of file. -/
def drain (stream : TokenStream) : Logged (List Token × TokenStream) :=
  let step := stream.next?
  match _ : step.value.1 with
  | none => ⟨([], step.value.2), step.events⟩
  | some token =>
    let later := step.value.2.drain
    ⟨(token :: later.value.1, later.value.2), step.events ++ later.events⟩
termination_by stream.rest.length
decreasing_by exact next?_rest_length_lt ‹_›

/-- Reads all tokens, the end of file included. -/
def tokenize (stream : TokenStream) : Logged (List Token × TokenStream) := do
  let (tokens, stream) ← stream.drain
  pure (tokens ++ [.endOfFile stream.position], stream)

end TokenStream
end Summand
