import Summand.Console.Foreground
import Summand.Expr.Drawing
import Summand.Expr.Parsing
import Summand.Session.Input
import Summand.Session.Terminal

/-! A view shows lines, either as syntax trees or as token listings. Shown
line by line, each after a prompt, it makes a session: the prompt is written
and passed on before a line is read, and a blank line or the end of input
closes the session. -/
namespace Summand

/-- What is shown of a line. -/
inductive Mode where
  | tree
  | tokens
  deriving Repr, DecidableEq

/-- How lines are shown. Color is for trees alone. -/
structure View where
  mode : Mode := .tree
  color : Bool := false
  deriving Repr, DecidableEq

/-- Draws a tree. -/
def Writing.drawing (node : Node) : Writing Unit :=
  pieces node.drawing

/-- Lists the rest of a stream, one token a line, each as soon as it is read.
The end of file is not listed. -/
def Session.listStream (stream : TokenStream) : Session Unit := do
  let step := stream.next?
  report step.events
  match _ : step.value.1 with
  | none => pure ()
  | some token =>
    write (Writing.pieces (token.listing ++ ["\n"]))
    listStream step.value.2
termination_by stream.rest.length
decreasing_by exact TokenStream.next?_rest_length_lt ‹_›

/-- Lists the tokens of a source. -/
def Session.listTokens (source : String) : Session Unit :=
  listStream (.ofSource source)

namespace View

/-- What invites the user to type. -/
def prompt : String := "c[_] >> "

/-- The color trees are drawn in, if any. -/
def treeColor (view : View) : Option Color :=
  if view.color then some Color.tree else none

/-- Shows one line. -/
def evaluate (view : View) (line : String) : Session Unit :=
  match view.mode with
  | .tokens => Session.listTokens line
  | .tree => do
    let expr ← Session.logged (Expr.ofSource line)
    Session.write (Writing.withForeground view.treeColor (Writing.drawing (.expr expr)))

/-- Deals with a line as it was read, and tells whether the session goes on. A
line must be text as a whole; a blank line closes the session. -/
def respond (view : View) (bytes : List UInt8) : Session Bool :=
  match Utf8.decode? bytes with
  | none => throw .invalidUtf8
  | some line =>
    if isBlankText line then pure false
    else do
      view.evaluate (trimLineEnd line)
      pure true

/-- Asks for a line. -/
def invite : Session Unit :=
  Session.write do
    Writing.text prompt
    Writing.flush

/-- Shows the lines of the input, each after a prompt. -/
def run (view : View) (input : Input) : Session Unit := do
  invite
  match _ : input.readLine with
  | .line bytes rest =>
    Session.consume bytes.length
    if ← view.respond bytes then run view rest
  | .ended => Session.report [.endOfInput]
  | .failed count =>
    Session.consume count
    throw .readFailed
termination_by input.bytes.length
decreasing_by exact Input.length_lt_of_line ‹_›

end View
end Summand
