import Summand.Cli.Outcome

/-! The program on a real console. It carries out each step of a session on an
empty terminal and passes on at once what the step wrote and reported. -/
namespace Summand.Cli

/-- Carries out a step and passes on its output and its log. -/
def perform (filter : Filter) (step : Session α) : IO (Except IoError α) := do
  let (outcome, terminal) := match step {} with
    | .ok value terminal => (Except.ok value, terminal)
    | .error error terminal => (Except.error error, terminal)
  for event in terminal.log do
    if filter.passes event then (← IO.getStderr).putStrLn event.line
  let output ← IO.getStdout
  output.write ⟨terminal.output.accepted⟩
  output.flush
  return outcome

/-- Reads the bytes of a line, through its line feed. -/
partial def readLineBytes (input : IO.FS.Stream) (start : ByteArray) : IO ByteArray := do
  let next ← input.read 1
  let line := start ++ next
  if next.isEmpty || next.data.back? = some Input.lineFeed then return line
  else readLineBytes input line

/-- Says why a session failed. -/
def complain (error : IoError) : IO UInt32 := do
  (← IO.getStderr).putStrLn (errorReport error)
  return 1

/-- Shows the lines that are typed until one is blank or none is left. -/
partial def converse (view : View) (filter : Filter) : IO UInt32 := do
  match ← perform filter View.invite with
  | .error error => complain error
  | .ok () =>
    let line ← readLineBytes (← IO.getStdin) .empty
    if line.isEmpty then
      discard <| perform filter (Session.report [.endOfInput])
      return 0
    match ← perform filter (view.respond line.data.toList) with
    | .ok true => converse view filter
    | .ok false => return 0
    | .error error => complain error

/-- Does what the command line asks for, and tells the exit status. -/
def obey (arguments : List String) : IO UInt32 := do
  let output ← IO.getStdout
  match Command.ofArguments arguments with
  | .error error =>
    (← IO.getStderr).putStrLn error.report
    return 2
  | .ok .help => output.putStr helpText; return 0
  | .ok .version => output.putStr versionText; return 0
  | .ok (.run options) =>
    let view := options.view (← output.isTty)
    let setting := LogSetting.read (← IO.getEnv "RUST_LOG")
    setting.complaints.forM (← IO.getStderr).putStrLn
    if setting.aborted then
      (← IO.getStderr).putStrLn "\nthe log setting cannot be read"
      return 101
    match options.expression with
    | some expression =>
      match ← perform setting.filter (view.evaluate expression) with
      | .ok () => return 0
      | .error error => complain error
    | none => converse view setting.filter

end Summand.Cli

def main (arguments : List String) : IO UInt32 :=
  Summand.Cli.obey arguments
