import Summand.Cli.Options
import Summand.Log.Filter

/-! The whole program as a function: from the arguments, the bytes on standard
input and the log setting to the exit status, the bytes on standard output,
the message on standard error and the log. -/
namespace Summand.Cli

/-- What a run of the program leaves behind. -/
structure Outcome where
  exit : Nat
  output : List UInt8
  /-- What is said on standard error, besides the log. -/
  complaints : List String := []
  log : List String := []
  deriving Repr, DecidableEq

/-- The text that is shown when help is asked for. -/
def helpText : String :=
  String.join <| List.map (· ++ "\n")
    ["An interactive lexer and parse-tree printer for additive integer expressions",
     "",
     "Usage: ttc [OPTIONS]",
     "",
     "Options:",
     "  -t, --tokens                   Print the tokens of each line instead of its syntax tree",
     "  -x, --expression <EXPRESSION>  Process a single expression and exit instead of prompting",
     "      --no-color                 Never color the output",
     "  -h, --help                     Print help",
     "  -V, --version                  Print version"]

/-- The text that is shown when the version is asked for. -/
def versionText : String :=
  "ttc 0.1.0\n"

/-- How a refused command line is reported. -/
def UsageError.report (error : UsageError) : String :=
  "error: " ++ error.message

/-- How a failed session is reported. -/
def errorReport (error : IoError) : String :=
  "Error: Error \x7b kind: " ++ error.category.name ++ ", message: \"" ++ error.message ++ "\" \x7d"

/-- The session that options ask for: an expression is shown as it is, and
without one the lines of the input are shown. -/
def Options.session (options : Options) (canColor : Bool) (input : Input) : Session Unit :=
  let view := options.view canColor
  match options.expression with
  | some expression => view.evaluate expression
  | none => view.run input

/-- What a session leaves behind, under a log setting. -/
def Outcome.ofSession (session : Session Unit) (setting : LogSetting) : Outcome :=
  let leave (terminal : Terminal) (exit : Nat) (complaints : List String) : Outcome :=
    { exit
      output := terminal.output.accepted.toList
      complaints := setting.complaints ++ complaints
      log := (terminal.log.toList.filter setting.filter.passes).map Event.line }
  match session {} with
  | .ok () terminal => leave terminal 0 []
  | .error error terminal => leave terminal 1 [errorReport error]

/-- What is left behind when the log setting cannot be read to its end. A
blank line comes before the notice of it. -/
def Outcome.ofAborted (setting : LogSetting) : Outcome :=
  { exit := 101, output := [], complaints := setting.complaints ++ [""] }

/-- Runs the program. Standard output takes everything and shows no color. -/
def Outcome.ofArguments (arguments : List String) (input : List UInt8)
    (logSetting : Option String) : Outcome :=
  match Command.ofArguments arguments with
  | .error error => { exit := 2, output := [], complaints := [error.report] }
  | .ok .help => { exit := 0, output := Utf8.encode helpText }
  | .ok .version => { exit := 0, output := Utf8.encode versionText }
  | .ok (.run options) =>
    let setting := LogSetting.read logSetting
    if setting.aborted then .ofAborted setting
    else .ofSession (options.session false (.ofBytes input none)) setting

end Summand.Cli
