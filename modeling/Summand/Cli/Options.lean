import Summand.Session.View
import Summand.Text.Printable

/-! Command lines are read from left to right, and the first error, or the
first wish for help or for the version, decides. An expression may follow its
option as the next argument; the option is settled only by what comes after
it, so that a missing value is noticed there. -/
namespace Summand.Cli

/-- What can be stated on a command line. -/
inductive Parameter where
  | tokens
  | expression
  | noColor
  | help
  | version
  deriving Repr, DecidableEq

namespace Parameter

/-- Every parameter once, in the order of the help text. -/
def all : List Parameter :=
  [tokens, expression, noColor, help, version]

/-- The long name, without its dashes. -/
def longName : Parameter → String
  | tokens => "tokens"
  | expression => "expression"
  | noColor => "no-color"
  | help => "help"
  | version => "version"

/-- The letter that a parameter goes by, if it has one. -/
def letter? : Parameter → Option Char
  | tokens => some 't'
  | expression => some 'x'
  | noColor => none
  | help => some 'h'
  | version => some 'V'

/-- How messages name a parameter: with its dashes, and with a stand-in for
its value. -/
def title : Parameter → String
  | expression => "--expression <EXPRESSION>"
  | parameter => "--" ++ parameter.longName

/-- The parameter of a long name. -/
def ofLongName? (name : List Char) : Option Parameter :=
  all.find? (·.longName.toList = name)

/-- The parameter of a letter. -/
def ofLetter? (letter : Char) : Option Parameter :=
  all.find? (·.letter? = some letter)

end Parameter

/-- Why a command line is refused. -/
inductive UsageError where
  /-- An argument that is not a known option. -/
  | unexpectedArgument (argument : String)
  /-- A value for a parameter that has none. -/
  | unexpectedValue (value : String) (parameter : Parameter)
  /-- A parameter without the value it needs. -/
  | missingValue (parameter : Parameter)
  /-- A parameter stated again. -/
  | repeated (parameter : Parameter)
  deriving Repr, DecidableEq

/-- The wording of a refusal. What was typed is quoted as far as a terminal
shows it, so that it cannot disturb the message. -/
def UsageError.message : UsageError → String
  | unexpectedArgument argument => "unexpected argument '" ++ printable argument ++ "' found"
  | unexpectedValue value parameter =>
    "unexpected value '" ++ printable value ++ "' for '" ++ parameter.title ++
      "' found; no more were expected"
  | missingValue parameter =>
    "a value is required for '" ++ parameter.title ++ "' but none was supplied"
  | repeated parameter =>
    "the argument '" ++ parameter.title ++ "' cannot be used multiple times"

/-- What a command line states about the work to do. -/
structure Options where
  tokens : Bool := false
  noColor : Bool := false
  expression : Option String := none
  deriving Repr, DecidableEq

/-- What a command line asks for. -/
inductive Command where
  | help
  | version
  | run (options : Options)
  deriving Repr, DecidableEq

namespace Options

/-- States the expression, which can be done once. -/
def setExpression (options : Options) (value : String) : Except UsageError Options :=
  if options.expression.isSome then .error (.repeated .expression)
  else .ok { options with expression := some value }

end Options

/-- A command line read so far. -/
structure Progress where
  options : Options := {}
  /-- An expression option that is not settled yet, with its value if that has
  followed. -/
  pending : Option (Option String) := none
  deriving Repr, DecidableEq

/-- Where reading stands after an argument: it goes on, or it is over. -/
inductive Step where
  | proceed (progress : Progress)
  | stop (command : Command)
  deriving Repr, DecidableEq

namespace Progress

/-- Settles an expression option that is still open. -/
def settle (progress : Progress) : Except UsageError Options :=
  match progress.pending with
  | none => .ok progress.options
  | some none => .error (.missingValue .expression)
  | some (some value) => progress.options.setExpression value

/-- Takes a parameter that comes without a value of its own. -/
def takeParameter (progress : Progress) (parameter : Parameter) : Except UsageError Step := do
  let options ← progress.settle
  match parameter with
  | .tokens =>
    if options.tokens then .error (.repeated .tokens)
    else .ok (.proceed { options := { options with tokens := true } })
  | .noColor =>
    if options.noColor then .error (.repeated .noColor)
    else .ok (.proceed { options := { options with noColor := true } })
  | .expression => .ok (.proceed { options, pending := some none })
  | .help => .ok (.stop .help)
  | .version => .ok (.stop .version)

/-- Takes a parameter together with a value that is attached to it. -/
def takeAttached (progress : Progress) (parameter : Parameter) (value : List Char) :
    Except UsageError Step :=
  match parameter with
  | .expression => do
    let options ← progress.settle
    return .proceed { options := ← options.setExpression (String.ofList value) }
  | parameter => .error (.unexpectedValue (String.ofList value) parameter)

/-- Takes a long option, given without its dashes. A value is attached by an
equals sign. -/
def takeLong (progress : Progress) (body : List Char) : Except UsageError Step :=
  let name := body.takeWhile (· != '=')
  match Parameter.ofLongName? name with
  | none => .error (.unexpectedArgument (String.ofList ('-' :: '-' :: name)))
  | some parameter =>
    match body.dropWhile (· != '=') with
    | [] => progress.takeParameter parameter
    | _ :: value => progress.takeAttached parameter value

/-- Takes a bundle of letters. What follows the letter of the expression is
its value, after one equals sign at most. -/
def takeLetters (progress : Progress) : List Char → Except UsageError Step
  | [] => .ok (.proceed progress)
  | letter :: rest =>
    match Parameter.ofLetter? letter, rest with
    | none, _ => .error (.unexpectedArgument (String.ofList ['-', letter]))
    | some .expression, '=' :: value => progress.takeAttached .expression value
    | some .expression, c :: value => progress.takeAttached .expression (c :: value)
    | some parameter, rest => do
      match ← progress.takeParameter parameter with
      | .proceed progress => progress.takeLetters rest
      | .stop command => .ok (.stop command)

/-- Takes an argument that is no option: the value of an expression option
that waits for one. -/
def takeWord (progress : Progress) (word : String) : Except UsageError Step :=
  match progress.pending with
  | some none => .ok (.proceed { progress with pending := some (some word) })
  | _ => .error (.unexpectedArgument word)

/-- Reads the arguments that are left. After a bare double dash none may
follow. -/
def finish (progress : Progress) : List String → Except UsageError Command
  | [] => do return .run (← progress.settle)
  | argument :: rest =>
    match argument.toList, rest with
    | ['-', '-'], [] => do return .run (← progress.settle)
    | ['-', '-'], extra :: _ => .error (.unexpectedArgument extra)
    | characters, rest => do
      let step ← match characters with
        | '-' :: '-' :: body => progress.takeLong body
        | '-' :: letter :: letters => progress.takeLetters (letter :: letters)
        | _ => progress.takeWord argument
      match step with
      | .proceed progress => progress.finish rest
      | .stop command => .ok command

end Progress

/-- What a command line, without the program's name, asks for. -/
def Command.ofArguments (arguments : List String) : Except UsageError Command :=
  Progress.finish {} arguments

/-- The view that options ask for. Color needs an output that can show it. -/
def Options.view (options : Options) (canColor : Bool) : View :=
  { mode := if options.tokens then .tokens else .tree
    color := !options.noColor && canColor }

end Summand.Cli
