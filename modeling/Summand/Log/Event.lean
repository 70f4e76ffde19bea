import Summand.Text.Numeral
import Summand.Token.Kind

/-! The program accounts for its work in events. An event says what happened
in domain terms; severity, source, wording and fields follow from it. -/
namespace Summand

/-- How severe an event is, the most severe first. -/
inductive Level where
  | error
  | warn
  | info
  | debug
  | trace
  deriving Repr, DecidableEq

namespace Level

/-- The name of a level in a log line. -/
def name : Level → String
  | error => "ERROR"
  | warn => "WARN"
  | info => "INFO"
  | debug => "DEBUG"
  | trace => "TRACE"

/-- A level's place in the order of severity. -/
def rank : Level → Nat
  | error => 1
  | warn => 2
  | info => 3
  | debug => 4
  | trace => 5

/-- Whether a level is as severe as another one, or more. -/
def isWithin (level most : Level) : Bool :=
  level.rank ≤ most.rank

/-- Every level once, the most severe first. -/
def all : List Level :=
  [error, warn, info, debug, trace]

/-- The level of a given name. -/
def ofName? (text : String) : Option Level :=
  all.find? (·.name = text)

end Level

/-- Something that happened while a source was read or a session ran. -/
inductive Event where
  /-- A number token has no readable value and counts as zero. -/
  | malformedNumber (text : String) (position : Nat)
  /-- A token was taken off the source, the end of file included. -/
  | lexedToken (kind : Kind) (position : Nat)
  /-- The tokens the grammar cares about were collected. -/
  | bufferedTokens (count : Nat)
  /-- A placeholder was put in for a token that is not there. -/
  | missingToken (expected found : Kind) (index : Nat)
  /-- A session ended because there was nothing more to read. -/
  | endOfInput
  deriving Repr, DecidableEq

/-- The content of an event's field. -/
inductive Field where
  | number (value : Nat)
  | text (value : String)
  deriving Repr, DecidableEq

/-- A field's content as it stands in a log line. -/
def Field.render : Field → String
  | number value => Numeral.write value
  | text value => value

namespace Event

/-- The severity of an event. -/
def level : Event → Level
  | malformedNumber .. => .warn
  | lexedToken .. => .trace
  | bufferedTokens .. => .debug
  | missingToken .. => .debug
  | endOfInput => .debug

/-- The part of the program an event comes from. -/
def target : Event → String
  | malformedNumber .. => "ttc::parser::lexer"
  | lexedToken .. => "ttc::parser::lexer"
  | bufferedTokens .. => "ttc::parser::parse"
  | missingToken .. => "ttc::parser::parse"
  | endOfInput => "ttc::ui::app"

/-- The wording of an event. -/
def message : Event → String
  | malformedNumber .. => "number literal is not a valid i32, using 0"
  | lexedToken .. => "lexed token"
  | bufferedTokens .. => "buffered tokens"
  | missingToken .. => "inserting missing token"
  | endOfInput => "end of input"

/-- The named fields of an event, in the order a log line lists them. -/
def fields : Event → List (String × Field)
  | malformedNumber text position => [("text", .text text), ("position", .number position)]
  | lexedToken kind position => [("kind", .text kind.name), ("position", .number position)]
  | bufferedTokens count => [("count", .number count)]
  | missingToken expected found index =>
    [("expected", .text expected.name), ("found", .text found.name), ("index", .number index)]
  | endOfInput => []

/-- The names that an event's contents go by. The wording is one of them. -/
def fieldNames (event : Event) : List String :=
  "message" :: event.fields.map (·.1)

/-- The log line of an event, without a time. -/
def line (event : Event) : String :=
  let head := event.level.name ++ " " ++ event.target ++ ": " ++ event.message
  event.fields.foldl (fun text (name, field) => text ++ " " ++ name ++ "=" ++ field.render) head

end Event
end Summand
