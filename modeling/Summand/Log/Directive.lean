import Summand.Log.Event
import Summand.Pattern
import Summand.Text.Alphabetic
import Summand.Text.Blank
import Summand.Text.Decimal
import Summand.Text.Parts
import Summand.Text.Utf8

/-! A directive sets the least severe level to be logged, for all events or
for those of a target and with a field. Its text is a level, or a target, a
span and a field in brackets, and a level after an equals sign, of which parts
may be left out.

White space around the text is passed over, but the places where its pieces
begin and end are counted in bytes without it. A directive that begins with
white space therefore has its pieces cut at other places than it seems. -/
namespace Summand

/-- A condition on the fields of an event or span. -/
structure FieldRule where
  name : String
  /-- What the field's value has to match. -/
  value : Option String
  deriving Repr, DecidableEq

/-- A rule on some events. `most` is the least severe level that is logged;
without it nothing is. -/
structure Directive where
  /-- What the targets concerned begin with. The empty text concerns all. -/
  target : String := ""
  /-- The span that an event has to lie in. -/
  span : Option String := none
  field : Option FieldRule := none
  most : Option Level := some .trace
  deriving Repr, DecidableEq

namespace Directive

/-- Why a text is not a directive. -/
inductive Fault where
  /-- Its pieces are not where they belong. -/
  | malformed
  /-- The word after the equals sign is no level. -/
  | unknownLevel
  /-- The value of the field is neither a number nor a usable pattern. -/
  | badPattern (fault : Pattern.Fault)
  /-- A piece would begin or end within a character. -/
  | splitCharacter
  deriving Repr, DecidableEq

/-- The wording of a fault. Cutting a character has none: the program ends. -/
def Fault.message? : Fault → Option String
  | malformed => some "invalid filter directive"
  | unknownLevel =>
    some ("error parsing level filter: expected one of \"off\", \"error\", \"warn\", \"info\", " ++
      "\"debug\", \"trace\", or a number 0-5")
  | badPattern .malformed => some "invalid field filter: error building NFA"
  | badPattern .wordBoundary =>
    some ("invalid field filter: unsupported regex feature for DFAs: " ++
      "cannot build DFAs for regexes with Unicode word boundaries; " ++
      "switch to ASCII word boundaries, or heuristically enable Unicode word boundaries " ++
      "or use a different regex engine")
  | splitCharacter => none

/-- The levels with the words that name them, each at the number that names it
as well. `off` logs nothing. -/
def levelWords : List (String × Option Level) :=
  [("off", none), ("error", some .error), ("warn", some .warn), ("info", some .info),
   ("debug", some .debug), ("trace", some .trace)]

/-- The number that some characters spell. A plus sign may stand before it. -/
def number? : List Char → Option Nat
  | '+' :: digits | digits => if digits.isEmpty then none else Numeral.read? digits

/-- The level that a number or a word names, the word in any case of letters. -/
def level? (word : String) : Option (Option Level) :=
  match number? word.toList with
  | some n => (levelWords.map (·.2))[n]?
  | none => levelWords.lookup word.toLower

/-- Reads the condition on a field: its name, and a value after an equals
sign. What follows a further equals sign does not count. -/
def readField (text : String) : Except Fault FieldRule :=
  match Parts.ofText '=' text with
  | name :: value :: _ =>
    match if Decimal.isNumber value then none else Pattern.fault? value with
    | none => .ok { name, value := some value }
    | some fault => .error (.badPattern fault)
  | _ => .ok { name := text, value := none }

/-- Where the reading of a directive stands. A number is the place at which
the piece at hand begins. -/
inductive Stage where
  | start
  /-- In a level or a target, whichever it turns out to be. -/
  | head (first : Nat)
  | span (first : Nat)
  | field (first : Nat)
  /-- After the field. -/
  | fieldEnd
  /-- After the bracket that closes span and field. -/
  | closed
  | level (first : Nat)
  deriving Repr, DecidableEq

/-- The piece of a text between two places. Both have to lie between
characters, also for an empty piece. -/
def cut (text : String) (first last : Nat) : Except Fault String :=
  let bytes := (Utf8.encode text).take last
  match Utf8.decode? (bytes.take first), Utf8.decode? (bytes.drop first) with
  | some _, some piece => .ok piece
  | _, _ => .error .splitCharacter

/-- Whether a directive may begin with a character other than a bracket. -/
def isInitial (c : Char) : Bool :=
  c = '-' || c = ':' || c = '_' || isAlphanumeric c

/-- Takes over the next character, which begins at the given place. -/
def advance (text : String) (directive : Directive) (stage : Stage) (place : Nat) (c : Char) :
    Except Fault (Directive × Stage) :=
  match stage, c with
  | .start, '[' => .ok (directive, .span (place + 1))
  | .start, c => if isInitial c then .ok (directive, .head place) else .error .malformed
  | .head first, '=' => do
    return ({ directive with target := ← cut text first place }, .level (place + 1))
  | .head first, '[' => do
    return ({ directive with target := ← cut text first place }, .span (place + 1))
  | .span first, ']' => do
    return ({ directive with span := some (← cut text first place) }, .closed)
  | .span first, '\x7b' => do
    let name ← cut text first place
    return ({ directive with span := if name.isEmpty then none else some name }, .field (place + 1))
  | .field first, '\x7d' => do
    let condition ← cut text first place
    if condition.isEmpty then throw .malformed
    return ({ directive with field := some (← readField condition) }, .fieldEnd)
  | .fieldEnd, ']' => .ok (directive, .closed)
  | .closed, '=' => .ok (directive, .level (place + 1))
  | .fieldEnd, _ | .closed, _ => .error .malformed
  | stage, _ => .ok (directive, stage)

/-- Completes a directive at the end of its text. Without a level everything
is logged. -/
def complete (text : String) (directive : Directive) : Stage → Except Fault Directive
  | .head first => do
    let word ← cut text first text.utf8ByteSize
    match level? word with
    | some most => return { directive with most }
    | none => return { directive with target := word }
  | .level first => do
    let word ← cut text first text.utf8ByteSize
    if word.isEmpty then return directive
    match level? word with
    | some most => return { directive with most }
    | none => throw .unknownLevel
  | .closed => .ok directive
  | .start | .span _ | .field _ | .fieldEnd => .error .malformed

/-- Reads on from a place, over the characters that are left. -/
def readFrom (text : String) (directive : Directive) (stage : Stage) (place : Nat) :
    List Char → Except Fault Directive
  | [] => directive.complete text stage
  | c :: rest => do
    let (directive, stage) ← directive.advance text stage place c
    readFrom text directive stage (place + c.utf8Size) rest

/-- The characters of a text without the white space around them. -/
def trimmed (text : String) : List Char :=
  ((text.toList.dropWhile isBlank).reverse.dropWhile isBlank).reverse

/-- Reads a directive. -/
def parse (text : String) : Except Fault Directive :=
  readFrom text {} .start 0 (trimmed text)

/-- Whether the directive concerns an event. The program opens no spans, so
conditions on a span, or on the value that a field has there, are never met. -/
def covers (directive : Directive) (event : Event) : Bool :=
  directive.span.isNone
    && directive.field.all (fun rule => rule.value.isNone && event.fieldNames.contains rule.name)
    && directive.target.toList.isPrefixOf event.target.toList

/-- Whether the directive lets an event through that it concerns. -/
def admits (directive : Directive) (level : Level) : Bool :=
  match directive.most with
  | some most => level.isWithin most
  | none => false

/-- The name of the field that the directive asks for, or the empty text. -/
def fieldName (directive : Directive) : String :=
  directive.field.elim "" (·.name)

/-- Whether a directive is at least as specific as another one that concerns
the same event: its target is longer, or the same and its field comes no
earlier in order. -/
def isAsSpecific (directive other : Directive) : Bool :=
  other.target.length < directive.target.length
    || (other.target.length = directive.target.length && other.fieldName ≤ directive.fieldName)

end Directive
end Summand
