import Summand.Text.Blank

/-! The mode of a pattern says how its characters are taken. Options in the
pattern change it up to the end of the group they stand in.

A pattern matches whole characters. In Unicode mode it cannot tell the cases
of letters apart, and has no classes of digits, blanks or letters, since that
takes tables that are not at hand. Otherwise it describes bytes, and whatever
would match a part of a character is ruled out. -/
namespace Summand.Pattern

/-- How the characters of a pattern are taken. -/
structure Mode where
  /-- White space and comments are passed over. -/
  verbose : Bool := false
  /-- A pattern describes characters, and not bytes. -/
  unicode : Bool := true
  /-- Upper and lower case count as the same. -/
  caseless : Bool := false
  deriving Repr, DecidableEq

namespace Mode

/-- The letters of the options. -/
def options : List Char :=
  "imsURux".toList

/-- Switches an option. Those that do not decide whether a pattern is allowed
leave no trace. -/
def set (mode : Mode) (option : Char) (value : Bool) : Mode :=
  match option with
  | 'x' => { mode with verbose := value }
  | 'u' => { mode with unicode := value }
  | 'i' => { mode with caseless := value }
  | _ => mode

/-- Passes over white space and over comments, which run from a number sign to
the end of the line. -/
def skipVerbose (inComment : Bool) : List Char → List Char
  | [] => []
  | c :: rest =>
    if inComment then skipVerbose (c ≠ '\n') rest
    else if isBlank c then skipVerbose false rest
    else if c = '#' then skipVerbose true rest
    else c :: rest

/-- Passes over what does not count. -/
def skip (mode : Mode) (text : List Char) : List Char :=
  if mode.verbose then skipVerbose false text else text

/-- The next character that counts, within a class. A comment hides only the
white space at its beginning. -/
def peek? (mode : Mode) (text : List Char) : Option Char :=
  if mode.verbose then
    match text.dropWhile isBlank with
    | '#' :: comment => (comment.dropWhile isBlank).head?
    | rest => rest.head?
  else text.head?

/-- Whether a class may have a class with a name as a part. -/
def allowsNamed (mode : Mode) (negated : Bool) : Bool :=
  if mode.unicode then !mode.caseless else !negated

/-- Whether a class may be everything but its members. -/
def allowsNegation (mode : Mode) : Bool :=
  mode.unicode

/-- Whether a letter may stand for digits, blanks or the characters of words. -/
def allowsShorthand (mode : Mode) (negated : Bool) : Bool :=
  !mode.unicode && !negated

/-- Whether a dot may stand for any character. -/
def allowsAny (mode : Mode) : Bool :=
  mode.unicode

end Mode
end Summand.Pattern
