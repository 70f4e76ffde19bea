import Summand.Text.Numeral
import Summand.Token.Kind

/-! A token is a piece of a source together with its place and, for a number,
its value. A placeholder stands where the grammar wanted a token that the
source does not have: it has no text. -/
namespace Summand

/-- A token. For a piece of a source `position` counts the characters before
it; for a placeholder it is the place in the token buffer where it was missed. -/
structure Token where
  kind : Kind
  position : Nat
  text : Option String
  value : Option Int
  deriving Repr, DecidableEq

namespace Token

/-- The mark after the last character of a source of the given length. -/
def endOfFile (length : Nat) : Token :=
  { kind := .endOfFile, position := length, text := some "\u0000", value := none }

/-- The placeholder for a token of some kind that was missed at an index. -/
def placeholder (kind : Kind) (index : Nat) : Token :=
  { kind, position := index, text := none, value := none }

/-- Whether a token stands for nothing in the source. -/
def isMissing (token : Token) : Bool :=
  token.text.isNone

/-- The parts of a token's listing, in writing order. The text is given as it
is, without escapes; a placeholder lists an empty text. -/
def listing (token : Token) : List String :=
  [token.kind.name, " : '", token.text.getD "", "'"] ++
    match token.value with
    | some value => [" | val=", Numeral.write value]
    | none => []

/-- A token's line in a token listing, without the line end. -/
def line (token : Token) : String :=
  String.join token.listing

end Token
end Summand
