import Summand.Text.Blank
import Summand.Text.Numeric

/-! Every node of a syntax tree has a kind. Ten kinds label tokens, two label
expressions; all of them print under their own name. The kind of a token is
already settled by its first character. -/
namespace Summand

/-- What a token or an expression is. -/
inductive Kind where
  | number
  | whiteSpace
  | plus
  | minus
  | star
  | slash
  | leftParen
  | rightParen
  | bad
  | endOfFile
  | numberExpression
  | binaryExpression
  deriving Repr, DecidableEq

namespace Kind

/-- The name a kind prints under. -/
def name : Kind → String
  | number => "NumberToken"
  | whiteSpace => "WhiteSpaceToken"
  | plus => "PlusToken"
  | minus => "MinusToken"
  | star => "StarToken"
  | slash => "SlashToken"
  | leftParen => "LeftParenToken"
  | rightParen => "RightParenToken"
  | bad => "BadToken"
  | endOfFile => "EndOfFileToken"
  | numberExpression => "NumberExpression"
  | binaryExpression => "BinaryExpression"

/-- Every kind once. -/
def all : List Kind :=
  [number, whiteSpace, plus, minus, star, slash, leftParen, rightParen, bad, endOfFile,
   numberExpression, binaryExpression]

/-- The kind of a given name. -/
def ofName? (text : String) : Option Kind :=
  all.find? (·.name = text)

/-- White space and unrecognized characters carry no meaning for the grammar. -/
def isTrivia (kind : Kind) : Bool :=
  kind = whiteSpace || kind = bad

/-- The operators that join operands into a sum. -/
def isAdditive (kind : Kind) : Bool :=
  kind = plus || kind = minus

/-- The kind of a character that is a token by itself. -/
def ofOperator? : Char → Option Kind
  | '+' => some plus
  | '-' => some minus
  | '*' => some star
  | '/' => some slash
  | '(' => some leftParen
  | ')' => some rightParen
  | _ => none

/-- The kind of the token that starts with a character. A character outside
every class makes a bad token, so each character starts some token. -/
def ofChar (c : Char) : Kind :=
  if isNumeric c then number
  else if isBlank c then whiteSpace
  else (ofOperator? c).getD bad

end Kind
end Summand
