import Summand.Token

/-! An expression is a number or an operation on two expressions; each keeps
the tokens it was made from. A node is any point of the tree below an
expression, tokens included. -/
namespace Summand

/-- A syntax tree. -/
inductive Expr where
  | number (token : Token)
  | binary (left : Expr) (operator : Token) (right : Expr)
  deriving Repr, DecidableEq

/-- A point of a syntax tree: a token or an expression. -/
inductive Node where
  | token (token : Token)
  | expr (expr : Expr)
  deriving Repr, DecidableEq

namespace Expr

/-- The kind of an expression. -/
def kind : Expr → Kind
  | number _ => .numberExpression
  | binary .. => .binaryExpression

/-- The nodes right below an expression, in source order. -/
def children : Expr → List Node
  | number token => [.token token]
  | binary left operator right => [.expr left, .token operator, .expr right]

/-- The tokens of an expression, in source order. -/
def leaves : Expr → List Token
  | number token => [token]
  | binary left operator right => left.leaves ++ operator :: right.leaves

/-- An expression and every node below it, each with its depth, parents before
children and children in source order. -/
def preorder (depth : Nat) : Expr → List (Nat × Node)
  | number token => [(depth, .expr (number token)), (depth + 1, .token token)]
  | binary left operator right =>
    (depth, .expr (binary left operator right)) ::
      (left.preorder (depth + 1) ++ (depth + 1, .token operator) :: right.preorder (depth + 1))

end Expr

namespace Node

/-- The kind of a node. -/
def kind : Node → Kind
  | token t => t.kind
  | expr e => e.kind

/-- The nodes right below a node. A token has none. -/
def children : Node → List Node
  | token _ => []
  | expr e => e.children

/-- The value of a node. Only a token can have one. -/
def value : Node → Option Int
  | token t => t.value
  | expr _ => none

/-- The token a node consists of, if it is one. -/
def token? : Node → Option Token
  | token t => some t
  | expr _ => none

/-- A node and every node below it, each with its depth. -/
def preorder : Node → List (Nat × Node)
  | token t => [(0, .token t)]
  | expr e => e.preorder 0

end Node
end Summand
