import Summand.Expr

/-! A drawing shows a tree with one row for each node, parents before children
and children in source order. The branch before a node tells whether more of
its siblings follow, and bars lead down to them past everything in between. A
row ends right after its content. -/
namespace Summand

/-- One row of a drawing. -/
structure Row where
  indent : String
  /-- Whether the node is the last child of its parent. -/
  isLast : Bool
  kind : Kind
  value : Option Int
  deriving Repr, DecidableEq

namespace Row

/-- The branch that leads to a node. -/
def branch (isLast : Bool) : String :=
  if isLast then "└──" else "├──"

/-- What stands below a branch: a bar if siblings follow, else nothing. -/
def below (isLast : Bool) : String :=
  if isLast then "    " else "│   "

/-- The parts of a row, in writing order, the line end included. -/
def pieces (row : Row) : List String :=
  [row.indent, branch row.isLast, row.kind.name] ++
    (match row.value with
      | some value => [" ", Numeral.write value]
      | none => []) ++ ["\n"]

/-- The row of a token. -/
def ofToken (indent : String) (isLast : Bool) (token : Token) : Row :=
  { indent, isLast, kind := token.kind, value := token.value }

end Row

/-- The rows of an expression and of everything below it. -/
def Expr.rows (indent : String) (isLast : Bool) : Expr → List Row
  | number token =>
    let inner := indent ++ Row.below isLast
    [{ indent, isLast, kind := .numberExpression, value := none }, .ofToken inner true token]
  | binary left operator right =>
    let inner := indent ++ Row.below isLast
    { indent, isLast, kind := .binaryExpression, value := none } ::
      (left.rows inner false ++ .ofToken inner false operator :: right.rows inner true)

namespace Node

/-- The rows of a tree. Its root has no siblings. -/
def rows : Node → List Row
  | token t => [.ofToken "" true t]
  | expr e => e.rows "" true

/-- The parts of a drawing, in writing order. -/
def drawing (node : Node) : List String :=
  node.rows.flatMap Row.pieces

end Node
end Summand
