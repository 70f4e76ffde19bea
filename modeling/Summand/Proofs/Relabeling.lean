import Summand.Proofs.Evaluation
import Summand.Proofs.SourceReading
import Summand.Proofs.TreeRecovery

/-! Reading looks at nothing but the kinds of tokens. Tokens may be exchanged for
others of the same kinds, and the tree is the same with its tokens exchanged; its
placeholders name places among the tokens and are left as they are. If the tokens
keep their values too, the tree has the same drawing. -/
namespace Summand.Relabeling
open Evaluation Significance SumReading SourceReading TreeRecovery

/-- A tree with other tokens in it. -/
def relabel (label : Token → Token) : Expr → Expr
  | .number token => .number (label token)
  | .binary left operator right =>
    .binary (relabel label left) (label operator) (relabel label right)

/-- An exchange of tokens that reading does not notice: kinds stay, and so do the
placeholders that gaps are mended with. -/
structure Unnoticed (label : Token → Token) : Prop where
  kind : ∀ token, (label token).kind = token.kind
  mend : ∀ index, label (.placeholder .number index) = .placeholder .number index

variable {due : Bool} {index : Nat} {label : Token → Token} {source other : String}

theorem relabel_leaves (label : Token → Token) (expr : Expr) :
    (relabel label expr).leaves = expr.leaves.map label := by
  induction expr with
  | number token => rfl
  | binary left operator right leftLeaves rightLeaves =>
    simp [relabel, Expr.leaves, leftLeaves, rightLeaves]

theorem relabel_leansLeft {expr : Expr} (leans : LeansLeft expr) (label : Token → Token) :
    LeansLeft (relabel label expr) := by
  induction expr with
  | number token => trivial
  | binary left operator right leftLeans _ =>
    obtain ⟨leansIn, token, rfl⟩ := leans
    exact ⟨leftLeans leansIn, label token, rfl⟩

theorem sumRun_map (unnoticed : Unnoticed label) (tokens : List Token) :
    sumRun due (tokens.map label) = (sumRun due tokens).map label := by
  induction tokens generalizing due with
  | nil => rfl
  | cons token rest ih =>
    simp only [List.map_cons, sumRun, unnoticed.kind, ih]
    split
    · rfl
    · split <;> rfl

theorem gap_map (unnoticed : Unnoticed label) (index : Nat) (due : Bool) (next : Option Token) :
    gap index due (next.map label) = (gap index due next).map label := by
  have numbers : (next.map label).any (·.kind = .number) = next.any (·.kind = .number) := by
    cases next <;> simp [unnoticed.kind]
  rw [gap, gap, numbers]
  split
  · exact congrArg ([·]) (unnoticed.mend index).symm
  · rfl

theorem mended_map (unnoticed : Unnoticed label) (tokens : List Token) :
    mended index due (tokens.map label) = (mended index due tokens).map label := by
  induction tokens generalizing index due with
  | nil => exact gap_map unnoticed index due none
  | cons token rest ih =>
    simp only [List.map_cons, mended, unnoticed.kind, ih, List.map_append]
    rw [← gap_map unnoticed]
    rfl

/-- A source whose tokens are those of another one, exchanged without notice, is read as
the same tree with its tokens exchanged, and equally far. -/
theorem parse_relabel (unnoticed : Unnoticed label)
    (exchanged : kept 0 other.toList = (kept 0 source.toList).map label) :
    let read := (TokenBuffer.ofSource source).value.parse.value
    let readToo := (TokenBuffer.ofSource other).value.parse.value
    readToo.1 = relabel label read.1 ∧ readToo.2.cursor = read.2.cursor := by
  have run : taken other = (taken source).map label := by
    rw [taken, exchanged, sumRun_map unnoticed]
    rfl
  obtain ⟨_, leaves, leans⟩ := parse_taken source
  refine ⟨parse_unique (relabel_leansLeft leans label) ?_, ?_⟩
  · rw [relabel_leaves, leaves, run, mended_map unnoticed]
  · rw [parse_cursor, parse_cursor, run, List.length_map]

/-- Exchanging places and texts does not show in a drawing. -/
theorem drawing_relabel (bareAlike : ∀ token, bareToken (label token) = bareToken token)
    (expr : Expr) : Node.drawing (.expr (relabel label expr)) = Node.drawing (.expr expr) := by
  have same : bareExpr (relabel label expr) = bareExpr expr := by
    induction expr with
    | number token => rw [relabel, bareExpr, bareExpr, bareAlike]
    | binary left operator right leftSame rightSame =>
      rw [relabel, bareExpr, bareExpr, leftSame, rightSame, bareAlike]
  rw [Node.drawing, Node.drawing, Node.rows, Node.rows, ← rows_bare, same, rows_bare]

end Summand.Relabeling
