import Summand.Proofs.Significance
import Summand.Proofs.SumReading

/-! Reading a source takes tokens off the front of those kept of it, and nothing but
the tokens taken matters for the tree and for how far reading comes. The end of file,
like any other token that no sum goes on with, is where reading stops at the latest. -/
namespace Summand.SourceReading
open Significance SumReading TokenBuffer

variable {due : Bool} {tokens : List Token} {source other : String}

theorem tokens_ofSource (source : String) : (TokenBuffer.ofSource source).value.tokens =
    kept 0 source.toList ++ [.endOfFile source.length] := by
  simp [ofSource_value, TokenBuffer.tokens]

theorem ahead_ofSource (source : String) : ahead (TokenBuffer.ofSource source).value =
    kept 0 source.toList ++ [.endOfFile source.length] :=
  tokens_ofSource source

/-- A token that no sum goes on with. -/
def Stops (token : Token) : Prop := token.kind.isAdditive = false ∧ token.kind ≠ .number

/-- What stands behind a token that no sum goes on with is never looked at. -/
theorem sumRun_stopped {last : Token} (stops : Stops last) (tokens later : List Token) :
    sumRun due (tokens ++ last :: later) = sumRun due tokens := by
  induction tokens generalizing due with
  | nil => simp [sumRun, stops.1, stops.2]
  | cons token tokens ih =>
    rw [List.cons_append]
    simp only [sumRun, ih]

/-- The tokens that reading a source takes. -/
def taken (source : String) : List Token := sumRun true (kept 0 source.toList)

theorem taken_front (source : String) : taken source <+: kept 0 source.toList :=
  sumRun_front true _

/-- Reading a source takes its tokens, moves behind them and mends their gaps. -/
theorem parse_taken (source : String) :
    let read := (TokenBuffer.ofSource source).value.parse.value
    read.2 = moved (TokenBuffer.ofSource source).value (taken source).length ∧
      read.1.leaves = mended 0 true (taken source) ∧ LeansLeft read.1 := by
  have stops : Stops (.endOfFile source.length) := ⟨rfl, by simp [Token.endOfFile]⟩
  have run : sumRun true (ahead (TokenBuffer.ofSource source).value) = taken source := by
    rw [ahead_ofSource]
    exact sumRun_stopped stops _ []
  have read := parse_exact (TokenBuffer.ofSource source).value
  rwa [run] at read

/-- The tokens of a source are those taken of it, the one that reading stops at, and
those behind that one. -/
theorem parse_split (source : String) : ∃ later,
    kept 0 source.toList ++ [.endOfFile source.length] = taken source ++
      (TokenBuffer.ofSource source).value.parse.value.2.current :: later := by
  obtain ⟨final, _⟩ := parse_taken source
  have inside : (moved (TokenBuffer.ofSource source).value (taken source).length).cursor ≤
      (TokenBuffer.ofSource source).value.body.size := by
    simpa [ofSource_value, moved] using (taken_front source).length_le
  obtain ⟨behind, split⟩ := (taken_front source).trans
    (List.prefix_append _ [Token.endOfFile source.length])
  have stopped : behind = ahead (moved (TokenBuffer.ofSource source).value (taken source).length) := by
    rw [← tokens_ofSource] at split
    have dropped := congrArg (List.drop (taken source).length) split
    rw [List.drop_left] at dropped
    simpa [ahead, moved, TokenBuffer.tokens, ofSource_value] using dropped
  rw [← split, stopped, ahead_inside inside, ← final]
  exact ⟨_, rfl⟩

/-- How far reading a source comes. -/
theorem parse_cursor (source : String) :
    (TokenBuffer.ofSource source).value.parse.value.2.cursor = (taken source).length := by
  rw [(parse_taken source).1, moved, ofSource_value, Nat.zero_add]

/-- Only one tree has the tokens taken of a source, mended, for its leaves. -/
theorem parse_unique {expr : Expr} (leans : LeansLeft expr)
    (leaves : expr.leaves = mended 0 true (taken source)) :
    (TokenBuffer.ofSource source).value.parse.value.1 = expr := by
  obtain ⟨_, leavesRead, leansRead⟩ := parse_taken source
  exact leansLeft_unique leansRead leans (leavesRead.trans leaves.symm)

/-- Sources that the same tokens are taken of are read as the same tree, equally far. -/
theorem parse_determined (same : taken source = taken other) :
    let read := (TokenBuffer.ofSource source).value.parse.value
    let readToo := (TokenBuffer.ofSource other).value.parse.value
    read.1 = readToo.1 ∧ read.2.cursor = readToo.2.cursor := by
  obtain ⟨_, leaves, leans⟩ := parse_taken other
  refine ⟨parse_unique leans ?_, ?_⟩
  · rw [leaves, same]
  · rw [parse_cursor, parse_cursor, same]

end Summand.SourceReading
