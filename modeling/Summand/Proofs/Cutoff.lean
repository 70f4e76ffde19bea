import Summand.Proofs.Evaluation
import Summand.Proofs.Seams
import Summand.Proofs.SourceReading

/-! An operator that is not part of the grammar ends the reading of a source for good.
No number is cut by it, so the tokens in front of it are those of the source cut off
there, and no sum goes on with it. What follows has no influence on anything. -/
namespace Summand.Cutoff
open Evaluation Scanning Seams Significance SourceReading SumReading TokenBuffer

/-- The operators that no sum goes on with. -/
def unsupported : List Char := ['*', '/', '(', ')']

theorem unsupported_operator {x : Char} (member : x ∈ unsupported) :
    ∃ kind, Kind.ofOperator? x = some kind ∧ kind.isAdditive = false ∧ kind ≠ .number := by
  simp only [unsupported, List.mem_cons, List.not_mem_nil, or_false] at member
  rcases member with rfl | rfl | rfl | rfl <;> exact ⟨_, rfl, rfl, by decide⟩

/-- What is taken of a source is taken in front of the first unsupported operator. -/
theorem taken_cutoff {x : Char} (member : x ∈ unsupported) (front back : String) :
    taken (front.push x ++ back) = taken front := by
  obtain ⟨kind, operator, additive, number⟩ := unsupported_operator member
  have seam : Seam front.toList (x :: back.toList) := by
    intro c _ d first both
    cases first
    rw [(operator_plain operator).1] at both
    cases both.2
  have whole : (front.push x ++ back).toList = front.toList ++ x :: back.toList := by simp
  rw [taken, whole, kept_append seam, kept_operator _ operator]
  apply sumRun_stopped
  exact ⟨by rw [ofRun_kind, additive], by rwa [ofRun_kind]⟩

/-- A source with an unsupported operator in it is read as if it ended in front of the
operator: as the same tree, in tokens, texts, values and all positions, and equally far.
No terminal can tell the two trees apart. -/
theorem unsupported_cuts_off (front back : String) (x : Char) (member : x ∈ unsupported) :
    let short := (TokenBuffer.ofSource front).value.parse.value
    let long := (TokenBuffer.ofSource (front.push x ++ back)).value.parse.value
    long.1 = short.1 ∧ long.2.cursor = short.2.cursor ∧
      ∀ color, ShownAlike { mode := .tree, color } (front.push x ++ back) front := by
  intro short long
  obtain ⟨tree, cursor⟩ := parse_determined (taken_cutoff member front back)
  refine ⟨tree, cursor, fun color => shownAlike_tree color ?_⟩
  have sameTree : (Expr.ofSource (front.push x ++ back)).value = (Expr.ofSource front).value := tree
  rw [sameTree]

/-- A sum that ends in a missing operand is not completed behind a parenthesis. -/
theorem parenthesis_cuts_off : '(' ∈ unsupported ∧
    (TokenBuffer.ofSource "1 + (2) - 3").value.parse.value.1 =
      (TokenBuffer.ofSource "1 + ").value.parse.value.1 := by
  have member : '(' ∈ unsupported := by decide
  exact ⟨member, (unsupported_cuts_off "1 + " "2) - 3" '(' member).1⟩

end Summand.Cutoff
