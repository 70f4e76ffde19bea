import Summand.Proofs.Places
import Summand.Proofs.SourceReading

/-! A drawing tells its tree line by line. Each node has one line, in the order of the
places, and what stands in front of a name depends on the way down to it alone: one
part for each node above, which says whether that node has siblings left, and a branch
for the node itself. A sum of a number of operators takes two lines for each of its
leaves. -/
namespace Summand.TreeLines
open Delivery Places SourceReading Spelling SumReading TokenBuffer TreeRecovery

/-- The line of a node at a place, without its line end. -/
def lineAt (root : Node) (visit : List Nat × Node) : List Char :=
  ((List.range visit.1.length).flatMap fun depth =>
      (if isLast root (visit.1.take depth) then "    " else "│   ").toList) ++
    (if isLast root visit.1 then "└──" else "├──").toList ++
    visit.2.kind.name.toList ++
    match visit.2.value with
    | some value => ' ' :: (Numeral.write value).toList
    | none => []

/-- The lines of the drawing of a tree: on a sink that never fails they are written one
after another, each with a line end behind it and none inside. -/
structure Drawn (root : Node) (lines : List (List Char)) : Prop where
  written : Emits (Writing.drawing root) ()
    (Utf8.encode (String.ofList (lines.flatMap fun line => line ++ ['\n'])))
  whole : ∀ line ∈ lines, '\n' ∉ line

/-- The operators among the tokens that reading a source from its beginning has passed. -/
def passedOperators (buffer : TokenBuffer) : Nat :=
  (buffer.tokens.take buffer.cursor).countP (·.kind.isAdditive)

variable {root : Node} {visit : List Nat × Node} {due : Bool}

theorem line_rowAt (root : Node) (visit : List Nat × Node) :
    line (rowAt root visit) = lineAt root visit := by
  have above : (margin root visit.1).toList = (List.range visit.1.length).flatMap fun depth =>
      (if isLast root (visit.1.take depth) then "    " else "│   ").toList := by
    rw [margin, String.toList_join, List.flatMap_map]
    rfl
  simp only [line, front, rowAt, lineAt, above, List.append_assoc]
  rfl

theorem lines_rows (root : Node) : root.rows.map line = (visits root).map (lineAt root) := by
  rw [node_rows, List.map_map]
  exact List.map_congr_left fun visit _ => line_rowAt root visit

/-- The lines of a drawing are those of its nodes. -/
theorem drawn_visits (root : Node) : Drawn root ((visits root).map (lineAt root)) := by
  rw [← lines_rows]
  constructor
  · have text : Utf8.encode (String.ofList ((root.rows.map line).flatMap fun line => line ++ ['\n'])) =
        root.drawing.flatMap Utf8.encode := by
      rw [← Utf8.decode?_eq_some_iff, decode?_pieces, Node.drawing, List.flatMap_assoc,
        List.flatMap_map]
      simp only [pieces_line]
    rw [text]
    exact (writes_pieces root.drawing).emits
  · intro line member
    obtain ⟨row, inside, rfl⟩ := List.mem_map.mp member
    exact line_plain (node_margin root row inside)

/-- A line ends with a letter of a name or a digit of a value. -/
theorem line_unpadded (row : Row) : (line row).getLast? ≠ some ' ' := by
  intro padded
  rw [line, ← List.append_assoc] at padded
  cases held : row.value with
  | none =>
    obtain ⟨first, rest, begins⟩ := name_begins row.kind
    rw [held, valueText, List.append_nil,
      List.getLast?_append_of_ne_nil _ (begins ▸ List.cons_ne_nil _ _)] at padded
    exact absurd (name_letters row.kind _ (List.mem_of_getLast? padded)) (by decide)
  | some value =>
    have present : (Numeral.write value).toList ≠ [] := by
      cases value <;> simp [Numeral.write, Nat.toDigits_ne_nil]
    rw [held, valueText, List.append_cons, List.getLast?_append_of_ne_nil _ present] at padded
    exact absurd (write_characters value _ (List.mem_of_getLast? padded)) (by decide)

/-- An expression has twice as many nodes as leaves. -/
theorem exprVisits_length (expr : Expr) : (exprVisits expr).length = 2 * expr.leaves.length := by
  induction expr with
  | number token => rfl
  | binary left operator right leftCount rightCount =>
    simp only [exprVisits, Expr.leaves, List.length_cons, List.length_append, List.length_map,
      leftCount, rightCount]
    omega

/-- Each operator of a sum has an operand behind it, read or mended; one more operand
stands in front if one is due there. -/
theorem mended_length (index : Nat) (due : Bool) (tokens : List Token) :
    (mended index due (sumRun due tokens)).length =
      due.toNat + 2 * (sumRun due tokens).countP (·.kind.isAdditive) := by
  induction tokens generalizing index due with
  | nil => cases due <;> rfl
  | cons token rest ih =>
    by_cases additive : token.kind.isAdditive = true
    · have other : ¬ token.kind = .number := additive_not_number additive
      have mending : (gap index due (some token)).length = due.toNat := by
        cases due <;> simp [gap, other]
      rw [sumRun, if_pos additive, mended, additive, List.length_append, mending,
        List.length_cons, ih (index + 1) true, List.countP_cons, if_pos additive, Bool.toNat_true]
      omega
    · by_cases number : (due && token.kind = .number) = true
      · simp only [Bool.and_eq_true, decide_eq_true_eq] at number
        obtain ⟨rfl, kind⟩ := number
        rw [sumRun, if_neg additive, if_pos (by simp [kind]), mended_number kind, List.length_cons,
          ih (index + 1) false, List.countP_cons, if_neg additive, Bool.toNat_true, Bool.toNat_false]
        omega
      · rw [sumRun, if_neg additive, if_neg number]
        cases due <;> rfl

/-- Reading a source passes the tokens that it takes. -/
theorem passed_taken (source : String) :
    passedOperators (TokenBuffer.ofSource source).value.parse.value.2 =
      (taken source).countP (·.kind.isAdditive) := by
  obtain ⟨final, _⟩ := parse_taken source
  obtain ⟨later, split⟩ := taken_front source
  have passed : (TokenBuffer.ofSource source).value.tokens.take (taken source).length = taken source := by
    rw [tokens_ofSource, ← split, List.append_assoc, List.take_left]
  rw [passedOperators, parse_cursor, final]
  exact congrArg _ passed

/-- A drawing has one line for each node, in the order of a walk through the tree. The
line is made of a part for each node above, a branch, the name of the kind and the value
if there is one, and no blank stands at its end. For a source read as a sum of some
operators these are four lines for each operator and two more. -/
theorem one_line_for_each_node :
    (∀ root : Node, ∃ seen, Walk root seen ∧ Drawn root (seen.map (lineAt root)) ∧
      ∀ visit ∈ seen, (lineAt root visit).getLast? ≠ some ' ') ∧
    ∀ source : String, let read := (TokenBuffer.ofSource source).value.parse.value
      ∃ lines, Drawn (.expr read.1) lines ∧ lines.length = 4 * passedOperators read.2 + 2 := by
  constructor
  · intro root
    refine ⟨visits root, visits_walk root, drawn_visits root, fun visit _ => ?_⟩
    rw [← line_rowAt]
    exact line_unpadded _
  · intro source read
    obtain ⟨_, leaves, _⟩ := parse_taken source
    refine ⟨_, drawn_visits (.expr read.1), ?_⟩
    have count := mended_length 0 true (Significance.kept 0 source.toList)
    rw [List.length_map, visits, exprVisits_length, passed_taken, show read.1.leaves = _ from leaves,
      taken, count, Bool.toNat_true]
    omega

end Summand.TreeLines
