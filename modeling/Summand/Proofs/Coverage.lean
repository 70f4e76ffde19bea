import Summand.Proofs.Seams
import Summand.Proofs.SourceReading

/-! Reading passes over nothing that matters. The tokens kept of a source hold each
numeral and each operator of it once and nothing else. The leaves of a tree that are
no placeholders are the first of these tokens, and so hold everything in front of the
token that reading stopped at. -/
namespace Summand.Coverage
open Scanning Seams Segmentation Significance SourceReading SumReading TokenBuffer

variable {position : Nat} {c : Char} {run : List Char} {source : String}

/-- Whether the text of a token holds the character of the source at some index. -/
def holds (index : Nat) (token : Token) : Bool :=
  token.position ≤ index && index < token.position + (characters token).length

/-- Tokens that stand in a source in order and account for all of it in front of some
place: each text is a slice of the source, and a character is held by one token if the
grammar cares about it and by none otherwise. -/
structure Accounts (source : List Char) (stop : Nat) (tokens : List Token) : Prop where
  ordered : tokens.Pairwise (·.position < ·.position)
  before : ∀ token ∈ tokens, token.position < stop
  sliced : ∀ token ∈ tokens, ∃ text, token.text = some text ∧
    text.toList = (source.drop token.position).take text.length
  held : ∀ index c, index < stop → source[index]? = some c →
    tokens.countP (holds index) = if Trivia c then 0 else 1

/-- The operators of an expression, each from where an operator has to stand. -/
def operators : Expr → List Token
  | .number _ => []
  | .binary left operator right => operators left ++ operator :: operators right

theorem run_significant (significant : ¬ Trivia c) (joins : ∀ d ∈ run, fuses c d = true) :
    ∀ d ∈ c :: run, ¬ Trivia d := by
  intro d member
  rcases List.mem_cons.mp member with rfl | member
  · exact significant
  · intro trivia
    have numeric := (significant_fuses significant (joins d member)).2
    rw [trivia.1] at numeric
    cases numeric

/-- Tokens that begin behind an index do not hold its character. -/
theorem countP_behind {tokens : List Token} {index : Nat}
    (behind : ∀ token ∈ tokens, index < token.position) : tokens.countP (holds index) = 0 := by
  rw [List.countP_eq_zero]
  intro token member
  have later := behind token member
  simp [holds, Nat.not_le.mpr later]

/-- The tokens kept of a source hold the characters that the grammar cares about. -/
theorem kept_holds (position : Nat) (source : List Char) : ∀ index c, source[index]? = some c →
    (kept position source).countP (holds (position + index)) = if Trivia c then 0 else 1 := by
  induction position, source using kept_induction with
  | atEnd position => intro index c found; cases found
  | atTrivia position c others trivia ih =>
    intro index d found
    rw [kept_trivia position trivia]
    cases index with
    | zero =>
      cases found
      rw [if_pos trivia]
      exact countP_behind fun token member => (kept_within member).1
    | succ index =>
      rw [← ih index d found, Nat.add_right_comm]
      rfl
  | atRun position c run rest significant joins boundary ih =>
    intro index d found
    rw [kept_run position significant joins boundary, List.countP_cons]
    have first : holds (position + index) (Token.ofRun (.ofChar c) position (c :: run)).value =
        decide (index < (c :: run).length) := by
      simp [holds, characters]
    -- A character of the run is held by its token alone, and one behind it only by later tokens.
    by_cases inside : index < (c :: run).length
    · have within := decide_eq_true inside
      rw [List.getElem?_append_left inside] at found
      rw [first, within, if_neg (run_significant significant joins d (List.mem_of_getElem? found)),
        countP_behind, if_pos rfl]
      intro token member
      have behind := (kept_within member).1
      omega
    · have outside := decide_eq_false inside
      have place : position + (c :: run).length + (index - (c :: run).length) = position + index := by
        omega
      rw [List.getElem?_append_right (Nat.not_lt.mp inside)] at found
      rw [first, outside, if_neg Bool.false_ne_true, Nat.add_zero, ← place]
      exact ih _ d found

/-- The tokens of a source in front of any one of them account for the source up to it. -/
theorem kept_accounts {taken later : List Token} {stop : Token}
    (front : taken <+: kept 0 source.toList)
    (split : kept 0 source.toList ++ [.endOfFile source.length] = taken ++ stop :: later) :
    Accounts source.toList stop.position taken := by
  have sorted : (taken ++ stop :: later).Pairwise (·.position < ·.position) := by
    rw [← split, List.pairwise_append]
    refine ⟨kept_sorted 0 _, List.pairwise_singleton .., fun token member last ends => ?_⟩
    rw [List.mem_singleton.mp ends]
    simpa [Token.endOfFile, String.length_toList] using (kept_within member).2
  obtain ⟨ordered, orderedLater, apart⟩ := List.pairwise_append.mp sorted
  refine ⟨ordered, fun token member => apart token member stop (List.mem_cons_self ..), ?_, ?_⟩
  · intro token member
    obtain ⟨before, after, spelled, placed, text, _⟩ := kept_stands (front.subset member)
    refine ⟨_, text, ?_⟩
    rw [Nat.zero_add] at placed
    rw [placed, spelled, List.drop_left, String.length_ofList, List.take_left,
      String.toList_ofList]
  · intro index c before found
    have behind : (stop :: later).countP (holds index) = 0 := by
      apply countP_behind
      intro token member
      rcases List.mem_cons.mp member with rfl | member
      · exact before
      · exact before.trans ((List.pairwise_cons.mp orderedLater).1 token member)
    have outside : [Token.endOfFile source.length].countP (holds index) = 0 := by
      apply countP_behind
      intro token member
      rw [List.mem_singleton.mp member]
      simpa [Token.endOfFile, String.length_toList] using (List.getElem?_eq_some_iff.mp found).1
    -- All tokens together hold the character as they should, and the later ones do not hold it.
    have whole := congrArg (List.countP (holds index)) split
    rw [List.countP_append, List.countP_append, outside, behind] at whole
    have held := kept_holds 0 source.toList index c found
    rw [Nat.zero_add] at held
    omega

/-- Every operator of a tree that was read is an additive token of the buffer. -/
theorem extendSum_operators (left : Expr) (buffer : TokenBuffer) :
    ∀ operator ∈ operators (extendSum left buffer).value.1, operator ∈ operators left ∨
      (operator ∈ buffer.body ∧ operator.kind.isAdditive = true) := by
  induction left, buffer using extendSum.induct with
  | case1 left buffer additive right ih =>
    obtain ⟨token, taken, read, _⟩ := operand_exact buffer.advance
    have rightRead : right.value = (.number token, moved buffer.advance taken) := read
    rw [extendSum, dif_pos additive]
    intro operator member
    rcases ih operator member with before | inside
    · rw [rightRead, operators, List.mem_append] at before
      rcases before with before | here
      · exact .inl before
      · obtain rfl : operator = buffer.current := List.mem_singleton.mp here
        have within := cursor_lt_of_isAdditive additive
        refine .inr ⟨?_, additive⟩
        rw [current, tokenAt, Array.getElem?_eq_getElem within]
        exact Array.getElem_mem within
    · rw [rightRead] at inside
      exact .inr inside
  | case2 left buffer ends =>
    rw [extendSum, dif_neg ends]
    exact fun operator member => .inl member

/-- Reading a source passes over nothing but trivia. The leaves of the tree, but for the
placeholders, account for everything in front of the token that reading stopped at. A
placeholder stands for a number and never for an operator, and reading does not stop at
an operator that a sum could go on with. -/
theorem reading_skips_only_trivia (source : String) :
    let read := (TokenBuffer.ofSource source).value.parse.value
    Accounts source.toList read.2.current.position (read.1.leaves.filter (!·.isMissing)) ∧
      (∀ operator ∈ operators read.1,
        operator.isMissing = false ∧ operator.kind.isAdditive = true) ∧
      (∀ leaf ∈ read.1.leaves, leaf.isMissing = true → leaf.kind = .number) ∧
      read.2.current.kind ≠ .plus ∧ read.2.current.kind ≠ .minus := by
  intro read
  have front := taken_front source
  have present : ∀ token ∈ taken source, token.isMissing = false :=
    fun token member => (kept_piece (front.subset member)).1
  obtain ⟨_, leaves, _⟩ := parse_taken source
  obtain ⟨later, split⟩ := parse_split source
  have ends := parse_ends (TokenBuffer.ofSource source).value
  refine ⟨?_, ?_, ?_, ?_, ?_⟩
  · rw [show read.1.leaves = _ from leaves, mended_present present]
    exact kept_accounts front split
  · intro operator member
    obtain ⟨token, taken, operand, _⟩ := operand_exact (TokenBuffer.ofSource source).value
    have whole : read = (extendSum (.number token)
        (moved (TokenBuffer.ofSource source).value taken)).value := by
      simp only [read, parse, bind, operand]
    rw [whole] at member
    rcases extendSum_operators _ _ operator member with before | ⟨inside, additive⟩
    · cases before
    · rw [moved, ofSource_value] at inside
      exact ⟨(kept_piece (by simpa using inside)).1, additive⟩
  · intro leaf member missing
    rw [show read.1.leaves = _ from leaves] at member
    rcases mem_mended member with real | ⟨place, rfl⟩
    · rw [present leaf real] at missing
      cases missing
    · rfl
  · intro plus
    rw [show read.2.current.kind = _ from plus] at ends
    cases ends
  · intro minus
    rw [show read.2.current.kind = _ from minus] at ends
    cases ends

end Summand.Coverage
