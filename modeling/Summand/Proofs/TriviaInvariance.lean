import Summand.Proofs.Relabeling
import Summand.Proofs.Seams

/-! Trivia is invisible to reading. Put into a source at any index that is not inside
a run of numerals, it moves the tokens behind it and does nothing else: the tree keeps
its shape, its placeholders stay where they are, and what is drawn is the same. -/
namespace Summand.TriviaInvariance
open Evaluation Relabeling Seams Segmentation Significance TokenBuffer TreeRecovery

/-- A source with a text put in at an index. -/
def inserted (source : String) (index : Nat) (gap : String) : String :=
  String.ofList (source.toList.take index ++ (gap.toList ++ source.toList.drop index))

/-- Moves a token on if it stands at an index or behind it. -/
def shift (index count : Nat) (token : Token) : Token :=
  if index ≤ token.position then moveOn count token else token

/-- Moves a leaf on if it stands at an index of the source or behind it. The position
of a placeholder is no index of the source. -/
def shiftLeaf (index count : Nat) (leaf : Token) : Token :=
  if leaf.isMissing then leaf else shift index count leaf

variable {front back gap : List Char} {index count : Nat}

theorem shift_kind (token : Token) : (shift index count token).kind = token.kind := by
  unfold shift
  split <;> rfl

theorem shift_bare (token : Token) : bareToken (shift index count token) = bareToken token := by
  unfold shift
  split <;> rfl

theorem shiftLeaf_unnoticed : Unnoticed (shiftLeaf index count) where
  kind token := by
    unfold shiftLeaf
    split
    · rfl
    · exact shift_kind token
  mend _ := rfl

theorem shiftLeaf_bare (token : Token) : bareToken (shiftLeaf index count token) = bareToken token := by
  unfold shiftLeaf
  split
  · rfl
  · exact shift_bare token

/-- Trivia does not turn a seam into anything else. -/
theorem Seam.widen (seam : Seam front back) (idle : ∀ c ∈ gap, Trivia c) :
    Seam front (gap ++ back) := by
  cases gap with
  | nil => exact seam
  | cons c gap =>
    intro last _ d first
    cases first
    have plain := (idle c (by simp)).1
    simp [plain]

/-- Trivia at a seam moves the tokens behind it, and no token comes or goes. -/
theorem kept_widen (seam : Seam front back) (idle : ∀ c ∈ gap, Trivia c) :
    kept 0 (front ++ (gap ++ back)) =
      (kept 0 (front ++ back)).map (shift front.length gap.length) := by
  have before : (kept 0 front).map (shift front.length gap.length) = kept 0 front := by
    refine (List.map_congr_left fun token member => ?_).trans (List.map_id _)
    have within := (kept_within member).2
    exact if_neg (by omega)
  have behind : (kept (0 + front.length) back).map (shift front.length gap.length) =
      (kept (0 + front.length) back).map (moveOn gap.length) := by
    apply List.map_congr_left
    intro token member
    have within := (kept_within member).1
    exact if_pos (by omega)
  rw [kept_append (Seam.widen seam idle), kept_append seam, kept_gap _ idle, kept_moveOn,
    List.map_append, before, behind]

theorem kept_inserted {source gap : String} (inside : index ≤ source.length)
    (seam : Seam (source.toList.take index) (source.toList.drop index))
    (idle : ∀ c ∈ gap.toList, Trivia c) :
    kept 0 (inserted source index gap).toList =
      (kept 0 source.toList).map (shift index gap.length) := by
  have length : (source.toList.take index).length = index := by
    rw [List.length_take, String.length_toList, Nat.min_eq_left inside]
  rw [inserted, String.toList_ofList, kept_widen seam idle, List.take_append_drop, length,
    String.length_toList]

theorem length_inserted (source gap : String) (index : Nat) :
    (inserted source index gap).length = source.length + gap.length := by
  have whole := congrArg List.length (List.take_append_drop index source.toList)
  rw [List.length_append] at whole
  rw [inserted, ← String.length_toList, String.toList_ofList, List.length_append,
    List.length_append, ← String.length_toList, ← String.length_toList]
  omega

/-- A source with trivia put in, anywhere but inside a run of numerals, has the same
tokens, the ones behind the trivia moved on by its length. It is read as the same tree
with the same tokens moved and the placeholders left alone, equally far, and no
terminal can tell the two trees apart. -/
theorem trivia_unseen (source gap : String) (index : Nat) (inside : index ≤ source.length)
    (seam : Seam (source.toList.take index) (source.toList.drop index))
    (idle : ∀ c ∈ gap.toList, Trivia c) :
    let plain := (TokenBuffer.ofSource source).value
    let spaced := (TokenBuffer.ofSource (inserted source index gap)).value
    spaced.tokens = plain.tokens.map (shift index gap.length) ∧
      spaced.parse.value.1 = relabel (shiftLeaf index gap.length) plain.parse.value.1 ∧
      spaced.parse.value.2.cursor = plain.parse.value.2.cursor ∧
      ∀ color, ShownAlike { mode := .tree, color } (inserted source index gap) source := by
  intro plain spaced
  have tokens := kept_inserted inside seam idle
  -- Nothing that is kept is a placeholder, so moving tokens and moving leaves come to the same.
  have leaves : kept 0 (inserted source index gap).toList =
      (kept 0 source.toList).map (shiftLeaf index gap.length) := by
    rw [tokens]
    apply List.map_congr_left
    intro token member
    rw [shiftLeaf, (kept_piece member).1]
    rfl
  obtain ⟨tree, cursor⟩ := parse_relabel shiftLeaf_unnoticed leaves
  refine ⟨?_, tree, cursor, fun color => shownAlike_tree color ?_⟩
  · have last : shift index gap.length (.endOfFile source.length) =
        .endOfFile (inserted source index gap).length := by
      rw [length_inserted]
      exact if_pos inside
    simp only [plain, spaced, ofSource_value, TokenBuffer.tokens, List.map_append, tokens,
      List.map_cons, List.map_nil, last]
  · have sameTree : (Expr.ofSource (inserted source index gap)).value =
        relabel (shiftLeaf index gap.length) (Expr.ofSource source).value := tree
    rw [sameTree]
    exact drawing_relabel shiftLeaf_bare _

/-- Trivia may stand right behind a number, and the operator behind it moves. -/
theorem gap_behind_number_unseen :
    Seam ("7-10".toList.take 1) ("7-10".toList.drop 1) ∧ (∀ c ∈ " x".toList, Trivia c) ∧
      (TokenBuffer.ofSource "7 x-10").value.tokens =
        (TokenBuffer.ofSource "7-10").value.tokens.map (shift 1 2) := by
  have seam : Seam ("7-10".toList.take 1) ("7-10".toList.drop 1) := by
    intro c _ d first both
    cases first
    exact absurd both.2 (by decide +kernel)
  have idle : ∀ c ∈ " x".toList, Trivia c := by
    have all : " x".toList.all (Trivia ·) = true := by decide +kernel
    simpa using List.all_eq_true.mp all
  exact ⟨seam, idle, (trivia_unseen "7-10" " x" 1 (by decide) seam idle).1⟩

end Summand.TriviaInvariance
