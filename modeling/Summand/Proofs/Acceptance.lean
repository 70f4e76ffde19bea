import Summand.Proofs.Grammar
import Summand.Proofs.SourceReading

/-! The sources that are read without a placeholder and to their end are the
sentences of the grammar. Reading never fails, so that it found everything is told
from its result: complete tokens are taken to the last one and mended nowhere, and
tokens that are taken to the last one without mending are complete. -/
namespace Summand.Acceptance
open Segmentation Significance SumReading SourceReading Grammar TokenBuffer

/-- Whether a source is read without a placeholder and to its end. -/
def Accepted (source : String) : Prop :=
  let read := (TokenBuffer.ofSource source).value.parse.value
  (∀ leaf ∈ read.1.leaves, leaf.isMissing = false) ∧ read.2.current.kind = .endOfFile

variable {due : Bool} {tokens : List Token} {source : String}

/-- Reading stops behind the last of complete tokens, and not before. -/
theorem complete_run (complete : Complete due tokens) {last : Token}
    (ends : last.kind = .endOfFile) : sumRun due (tokens ++ [last]) = tokens := by
  induction tokens generalizing due with
  | nil => simp [sumRun, ends, Kind.isAdditive]
  | cons token rest ih =>
    cases due with
    | true =>
      obtain ⟨number, later⟩ : token.kind = .number ∧ Complete false rest := complete
      simp [sumRun, number, Kind.isAdditive, ih later]
    | false =>
      obtain ⟨additive, later⟩ : token.kind.isAdditive = true ∧ Complete true rest := complete
      simp [sumRun, additive, ih later]

theorem complete_mended (complete : Complete due tokens) (index : Nat) :
    mended index due tokens = tokens := by
  induction tokens generalizing due index with
  | nil => simp [mended, gap, show due = false from complete]
  | cons token rest ih =>
    cases due with
    | true =>
      obtain ⟨number, later⟩ : token.kind = .number ∧ Complete false rest := complete
      rw [mended_number number, ih later]
    | false =>
      obtain ⟨additive, later⟩ : token.kind.isAdditive = true ∧ Complete true rest := complete
      rw [mended_not_due, additive, ih later]

/-- Mendable tokens that need no mending are complete. -/
theorem complete_of_present {index : Nat} (mendable : MendableAt due tokens)
    (present : ∀ token ∈ mended index due tokens, token.isMissing = false) :
    Complete due tokens := by
  induction tokens generalizing due index with
  | nil =>
    cases due with
    | true => simp [mended, gap, Token.isMissing] at present
    | false => rfl
  | cons token rest ih =>
    rcases mendableAt_cons.mp mendable with ⟨additive, later⟩ | ⟨rfl, number, later⟩
    · cases due with
      | true =>
        have other := additive_not_number additive
        simp [mended, gap, other, Token.isMissing] at present
      | false =>
        rw [mended_not_due, additive] at present
        exact ⟨additive, ih later fun other member => present other (List.mem_cons_of_mem _ member)⟩
    · rw [mended_number number] at present
      exact ⟨number, ih later fun other member => present other (List.mem_cons_of_mem _ member)⟩

/-- Complete tokens are taken to the last one and mended nowhere. -/
theorem parse_complete (complete : Complete true (kept 0 source.toList)) :
    let read := (TokenBuffer.ofSource source).value.parse.value
    read.1.leaves = kept 0 source.toList ∧ LeansLeft read.1 ∧
      read.2.current = .endOfFile source.length := by
  intro read
  obtain ⟨final, leaves, leans⟩ := parse_exact (TokenBuffer.ofSource source).value
  rw [ahead_ofSource, complete_run complete rfl] at final leaves
  rw [complete_mended complete] at leaves
  refine ⟨leaves, leans, ?_⟩
  rw [show read.2 = _ from final, ofSource_value]
  exact current_outside (by simp [moved])

/-- Where no kept token is under the cursor, all of them have been taken. -/
theorem run_whole {count : Nat}
    (ended : (moved (TokenBuffer.ofSource source).value count).current.kind = .endOfFile) :
    (kept 0 source.toList).length ≤ count := by
  by_contra inside
  rw [not_le] at inside
  have under : (moved (TokenBuffer.ofSource source).value count).current =
      (kept 0 source.toList)[count] := by
    simp [ofSource_value, moved, current, tokenAt, inside]
  exact (kept_piece (List.getElem_mem inside)).2 (under ▸ ended)

/-- Reading that comes to the end of a source has taken all kept tokens, and it
has mended none of them if no placeholder is in the tree. -/
theorem complete_of_accepted (accepted : Accepted source) :
    Complete true (kept 0 source.toList) := by
  obtain ⟨present, ended⟩ := accepted
  obtain ⟨final, leaves, _⟩ := parse_exact (TokenBuffer.ofSource source).value
  have size : (TokenBuffer.ofSource source).value.body.size = (kept 0 source.toList).length := by
    simp [ofSource_value]
  have starts : (TokenBuffer.ofSource source).value.cursor = 0 := rfl
  have within := run_ends_before_file (starts ▸ Nat.zero_le _)
  have front := sumRun_front true (ahead (TokenBuffer.ofSource source).value)
  have inFront : kept 0 source.toList <+: ahead (TokenBuffer.ofSource source).value := by
    rw [ahead_ofSource]
    exact List.prefix_append ..
  have mendable := sumRun_mendable true (ahead (TokenBuffer.ofSource source).value)
  rw [final] at ended
  rw [leaves] at present
  rw [size, starts, Nat.zero_add] at within
  rw [(List.prefix_of_prefix_length_le front inFront within).eq_of_length
    (within.antisymm (run_whole ended))] at mendable present
  exact complete_of_present mendable present

/-- Reading a source finds every operand and comes to its end exactly when the
source is spelled as a sentence. The sentence is then the only one, and the tree
is the sum of it from the left, with the texts and places of its tokens. -/
theorem accepted_iff_sentence (source : String) :
    (Accepted source ↔ ∃ sentence : Sentence, sentence.characters = source.toList) ∧
      ∀ sentence : Sentence, sentence.characters = source.toList →
        (TokenBuffer.ofSource source).value.parse.value.1 = sentence.tree ∧
          ∀ other : Sentence, other.characters = source.toList → other = sentence := by
  rw [← complete_iff_sentence]
  refine ⟨⟨complete_of_accepted, fun complete => ?_⟩, fun sentence spelled => ⟨?_, ?_⟩⟩
  · obtain ⟨leaves, _, ended⟩ := parse_complete complete
    refine ⟨fun leaf member => ?_, by rw [ended]; rfl⟩
    rw [leaves] at member
    exact (kept_piece member).1
  · have complete := (complete_iff_sentence source).mpr ⟨sentence, spelled⟩
    obtain ⟨leaves, leans, _⟩ := parse_complete complete
    rw [← spelled, kept_sentence, ← sentence.tree_leaves] at leaves
    exact leansLeft_unique leans sentence.tree_leansLeft leaves
  · exact fun other spelledToo => sentence_unique (spelledToo.trans spelled.symm)

/-- A source with trivia inside is a sentence, and is read as one. -/
theorem difference_with_trivia_accepted : Accepted "7 -x10 " ∧
    (TokenBuffer.ofSource "7 -x10 ").value.parse.value.1 =
      .binary (.number { kind := .number, position := 0, text := some "7", value := some 7 })
        { kind := .minus, position := 2, text := some "-", value := none }
        (.number { kind := .number, position := 4, text := some "10", value := some 10 }) := by
  let seven : Operand :=
    { gap := [], digits := ['7'], idle := by simp
      numeric := List.all_eq_true.mp (by decide +kernel), nonempty := by simp }
  let ten : Operand :=
    { gap := ['x'], digits := ['1', '0'], idle := List.forall_mem_singleton.mpr (by decide +kernel)
      numeric := List.all_eq_true.mp (by decide +kernel), nonempty := by simp }
  let less : Addend :=
    { gap := [' '], sign := '-', operand := ten
      idle := List.forall_mem_singleton.mpr (by decide +kernel), additive := by simp }
  let sentence : Sentence :=
    { first := seven, addends := [less], trailer := [' ']
      idle := List.forall_mem_singleton.mpr (by decide +kernel) }
  obtain ⟨accepted, read⟩ := accepted_iff_sentence "7 -x10 "
  exact ⟨accepted.mpr ⟨sentence, rfl⟩, (read sentence rfl).1⟩

end Summand.Acceptance
