import Summand.Proofs.Coloring
import Summand.Proofs.Dialogue
import Summand.Proofs.TreeAlphabet

/-! Color does nothing but wrap trees. A session that draws trees in color writes what it
writes without, but for the two sequences around each tree. No other byte that a terminal
takes for the beginning of a command is written, so that the sequences are paired whatever
the lines hold, and without them the output is the plain one. Listings have no color. -/
namespace Summand.ColorWrapping
open Coloring Dialogue Evaluation InputLines LineTexts TreeAlphabet

/-- The byte that terminal sequences begin with. -/
def escapeByte : UInt8 := 27

/-- What follows that byte where a color is set. -/
def escapeTail : List UInt8 := Utf8.encode "[38;5;10m"

/-- What follows it where all colors are taken back. -/
def resetTail : List UInt8 := Utf8.encode "[0m"

/-- Bytes that hold neither a terminal sequence nor a prompt. -/
def Inert (bytes : List UInt8) : Prop :=
  escapeByte ∉ bytes ∧ ¬ promptBytes <:+: bytes

/-- Bytes without the sequences for color, each deleted where it begins. -/
def uncolored : List UInt8 → List UInt8
  | [] => []
  | byte :: rest =>
    if escapeBytes Color.tree <+: byte :: rest then uncolored (rest.drop escapeTail.length)
    else if resetBytes <+: byte :: rest then uncolored (rest.drop resetTail.length)
    else byte :: uncolored rest
termination_by bytes => bytes.length
decreasing_by all_goals simp only [List.length_drop, List.length_cons]; omega

/-- Bytes with color beside the same bytes without: stretches that have no sequence in
them, and inert ones in between that are wrapped. -/
inductive Wrapped : List UInt8 → List UInt8 → Prop where
  | plain (silent : escapeByte ∉ bytes) : Wrapped bytes bytes
  | around (silent : escapeByte ∉ gap) (inert : Inert tree) (later : Wrapped colored plain) :
      Wrapped (gap ++ (escapeBytes Color.tree ++ (tree ++ (resetBytes ++ colored))))
        (gap ++ (tree ++ plain))

/-- The sequences for color in some bytes come in pairs, and the bytes are others with them
added. -/
structure OnlyColored (colored plain : List UInt8) : Prop where
  /-- A color that is set is taken back before the next sequence and the next prompt. -/
  closed : ∀ before after, colored = before ++ (escapeBytes Color.tree ++ after) →
    ∃ tree rest, after = tree ++ (resetBytes ++ rest) ∧ Inert tree
  /-- Colors are taken back only where one was set, behind the last sequence. -/
  opened : ∀ before after, colored = before ++ (resetBytes ++ after) →
    ∃ front tree, before = front ++ (escapeBytes Color.tree ++ tree) ∧ Inert tree
  /-- Without the sequences the bytes are the plain ones. -/
  deleted : uncolored colored = plain
  /-- The plain bytes hold no terminal sequence at all. -/
  silent : escapeByte ∉ plain

theorem escape_begins : escapeBytes Color.tree = escapeByte :: escapeTail := by decide

theorem reset_begins : resetBytes = escapeByte :: resetTail := by decide

theorem tails_quiet : escapeByte ∉ escapeTail ∧ escapeByte ∉ resetTail := by decide

/-- The second byte tells the two sequences apart. -/
theorem tails_apart (first second : List UInt8) : escapeTail ++ first ≠ resetTail ++ second := by
  intro same
  have short := congrArg (List.take 2) same
  rw [List.take_append_of_le_length (by decide), List.take_append_of_le_length (by decide)] at short
  exact absurd short (by decide)

variable {quiet rest before after colored plain bytes tree : List UInt8}

/-- An escape byte that is pointed at is the first one there is or stands behind it. -/
theorem escape_split (silent : escapeByte ∉ quiet)
    (same : quiet ++ escapeByte :: rest = before ++ escapeByte :: after) :
    (before = quiet ∧ after = rest) ∨ ∃ between,
      before = quiet ++ escapeByte :: between ∧ rest = between ++ escapeByte :: after := by
  rcases List.append_eq_append_iff.mp same with ⟨more, rfl, later⟩ | ⟨more, rfl, later⟩
  · cases more with
    | nil =>
      cases later
      exact .inl ⟨List.append_nil quiet, rfl⟩
    | cons byte more =>
      obtain ⟨rfl, moved⟩ := List.cons.inj later
      exact .inr ⟨more, rfl, moved⟩
  · cases more with
    | nil =>
      cases later
      exact .inl ⟨(List.append_nil before).symm, rfl⟩
    | cons byte more =>
      obtain ⟨rfl, _⟩ := List.cons.inj later
      exact absurd (by simp) silent

/-- Each escape byte in wrapped bytes begins one of the two sequences of a pair, also with
quiet bytes in front of them. -/
theorem Wrapped.escapes (wrapped : Wrapped colored plain) (silent : escapeByte ∉ quiet)
    (found : quiet ++ colored = before ++ escapeByte :: after) :
    (∃ tree rest, after = escapeTail ++ (tree ++ (resetBytes ++ rest)) ∧ Inert tree) ∨
      ∃ front tree rest, before = front ++ (escapeBytes Color.tree ++ tree) ∧
        after = resetTail ++ rest ∧ Inert tree := by
  induction wrapped generalizing quiet before with
  | @plain bytes silentToo =>
    have member : escapeByte ∈ quiet ++ bytes := by simp [found]
    exact absurd member (by simp [silent, silentToo])
  | @around gap tree colored _ silentToo inert _ ih =>
    have front : escapeByte ∉ quiet ++ gap := by simp [silent, silentToo]
    have inside : escapeByte ∉ escapeTail ++ tree := by simp [tails_quiet.1, inert.1]
    have parts : quiet ++ gap ++ escapeByte :: (escapeTail ++ tree ++ escapeByte ::
        (resetTail ++ colored)) = before ++ escapeByte :: after := by
      simpa [escape_begins, reset_begins] using found
    rcases escape_split front parts with ⟨_, rfl⟩ | ⟨behind, rfl, later⟩
    · exact .inl ⟨tree, colored, by simp [reset_begins], inert⟩
    · rcases escape_split inside later with ⟨rfl, rfl⟩ | ⟨between, rfl, last⟩
      · exact .inr ⟨quiet ++ gap, tree, colored, by simp [escape_begins], rfl, inert⟩
      · -- What is left of the reset is a quiet front of the bytes behind it.
        rcases ih tails_quiet.2 last with closed | ⟨front, drawn, rest, rfl, opened⟩
        · exact .inl closed
        · refine .inr ⟨quiet ++ gap ++ escapeByte :: (escapeTail ++ tree ++ escapeByte :: front),
            drawn, rest, ?_, opened⟩
          simp

theorem uncolored_escape (rest : List UInt8) :
    uncolored (escapeBytes Color.tree ++ rest) = uncolored rest := by
  have first : escapeBytes Color.tree <+: escapeByte :: (escapeTail ++ rest) :=
    ⟨rest, by rw [escape_begins, List.cons_append]⟩
  rw [escape_begins, List.cons_append, uncolored, if_pos first, List.drop_left]

theorem uncolored_reset (rest : List UInt8) : uncolored (resetBytes ++ rest) = uncolored rest := by
  have first : resetBytes <+: escapeByte :: (resetTail ++ rest) :=
    ⟨rest, by rw [reset_begins, List.cons_append]⟩
  have other : ¬ escapeBytes Color.tree <+: escapeByte :: (resetTail ++ rest) := by
    rw [escape_begins, List.prefix_cons_inj]
    rintro ⟨behind, same⟩
    exact tails_apart behind rest same
  rw [reset_begins, List.cons_append, uncolored, if_neg other, if_pos first, List.drop_left]

theorem uncolored_quiet (silent : escapeByte ∉ quiet) (rest : List UInt8) :
    uncolored (quiet ++ rest) = quiet ++ uncolored rest := by
  induction quiet with
  | nil => rfl
  | cons byte quiet ih =>
    have other : escapeByte ≠ byte := fun same => silent (same ▸ List.mem_cons_self)
    have noEscape : ¬ escapeBytes Color.tree <+: byte :: (quiet ++ rest) := by
      simp [escape_begins, List.cons_prefix_cons, other]
    have noReset : ¬ resetBytes <+: byte :: (quiet ++ rest) := by
      simp [reset_begins, List.cons_prefix_cons, other]
    rw [List.cons_append, uncolored, if_neg noEscape, if_neg noReset,
      ih fun member => silent (List.mem_cons_of_mem _ member), List.cons_append]

theorem Wrapped.deleted (wrapped : Wrapped colored plain) : uncolored colored = plain := by
  induction wrapped with
  | @plain bytes silent =>
    have deleted := uncolored_quiet silent []
    rwa [List.append_nil, uncolored, List.append_nil] at deleted
  | around silent inert _ ih =>
    rw [uncolored_quiet silent, uncolored_escape, uncolored_quiet inert.1, uncolored_reset, ih]

theorem Wrapped.silent (wrapped : Wrapped colored plain) : escapeByte ∉ plain := by
  induction wrapped with
  | plain silent => exact silent
  | around silent inert _ ih => simp [silent, inert.1, ih]

theorem Wrapped.onlyColored (wrapped : Wrapped colored plain) : OnlyColored colored plain where
  closed before after found := by
    rw [escape_begins, List.cons_append] at found
    rcases wrapped.escapes List.not_mem_nil found with
      ⟨tree, rest, same, inert⟩ | ⟨_, _, rest, _, same, _⟩
    · exact ⟨tree, rest, List.append_cancel_left same, inert⟩
    · exact absurd same (tails_apart after rest)
  opened before after found := by
    rw [reset_begins, List.cons_append] at found
    rcases wrapped.escapes List.not_mem_nil found with
      ⟨tree, rest, same, _⟩ | ⟨front, tree, _, split, _, inert⟩
    · exact absurd same.symm (tails_apart _ after)
    · exact ⟨front, tree, split, inert⟩
  deleted := wrapped.deleted
  silent := wrapped.silent

/-- How trees are shown without color. -/
def plainTree : View := { mode := .tree }

/-- The dialogue in which the tree of each line shown stands between some bytes. -/
def treeDialogue (left right : List UInt8) (shown : List (List UInt8)) : List UInt8 :=
  (shown.flatMap fun line => promptBytes ++ (left ++ output plainTree (lineText line) ++ right)) ++
    promptBytes

/-- The tree of a line holds no terminal sequence and no prompt, whatever the line holds. -/
theorem tree_inert (line : String) : Inert (output plainTree line) := by
  refine ⟨tree_without (c := '\x1b') (by decide) (by decide) line, fun prompted => ?_⟩
  have bracket : UInt8.ofNat '['.toNat ∈ promptBytes := by decide
  exact tree_without (by decide) (by decide) line (prompted.subset bracket)

theorem treeDialogue_wrapped (shown : List (List UInt8)) : Wrapped
    (treeDialogue (escapeBytes Color.tree) resetBytes shown) (treeDialogue [] [] shown) := by
  have prompt : escapeByte ∉ promptBytes := by decide
  induction shown with
  | nil => simpa [treeDialogue] using Wrapped.plain prompt
  | cons line shown ih =>
    have wrapped := Wrapped.around prompt (tree_inert (lineText line)) ih
    simpa [treeDialogue] using wrapped

theorem tree_wrapped (line : String) : Wrapped
    (escapeBytes Color.tree ++ output plainTree line ++ resetBytes) (output plainTree line) := by
  have silent : escapeByte ∉ [] := by simp
  have wrapped := Wrapped.around silent (tree_inert line) (.plain silent)
  simpa using wrapped

/-- A session does nothing with its view but to show lines. -/
theorem run_congr {view other : View} (same : ∀ line, view.evaluate line = other.evaluate line)
    (input : Input) : view.run input = other.run input := by
  obtain ⟨shown, outcome, count, course⟩ := course_exists input
  induction course with
  | shows read showable _ ih =>
    rw [run_shows view read showable, run_shows other read showable, same, ih]
  | blank read blank => rw [run_blank view read blank, run_blank other read blank]
  | invalid read invalid => rw [run_invalid view read invalid, run_invalid other read invalid]
  | ended read => rw [run_ended view read, run_ended other read]
  | failed read => rw [run_failed view read, run_failed other read]

/-- Color wraps trees and does nothing else. Where no write fails, a session in color shows
the same lines as one without, ends the same way and uses up as much of the input; what it
writes has the sequence that sets the color right in front of each tree and the one that
takes it back right behind, in pairs, and is the plain output without them. A line by
itself is shown in the same way. The plain output holds no terminal sequence, since trees
are drawn with newlines, blanks, letters, digits and branches whatever the line is made of.
Listings are the same with color and without on every terminal, in all that is done to it. -/
theorem color_wraps_trees (input : Input) (line : String) (color : Bool) :
    (∃ shown outcome count, Course input shown outcome count ∧
      Delivers (coloredTree.run input) outcome
        (treeDialogue (escapeBytes Color.tree) resetBytes shown) (shown.flatten.length + count) ∧
      Delivers (plainTree.run input) outcome (treeDialogue [] [] shown)
        (shown.flatten.length + count) ∧
      OnlyColored (treeDialogue (escapeBytes Color.tree) resetBytes shown)
        (treeDialogue [] [] shown)) ∧
    (Delivers (coloredTree.evaluate line) (.ok ())
        (escapeBytes Color.tree ++ output plainTree line ++ resetBytes) 0 ∧
      Delivers (plainTree.evaluate line) (.ok ()) (output plainTree line) 0 ∧
      OnlyColored (escapeBytes Color.tree ++ output plainTree line ++ resetBytes)
        (output plainTree line) ∧
      ∃ text, output plainTree line = Utf8.encode text ∧ ∀ c ∈ text.toList, Drawable c) ∧
    View.run { mode := .tokens, color } input = View.run { mode := .tokens } input ∧
      View.evaluate { mode := .tokens, color } line = View.evaluate { mode := .tokens } line := by
  have painted : ∀ line, output coloredTree line =
      escapeBytes Color.tree ++ output plainTree line ++ resetBytes := output_colored
  have listed : ∀ line, View.evaluate { mode := .tokens, color } line =
      View.evaluate { mode := .tokens } line := fun _ => rfl
  refine ⟨?_, ⟨?_, delivers_evaluate plainTree line, (tree_wrapped line).onlyColored,
    tree_drawable line⟩, run_congr listed input, listed line⟩
  · obtain ⟨shown, outcome, count, course⟩ := course_exists input
    have colored := run_delivers coloredTree course
    have plain := run_delivers plainTree course
    refine ⟨shown, outcome, count, course, ?_, ?_, (treeDialogue_wrapped shown).onlyColored⟩
    · simpa only [dialogue, treeDialogue, painted] using colored
    · simpa only [dialogue, treeDialogue, List.nil_append, List.append_nil] using plain
  · rw [← painted]
    exact delivers_evaluate coloredTree line

end Summand.ColorWrapping
