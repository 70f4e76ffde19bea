import Mathlib.Data.List.DropRight
import Summand.Proofs.Scanning
import Summand.Session.Input
import Summand.Text.Utf8

/-! What a line of input spells is its text without the carriage returns and line feeds that
close it. That is stated here apart from how a session trims a line, and so is which texts
are blank. A line spells one text and no other, and a session finds it. -/
namespace Summand.LineTexts
open Scanning

/-- A character that closes a line. -/
def Closing (c : Char) : Prop := c = '\r' ∨ c = '\n'

instance : DecidablePred Closing := fun c => inferInstanceAs (Decidable (c = '\r' ∨ c = '\n'))

/-- A text of white space and nothing else. -/
def AllBlank (text : String) : Prop := ∀ c ∈ text.toList, isBlank c = true

/-- A line spells a text if it is that text with closing characters behind it, any number of
them, and the text does not end in a closing character itself. -/
structure Spells (line : List UInt8) (text : String) : Prop where
  closed : ∃ ends : List Char, (∀ c ∈ ends, Closing c) ∧
    Utf8.decode? line = some (text ++ String.ofList ends)
  bare : ∀ c ∈ text.toList.getLast?, ¬ Closing c

/-- What a line spells. A line that is no text spells nothing. -/
def lineText (line : List UInt8) : String :=
  String.ofList (((Utf8.decode? line).getD "").toList.rdropWhile (Closing ·))

variable {line : List UInt8} {text : String}

theorem lineText_spells (decoded : Utf8.decode? line = some text) :
    Spells line (lineText line) := by
  rw [lineText, decoded, Option.getD_some]
  constructor
  · refine ⟨text.toList.rtakeWhile (Closing ·), fun c member => ?_, ?_⟩
    · simpa using List.mem_rtakeWhile_imp member
    · rw [decoded, ← String.ofList_append, List.rdropWhile_append_rtakeWhile, String.ofList_toList]
  · intro c last
    rw [String.toList_ofList, List.rdropWhile, List.getLast?_reverse] at last
    simpa using dropWhile_boundary last

/-- There is one text that a line spells. -/
theorem Spells.lineText_eq (spells : Spells line text) : lineText line = text := by
  obtain ⟨ends, closing, decoded⟩ := spells.closed
  -- Seen from the end, the closing characters are a run, and the text stops it.
  have behind : ∀ c ∈ ends.reverse, decide (Closing c) = true :=
    fun c member => decide_eq_true (closing c (List.mem_reverse.mp member))
  have stops : ∀ c ∈ text.toList.reverse.head?, decide (Closing c) = false := by
    rw [List.head?_reverse]
    exact fun c last => decide_eq_false (spells.bare c last)
  rw [lineText, decoded, Option.getD_some, List.rdropWhile, String.toList_append,
    String.toList_ofList, List.reverse_append, (run_stops behind stops).2, List.reverse_reverse,
    String.ofList_toList]

/-- A session trims a line to what it spells. -/
theorem trimLineEnd_decoded (decoded : Utf8.decode? line = some text) :
    trimLineEnd text = lineText line := by
  have same : isLineEnd = fun c => decide (Closing c) := by
    funext c
    exact (Bool.decide_or ..).symm
  rw [trimLineEnd, lineText, decoded, Option.getD_some, List.rdropWhile, same]

/-- A session takes a line for blank if it is all white space. -/
theorem isBlankText_iff : isBlankText text = true ↔ AllBlank text := List.all_eq_true

end Summand.LineTexts
