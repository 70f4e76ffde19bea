import Mathlib.Data.List.DropRight
import Summand.Cli.Outcome
import Summand.Proofs.LineEndings
import Summand.Proofs.ListingRecovery
import Summand.Proofs.Seams
import Summand.Proofs.SourceReading

/-! A text of one line may be shown by itself or be typed as the only line of an input.
Typed, it loses the carriage returns at its end, since those count as part of the line end.
A tree does not show the difference, for they are trivia behind the last token. A listing
does, for it gives every character of its source. -/
namespace Summand.SingleLine
open AsciiBytes Dialogue Evaluation InputLines LineEndings LineTexts ListingRecovery
open Scanning Seams Segmentation Significance SourceReading
open Input (readLine)

/-- A text without the carriage returns at its end. -/
def withoutReturns (text : String) : String :=
  String.ofList (text.toList.rdropWhile (· = '\r'))

/-- The bytes that may stand behind the text of the only line of an input: none, or
carriage returns and a line feed. -/
def LineEnding (ending : List UInt8) : Prop :=
  ending = [] ∨ ∃ count, ending = List.replicate count carriageReturn ++ [lineFeed]

variable {text : String} {ending : List UInt8}

theorem returns_behind (text : String) : ∃ returns : List Char, (∀ c ∈ returns, c = '\r') ∧
    withoutReturns text ++ String.ofList returns = text := by
  refine ⟨text.toList.rtakeWhile (· = '\r'), fun c member => ?_, ?_⟩
  · simpa using List.mem_rtakeWhile_imp member
  · rw [withoutReturns, ← String.ofList_append, List.rdropWhile_append_rtakeWhile,
      String.ofList_toList]

theorem withoutReturns_eq_self_iff :
    withoutReturns text = text ↔ text.toList.getLast? ≠ some '\r' := by
  rw [withoutReturns, ← String.toList_inj, String.toList_ofList, List.rdropWhile_eq_self_iff]
  rcases List.eq_nil_or_concat text.toList with empty | ⟨front, last, split⟩
  · simp [empty]
  · simp [split]

/-- What is left of a text of one line does not end in a closing character. -/
theorem withoutReturns_last (single : '\n' ∉ text.toList) :
    ∀ c ∈ (withoutReturns text).toList.getLast?, ¬ Closing c := by
  intro c last
  rw [withoutReturns, String.toList_ofList] at last
  have inside : c ∈ text.toList :=
    (List.rdropWhile_prefix _ text.toList).subset (List.mem_of_mem_getLast? last)
  rw [List.rdropWhile, List.getLast?_reverse] at last
  have other : c ≠ '\r' := by simpa using dropWhile_boundary last
  have feed : c ≠ '\n' := fun same => single (same ▸ inside)
  exact fun closing => closing.elim other feed

/-- Only carriage returns close a text of one line. -/
theorem spells_single (single : '\n' ∉ text.toList) :
    Spells (Utf8.encode text) (withoutReturns text) := by
  obtain ⟨returns, all, joined⟩ := returns_behind text
  refine ⟨⟨returns, fun c member => .inl (all c member), ?_⟩, withoutReturns_last single⟩
  rw [joined, Utf8.decode?_encode]

theorem encode_plain (single : '\n' ∉ text.toList) : lineFeed ∉ Utf8.encode text := by
  intro member
  obtain ⟨c, inside, code⟩ := mem_encode_low member (by decide)
  have feed : c = '\n' := Char.toNat_inj.mp code
  exact single (feed ▸ inside)

/-- The whole input is read as one line over the text. -/
theorem read_single (single : '\n' ∉ text.toList) (visible : ¬ AllBlank text)
    (ends : LineEnding ending) :
    readLine { bytes := Utf8.encode text ++ ending } =
        .line (Utf8.encode text ++ ending) { bytes := [] } ∧
      Closes (Utf8.encode text) (Utf8.encode text ++ ending) := by
  have plain := encode_plain single
  rcases ends with rfl | ⟨count, rfl⟩
  · have nonempty : Utf8.encode text ≠ [] := by
      intro empty
      refine visible fun c inside => ?_
      exact absurd (List.flatMap_eq_nil_iff.mp empty c inside) String.utf8EncodeChar_ne_nil
    rw [List.append_nil]
    refine ⟨?_, [], by simp, by simp⟩
    rcases readLine_cases { bytes := Utf8.encode text } with
      ⟨head, rest, _, parts, _⟩ | ⟨_, broken, _⟩ | ⟨empty, _, _⟩ | ⟨_, _, _, found⟩
    · exact absurd (by rw [show Utf8.encode text = _ from parts]; simp) plain
    · cases broken
    · exact absurd empty nonempty
    · exact found
  · rw [← List.append_assoc]
    exact ⟨readLine_feed (returns_plain plain count) [] false,
      closes_feed (Utf8.encode text) count⟩

/-- A session over one line shows it without the carriage returns at its end. -/
theorem run_single (view : View) (single : '\n' ∉ text.toList) (visible : ¬ AllBlank text)
    (ends : LineEnding ending) :
    Delivers (view.run { bytes := Utf8.encode text ++ ending }) (.ok ())
      (promptBytes ++ output view (withoutReturns text) ++ promptBytes)
      (Utf8.encode text ++ ending).length := by
  obtain ⟨read, closes⟩ := read_single single visible ends
  have showable := closes.showable_iff.mpr ⟨text, Utf8.decode?_encode text, visible⟩
  have shown : lineText (Utf8.encode text ++ ending) = withoutReturns text :=
    (closes.spells (spells_single single)).lineText_eq
  have delivers := run_delivers view (.shows read showable (.ended rfl))
  simpa [dialogue, shown] using delivers

theorem return_trivia : Trivia '\r' := by decide +kernel

/-- Reading takes the same tokens whether carriage returns stand behind them or not. -/
theorem taken_withoutReturns (text : String) : taken (withoutReturns text) = taken text := by
  obtain ⟨returns, all, joined⟩ := returns_behind text
  have trivia : ∀ c ∈ returns, Trivia c := fun c member => all c member ▸ return_trivia
  have seam : Seam (withoutReturns text).toList returns := by
    intro last _ d first
    have plain := (trivia d (List.mem_of_mem_head? first)).1
    simp [plain]
  have behind := kept_gap (0 + (withoutReturns text).toList.length) trivia []
  rw [List.append_nil, kept_nil] at behind
  have whole : (withoutReturns text).toList ++ returns = text.toList := by
    rw [← String.toList_ofList (l := returns), ← String.toList_append, joined]
  rw [taken, taken, ← whole, kept_append seam, behind, List.append_nil]

theorem output_tree_withoutReturns {view : View} (drawn : view.mode = .tree) (text : String) :
    output view (withoutReturns text) = output view text := by
  obtain ⟨mode, color⟩ := view
  cases drawn
  have read : (Expr.ofSource (withoutReturns text)).value = (Expr.ofSource text).value :=
    (parse_determined (taken_withoutReturns text)).1
  have alike : ShownAlike { mode := .tree, color } (withoutReturns text) text :=
    shownAlike_tree color (by rw [read])
  exact congrArg (·.accepted.toList) (alike {}).2

/-- Only a text that ends in a carriage return is listed differently without it. -/
theorem output_tokens_withoutReturns {view : View} (listed : view.mode = .tokens)
    (text : String) : output view (withoutReturns text) = output view text ↔
      text.toList.getLast? ≠ some '\r' := by
  rw [output_tokens listed, output_tokens listed, ← withoutReturns_eq_self_iff]
  exact ⟨fun same => listing_injective same, fun same => by rw [same]⟩

/-- A text of one line that is not blank is shown by itself and as the only line of an input,
whatever carriage returns and line feed end it. Both succeed on every writer that never
fails. The session writes what is shown of the text without the carriage returns at its
end, between two prompts, and uses up the whole input. For a tree this is what is shown of
the text by itself, on the command line as well. For a listing it is so exactly if the text
does not end in a carriage return. -/
theorem session_agrees_with_expression (view : View) (single : '\n' ∉ text.toList)
    (visible : ¬ AllBlank text) :
    (∀ line, Delivers (view.evaluate line) (.ok ()) (output view line) 0) ∧
      (∀ (options : Cli.Options) canColor input, options.expression = some text →
        options.view canColor = view →
          Delivers (options.session canColor input) (.ok ()) (output view text) 0) ∧
      (∀ ending, LineEnding ending →
        Delivers (view.run { bytes := Utf8.encode text ++ ending }) (.ok ())
          (promptBytes ++ output view (withoutReturns text) ++ promptBytes)
          (Utf8.encode text ++ ending).length) ∧
      (view.mode = .tree → output view (withoutReturns text) = output view text) ∧
      (view.mode = .tokens → (output view (withoutReturns text) = output view text ↔
        text.toList.getLast? ≠ some '\r')) := by
  refine ⟨delivers_evaluate view, ?_, fun ending ends => run_single view single visible ends, ?_, ?_⟩
  · intro options canColor input stated asked
    rw [Cli.Options.session, stated]
    exact asked ▸ delivers_evaluate _ text
  · exact fun drawn => output_tree_withoutReturns drawn text
  · exact fun listed => output_tokens_withoutReturns listed text

/-- A carriage return on the command line is listed, and behind a typed number it is not. -/
theorem return_listed_on_command_line :
    '\n' ∉ "1\r".toList ∧ ¬ AllBlank "1\r" ∧
      output { mode := .tokens } (withoutReturns "1\r") ≠ output { mode := .tokens } "1\r" := by
  have single : '\n' ∉ "1\r".toList := by decide
  have visible : ¬ AllBlank "1\r" := fun blank =>
    absurd (blank '1' (by decide)) (by decide +kernel)
  obtain ⟨_, _, _, _, listed⟩ := session_agrees_with_expression { mode := .tokens } single visible
  refine ⟨single, visible, fun same => ?_⟩
  exact (listed rfl).mp same (by decide)

end Summand.SingleLine
