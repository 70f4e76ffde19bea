import Mathlib.Data.List.Forall2
import Summand.Proofs.AsciiBytes
import Summand.Proofs.Dialogue

/-! How the lines of an input end does not matter to a session. Line ends behind a line
neither make it a text nor keep it from being one, neither make it blank nor keep it from
being so, and what is shown of it is the same without them. Two inputs that differ only in
carriage returns in front of line feeds therefore take every writer through the same
session, whatever goes wrong with it, and use up the same number of lines. -/
namespace Summand.LineEndings
open AsciiBytes Dialogue Evaluation InputLines LineTexts Session
open Input (readLine)

/-- The byte that other systems put in front of a line feed. -/
def carriageReturn : UInt8 := 13

/-- Bytes beside the same bytes with any number of carriage returns put in right before
any line feed. -/
inductive Padded : List UInt8 → List UInt8 → Prop where
  | nil : Padded [] []
  | other {byte : UInt8} (plain : byte ≠ lineFeed) (later : Padded bytes padded) :
      Padded (byte :: bytes) (byte :: padded)
  | feed (count : Nat) (later : Padded bytes padded) : Padded (lineFeed :: bytes)
      (List.replicate count carriageReturn ++ lineFeed :: padded)

/-- A line is some bytes and closing characters behind them. -/
def Closes (head line : List UInt8) : Prop :=
  ∃ tail : List Char, (∀ c ∈ tail, Closing c) ∧
    line = head ++ tail.flatMap String.utf8EncodeChar

theorem closing_plain {c : Char} (closing : Closing c) : Ascii c ∧ isBlank c = true := by
  rcases closing with rfl | rfl
  · exact ⟨by decide, by decide⟩
  · exact ⟨by decide, by decide⟩

theorem allBlank_append {tail : List Char} (closing : ∀ c ∈ tail, Closing c) (text : String) :
    AllBlank (text ++ String.ofList tail) ↔ AllBlank text := by
  have blank : ∀ c ∈ tail, isBlank c = true := fun c member => (closing_plain (closing c member)).2
  rw [AllBlank, String.toList_append, String.toList_ofList, List.forall_mem_append]
  exact and_iff_left blank

variable {bytes padded head line other : List UInt8}

theorem Closes.decode? (closes : Closes head line) : ∃ tail : List Char,
    (∀ c ∈ tail, Closing c) ∧
      Utf8.decode? line = (Utf8.decode? head).map (· ++ String.ofList tail) := by
  obtain ⟨tail, closing, rfl⟩ := closes
  exact ⟨tail, closing, decode?_append (fun c member => (closing_plain (closing c member)).1) head⟩

theorem Closes.invalid_iff (closes : Closes head line) :
    Utf8.decode? line = none ↔ Utf8.decode? head = none := by
  obtain ⟨tail, _, decoded⟩ := closes.decode?
  rw [decoded, Option.map_eq_none_iff]

/-- Whatever is true of a text just as well with its line closed is true of the text of a line
exactly if it is of that of the bytes in front of its end. -/
theorem Closes.text_iff (closes : Closes head line) {holds : String → Prop}
    (kept : ∀ (text : String) (tail : List Char), (∀ c ∈ tail, Closing c) →
      (holds (text ++ String.ofList tail) ↔ holds text)) :
    (∃ text, Utf8.decode? line = some text ∧ holds text) ↔
      ∃ text, Utf8.decode? head = some text ∧ holds text := by
  obtain ⟨tail, closing, decoded⟩ := closes.decode?
  rw [decoded]
  cases Utf8.decode? head with
  | none => simp
  | some text => simp [kept text tail closing]

theorem Closes.showable_iff (closes : Closes head line) : Showable line ↔ Showable head :=
  closes.text_iff fun text _ closing => not_congr (allBlank_append closing text)

theorem Closes.blank_iff (closes : Closes head line) : Blank line ↔ Blank head :=
  closes.text_iff fun text _ closing => allBlank_append closing text

/-- A line spells what the bytes in front of its end spell. -/
theorem Closes.spells {text : String} (closes : Closes head line) (spells : Spells head text) :
    Spells line text := by
  obtain ⟨tail, closing, decoded⟩ := closes.decode?
  obtain ⟨⟨ends, closingEnds, found⟩, bare⟩ := spells
  refine ⟨⟨ends ++ tail, ?_, ?_⟩, bare⟩
  · exact List.forall_mem_append.mpr ⟨closingEnds, closing⟩
  · rw [decoded, found, Option.map_some, String.ofList_append, String.append_assoc]

theorem Closes.lineText (closes : Closes head line) : lineText line = lineText head := by
  cases found : Utf8.decode? head with
  | none => rw [LineTexts.lineText, LineTexts.lineText, closes.invalid_iff.mpr found, found]
  | some text => exact (closes.spells (lineText_spells found)).lineText_eq

theorem Padded.plain (plainBytes : lineFeed ∉ bytes) (inserted : Padded bytes padded) :
    padded = bytes := by
  induction inserted with
  | nil => rfl
  | other _ _ ih => rw [ih fun member => plainBytes (List.mem_cons_of_mem _ member)]
  | feed => exact absurd List.mem_cons_self plainBytes

/-- Carriage returns are put in behind a line, and the rest has its own. -/
theorem Padded.behind {rest : List UInt8} (plainHead : lineFeed ∉ head)
    (inserted : Padded (head ++ lineFeed :: rest) padded) : ∃ count later,
    padded = (head ++ List.replicate count carriageReturn) ++ lineFeed :: later ∧
      Padded rest later := by
  induction head generalizing padded with
  | nil =>
    cases inserted with
    | other plain => exact absurd rfl plain
    | feed count later => exact ⟨count, _, rfl, later⟩
  | cons byte head ih =>
    have other : byte ≠ lineFeed := fun same => plainHead (same ▸ List.mem_cons_self)
    cases inserted with
    | other _ later =>
      obtain ⟨count, behind, rfl, rest⟩ :=
        ih (fun member => plainHead (List.mem_cons_of_mem _ member)) later
      exact ⟨count, behind, rfl, rest⟩
    | feed => exact absurd rfl other

theorem readLine_feed (plain : lineFeed ∉ head) (rest : List UInt8) (broken : Bool) :
    readLine { bytes := head ++ lineFeed :: rest, broken } =
      .line (head ++ [lineFeed]) { bytes := rest, broken } := by
  have inside : ∀ byte ∈ head, (byte != lineFeed) = true :=
    fun byte member => bne_iff_ne.mpr fun same => plain (same ▸ member)
  obtain ⟨taken, behind⟩ := Scanning.run_stops inside
    (show ∀ byte ∈ (lineFeed :: rest).head?, (byte != lineFeed) = false by simp)
  have feed : Input.lineFeed = lineFeed := rfl
  simp only [readLine, feed, taken, behind]

/-- Carriage returns behind some bytes do not end a line. -/
theorem returns_plain (plain : lineFeed ∉ head) (count : Nat) :
    lineFeed ∉ head ++ List.replicate count carriageReturn := by
  have other : lineFeed ≠ carriageReturn := by decide
  simp [plain, List.mem_replicate, other]

/-- A line feed closes a line, also with carriage returns in front of it. -/
theorem closes_feed (head : List UInt8) (count : Nat) :
    Closes head ((head ++ List.replicate count carriageReturn) ++ [lineFeed]) := by
  refine ⟨List.replicate count '\r' ++ ['\n'], ?_, ?_⟩
  · intro c member
    rcases List.mem_append.mp member with member | member
    · exact .inl (List.eq_of_mem_replicate member)
    · exact .inr (List.mem_singleton.mp member)
  · have returns : (List.replicate count '\r').flatMap String.utf8EncodeChar =
        List.replicate count carriageReturn := by
      rw [List.flatMap_replicate]
      exact List.flatten_replicate_singleton
    rw [List.flatMap_append, returns, List.append_assoc]
    rfl

theorem Padded.refl (bytes : List UInt8) : Padded bytes bytes := by
  induction bytes with
  | nil => exact .nil
  | cons byte bytes ih =>
    by_cases feed : byte = lineFeed
    · exact feed ▸ .feed 0 ih
    · exact .other feed ih

variable {input rest : Input}

/-- What two inputs begin with that differ only in carriage returns put in: lines over the
same bytes, of which each is the first one of its input. -/
structure BeginAlike (input rest : Input) (padded later : List UInt8) (line other : List UInt8) :
    Prop where
  read : readLine { input with bytes := padded } = .line other { rest with bytes := later }
  inserted : Padded rest.bytes later
  common : ∃ head, Closes head line ∧ Closes head other
  lines : cutLines input.bytes = line :: cutLines rest.bytes
  others : cutLines padded = other :: cutLines later

theorem lines_alike (inserted : Padded input.bytes padded)
    (read : input.readLine = .line line rest) :
    ∃ other later, BeginAlike input rest padded later line other := by
  rcases readLine_cases input with
    ⟨head, behind, plain, parts, found⟩ | ⟨_, _, found⟩ | ⟨_, _, found⟩ |
      ⟨plain, nonempty, _, found⟩ <;>
    rw [read] at found <;> cases found
  · rw [parts] at inserted
    obtain ⟨count, later, rfl, insertedLater⟩ := inserted.behind plain
    have plainToo := returns_plain plain count
    refine ⟨_, later, readLine_feed plainToo later input.broken, insertedLater,
      ⟨head, ?_, closes_feed head count⟩, ?_, cutLines_feed plainToo later⟩
    · simpa using closes_feed head 0
    · rw [parts, cutLines_feed plain]
  · obtain rfl := inserted.plain plain
    have whole : cutLines input.bytes = input.bytes :: cutLines [] := cutLines_plain plain nonempty
    exact ⟨input.bytes, [], read, .nil, ⟨input.bytes, ⟨[], by simp⟩, ⟨[], by simp⟩⟩, whole, whole⟩

/-- The line that closes an input without a line, if reading it fails. -/
theorem failed_lines {count : Nat} (read : input.readLine = .failed count) :
    lineFeed ∉ input.bytes ∧ ∃ lines ≤ (cutLines input.bytes).length,
      count = ((cutLines input.bytes).take lines).flatten.length := by
  rcases readLine_cases input with
    ⟨_, _, _, _, found⟩ | ⟨plain, _, found⟩ | ⟨_, _, found⟩ | ⟨_, _, _, found⟩ <;>
    rw [read] at found <;> cases found
  refine ⟨plain, (cutLines input.bytes).length, Nat.le_refl _, ?_⟩
  rw [List.take_length, cutLines_flatten]

theorem ended_plain (read : input.readLine = .ended) : lineFeed ∉ input.bytes := by
  rcases readLine_cases input with
    ⟨_, _, _, _, found⟩ | ⟨_, _, found⟩ | ⟨empty, _, found⟩ | ⟨_, _, _, found⟩ <;>
    rw [read] at found <;> cases found
  simp [empty]

/-- Two terminals with the same writer, after some input was used up on each. -/
structure Level (used usedToo : Nat) (before beforeToo : Terminal) : Prop where
  output : beforeToo.output = before.output
  used : before.consumed = used
  usedToo : beforeToo.consumed = usedToo

/-- Two sessions end alike when some input was used up before: with the same result, the
same done to the writer, and as many of their lines used up. -/
structure EndAlike (lines others : List (List UInt8)) (used usedToo : Nat)
    (ending endingToo : Except IoError Unit × Terminal) : Prop where
  result : endingToo.1 = ending.1
  output : endingToo.2.output = ending.2.output
  stopped : ∃ count ≤ lines.length,
    ending.2.consumed = used + (lines.take count).flatten.length ∧
      endingToo.2.consumed = usedToo + (others.take count).flatten.length

variable {lines others : List (List UInt8)} {before beforeToo : Terminal} {used usedToo : Nat}
  {ending endingToo : Except IoError Unit × Terminal}

/-- Ending without using up anything. -/
theorem Level.endAlike (level : Level used usedToo before beforeToo)
    (result : Except IoError Unit) :
    EndAlike lines others used usedToo (result, before) (result, beforeToo) :=
  ⟨rfl, level.output, 0, Nat.zero_le _, level.used, level.usedToo⟩

/-- Ending behind a line that was used up first. -/
theorem EndAlike.behind
    (later : EndAlike lines others (used + line.length) (usedToo + other.length) ending endingToo) :
    EndAlike (line :: lines) (other :: others) used usedToo ending endingToo := by
  obtain ⟨result, output, count, inside, consumed, consumedToo⟩ := later
  refine ⟨result, output, count + 1, Nat.succ_le_succ inside, ?_, ?_⟩
  · rw [consumed, List.take_succ_cons, List.flatten_cons, List.length_append, Nat.add_assoc]
  · rw [consumedToo, List.take_succ_cons, List.flatten_cons, List.length_append, Nat.add_assoc]

theorem Level.consume (level : Level used usedToo before beforeToo) (count countToo : Nat) :
    Level (used + count) (usedToo + countToo)
      { before with consumed := before.consumed + count }
      { beforeToo with consumed := beforeToo.consumed + countToo } :=
  ⟨level.output, by rw [level.used], by rw [level.usedToo]⟩

/-- Whatever a session does to the writer first, it does to both or fails on both. -/
theorem Level.carried {first : Session α} {writing : Writing α} {next nextToo : α → Session Unit}
    (level : Level used usedToo before beforeToo) (carries : Carries first writing)
    (later : ∀ value middle middleToo, Level used usedToo middle middleToo →
      EndAlike lines others used usedToo (trial (next value) middle)
        (trial (nextToo value) middleToo)) :
    EndAlike lines others used usedToo (trial (first >>= next) before)
      (trial (first >>= nextToo) beforeToo) := by
  obtain ⟨log, passes, fails⟩ := carries before
  obtain ⟨logToo, passesToo, failsToo⟩ := carries beforeToo
  rw [level.output] at passesToo failsToo
  cases ran : writing before.output with
  | ok value output =>
    rw [trial_then (passes value output ran), trial_then (passesToo value output ran)]
    exact later value { before with output, log } { beforeToo with output, log := logToo }
      ⟨rfl, level.used, level.usedToo⟩
  | error error output =>
    rw [trial_error (fails error output ran), trial_error (failsToo error output ran)]
    have failed : Level used usedToo { before with output, log }
        { beforeToo with output, log := logToo } := ⟨rfl, level.used, level.usedToo⟩
    exact failed.endAlike _

/-- Sessions over inputs that differ only in carriage returns put in take the same course on
terminals with the same writer. -/
theorem run_alike (view : View) {shown : List (List UInt8)} {result : Except IoError Unit}
    {count : Nat} (course : Course input shown result count) (inserted : Padded input.bytes padded)
    (level : Level used usedToo before beforeToo) :
    EndAlike (cutLines input.bytes) (cutLines padded) used usedToo
      (trial (view.run input) before)
      (trial (view.run { input with bytes := padded }) beforeToo) := by
  induction course generalizing padded used usedToo before beforeToo with
  | @shows line _ _ _ _ _ read showable _ ih =>
    obtain ⟨other, later, begins⟩ := lines_alike inserted read
    obtain ⟨head, closes, closesToo⟩ := begins.common
    have showableToo : Showable other := closesToo.showable_iff.mpr (closes.showable_iff.mp showable)
    have same : lineText other = lineText line := closesToo.lineText.trans closes.lineText.symm
    rw [run_shows view read showable, run_shows view begins.read showableToo, begins.lines,
      begins.others, same]
    refine level.carried (carries_write _) fun _ middle middleToo asked => EndAlike.behind ?_
    refine (asked.consume line.length other.length).carried (evaluate_carries view _) ?_
    exact fun _ _ _ shown => ih begins.inserted shown
  | @blank line _ _ read blank =>
    obtain ⟨other, later, begins⟩ := lines_alike inserted read
    obtain ⟨head, closes, closesToo⟩ := begins.common
    have blankToo : Blank other := closesToo.blank_iff.mpr (closes.blank_iff.mp blank)
    rw [run_blank view read blank, run_blank view begins.read blankToo, begins.lines, begins.others]
    refine level.carried (carries_write _) fun _ middle middleToo asked => EndAlike.behind ?_
    exact (asked.consume line.length other.length).endAlike _
  | @invalid line _ _ read invalid =>
    obtain ⟨other, later, begins⟩ := lines_alike inserted read
    obtain ⟨head, closes, closesToo⟩ := begins.common
    have invalidToo := closesToo.invalid_iff.mpr (closes.invalid_iff.mp invalid)
    rw [run_invalid view read invalid, run_invalid view begins.read invalidToo, begins.lines,
      begins.others]
    refine level.carried (carries_write _) fun _ middle middleToo asked => EndAlike.behind ?_
    exact (asked.consume line.length other.length).endAlike _
  | ended read =>
    obtain rfl := inserted.plain (ended_plain read)
    rw [run_ended view read]
    refine level.carried (carries_write _) fun _ middle middleToo asked => ?_
    exact ⟨rfl, asked.output, 0, Nat.zero_le _, asked.used, asked.usedToo⟩
  | @failed _ count read =>
    obtain ⟨plain, lines, inside, used⟩ := failed_lines read
    obtain rfl := inserted.plain plain
    rw [run_failed view read]
    refine level.carried (carries_write _) fun _ middle middleToo asked => ?_
    have consumed := asked.consume count count
    exact ⟨rfl, consumed.output, lines, inside, used ▸ consumed.used, used ▸ consumed.usedToo⟩

/-- Bytes with carriage returns put in have the same lines, each with its own put in. -/
theorem cutLines_padded (inserted : Padded bytes padded) :
    List.Forall₂ Padded (cutLines bytes) (cutLines padded) := by
  induction inserted with
  | nil => exact .nil
  | @other bytes padded byte plain _ ih =>
    rw [cutLines, cutLines, if_neg plain, if_neg plain]
    generalize cutLines bytes = lines at ih ⊢
    generalize cutLines padded = others at ih ⊢
    cases ih with
    | nil => exact .cons (Padded.refl [byte]) .nil
    | cons line later => exact .cons (.other plain line) later
  | feed count _ ih =>
    rw [cutLines, if_pos rfl, ← List.nil_append (List.replicate count carriageReturn),
      cutLines_feed (returns_plain List.not_mem_nil count)]
    exact .cons (.feed count .nil) ih

/-- Carriage returns in front of line feeds are not noticed. With any number of them put
into an input, its lines stay the same but for them, and a session over it does the same to
any writer, whatever that writer does about it: the same bytes are taken, the same flushes
happen and the result is the same. Both sessions stop at the same line. -/
theorem returns_unnoticed (view : View) (broken : Bool) (sink : Sink)
    (inserted : Padded bytes padded) :
    let plain := trial (view.run { bytes, broken }) { output := sink }
    let spaced := trial (view.run { bytes := padded, broken }) { output := sink }
    spaced.1 = plain.1 ∧ spaced.2.output = plain.2.output ∧
      List.Forall₂ Padded (cutLines bytes) (cutLines padded) ∧
      ∃ count ≤ (cutLines bytes).length,
        plain.2.consumed = ((cutLines bytes).take count).flatten.length ∧
          spaced.2.consumed = ((cutLines padded).take count).flatten.length := by
  intro plain spaced
  obtain ⟨shown, result, count, course⟩ := course_exists { bytes, broken }
  have level : Level 0 0 { output := sink } { output := sink } := ⟨rfl, rfl, rfl⟩
  obtain ⟨same, output, lines, inside, used, usedToo⟩ := run_alike view course inserted level
  rw [Nat.zero_add] at used usedToo
  exact ⟨same, output, cutLines_padded inserted, lines, inside, used, usedToo⟩

/-- A pipe that closes within a listing does not notice them either, nor does a blank line. -/
theorem returns_unnoticed_by_closed_pipe :
    Padded [49, 10, 32, 10] [49, 13, 13, 10, 32, 13, 10] ∧
      (trial (View.run { mode := .tokens } { bytes := [49, 13, 13, 10, 32, 13, 10] })
          { output := { fault := some ⟨11, .refuse .closedPipe false⟩ } }).2.output =
        (trial (View.run { mode := .tokens } { bytes := [49, 10, 32, 10] })
          { output := { fault := some ⟨11, .refuse .closedPipe false⟩ } }).2.output := by
  have inserted : Padded [49, 10, 32, 10] [49, 13, 13, 10, 32, 13, 10] :=
    .other (by decide) (.feed 2 (.other (by decide) (.feed 1 .nil)))
  exact ⟨inserted, (returns_unnoticed _ false _ inserted).2.1⟩

end Summand.LineEndings
