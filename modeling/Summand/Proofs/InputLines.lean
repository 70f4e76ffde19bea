import Mathlib.Data.List.TakeWhile
import Summand.Proofs.LineTexts
import Summand.Session.View

/-! Input is cut into lines apart from reading it: after each line feed, and
nowhere else. The course of a session over an input, which lines it shows and
why it stops, is a relation of its own. Every input has a course, and the lines
of the input together with the place where reading fails settle it. -/
namespace Summand.InputLines
open Input LineTexts

/-- The byte that ends a line. -/
def lineFeed : UInt8 := 10

/-- Bytes cut after each line feed. The last line may lack one. -/
def cutLines : List UInt8 → List (List UInt8)
  | [] => []
  | byte :: rest =>
    if byte = lineFeed then [byte] :: cutLines rest
    else
      match cutLines rest with
      | [] => [[byte]]
      | line :: lines => (byte :: line) :: lines

theorem cutLines_flatten (bytes : List UInt8) : (cutLines bytes).flatten = bytes := by
  induction bytes with
  | nil => rfl
  | cons byte rest ih =>
    simp only [cutLines]
    split
    · simp [ih]
    · split <;> rename_i found <;> rw [found] at ih <;> simp [← ih]

theorem cutLines_feed {head : List UInt8} (plain : lineFeed ∉ head) (rest : List UInt8) :
    cutLines (head ++ lineFeed :: rest) = (head ++ [lineFeed]) :: cutLines rest := by
  induction head with
  | nil => simp [cutLines]
  | cons byte head ih =>
    have other : byte ≠ lineFeed := fun same => plain (same ▸ List.mem_cons_self)
    have later : lineFeed ∉ head := fun found => plain (List.mem_cons_of_mem _ found)
    simp [cutLines, other, ih later]

theorem cutLines_plain {bytes : List UInt8} (plain : lineFeed ∉ bytes) (nonempty : bytes ≠ []) :
    cutLines bytes = [bytes] := by
  induction bytes with
  | nil => exact absurd rfl nonempty
  | cons byte rest ih =>
    have other : byte ≠ lineFeed := fun same => plain (same ▸ List.mem_cons_self)
    have later : lineFeed ∉ rest := fun found => plain (List.mem_cons_of_mem _ found)
    cases rest with
    | nil => simp [cutLines, other]
    | cons next rest => rw [cutLines, if_neg other, ih later (by simp)]

example : cutLines [49, 10, 10, 50] = [[49, 10], [10], [50]] := by decide

/-- Everything that reading a line can find: a line through its line feed, the
point where reading fails, the end of input, or a last line without line feed. -/
theorem readLine_cases (input : Input) :
    (∃ head rest, lineFeed ∉ head ∧ input.bytes = head ++ lineFeed :: rest ∧
      input.readLine = .line (head ++ [lineFeed]) { input with bytes := rest }) ∨
    (lineFeed ∉ input.bytes ∧ input.broken = true ∧
      input.readLine = .failed input.bytes.length) ∨
    (input.bytes = [] ∧ input.broken = false ∧ input.readLine = .ended) ∨
    (lineFeed ∉ input.bytes ∧ input.bytes ≠ [] ∧ input.broken = false ∧
      input.readLine = .line input.bytes { input with bytes := [] }) := by
  have feed : Input.lineFeed = lineFeed := rfl
  have parts : input.bytes.takeWhile (· != lineFeed) ++ input.bytes.dropWhile (· != lineFeed) =
      input.bytes := List.takeWhile_append_dropWhile
  have plain : lineFeed ∉ input.bytes.takeWhile (· != lineFeed) := by
    intro found
    simpa using List.mem_takeWhile_imp found
  cases behind : input.bytes.dropWhile (· != lineFeed) with
  | cons feed rest =>
    have ends : feed = lineFeed := by
      have stops := List.head_dropWhile_not (· != lineFeed) (l := input.bytes) (by simp [behind])
      simpa [behind] using stops
    subst ends
    refine .inl ⟨_, rest, plain, ?_, ?_⟩
    · rw [← behind, parts]
    · simp [readLine, feed, behind]
  | nil =>
    rw [behind, List.append_nil] at parts
    rw [parts] at plain
    cases broken : input.broken with
    | true => exact .inr (.inl ⟨plain, rfl, by simp [readLine, feed, behind, parts, broken]⟩)
    | false =>
      by_cases empty : input.bytes = []
      · exact .inr (.inr (.inl ⟨empty, rfl, by simp [readLine, empty, broken]⟩))
      · refine .inr (.inr (.inr ⟨plain, empty, rfl, ?_⟩))
        simp [readLine, feed, behind, parts, broken, empty]

/-- A line that is text and not blank. -/
def Showable (line : List UInt8) : Prop :=
  ∃ text, Utf8.decode? line = some text ∧ ¬ AllBlank text

/-- A line that is blank text. -/
def Blank (line : List UInt8) : Prop :=
  ∃ text, Utf8.decode? line = some text ∧ AllBlank text

/-- The course of a session over an input: the lines it shows, how it ends, and
how many bytes it uses up behind the lines shown. -/
inductive Course : Input → List (List UInt8) → Except IoError Unit → Nat → Prop where
  | shows (read : input.readLine = .line line rest) (showable : Showable line)
      (later : Course rest shown outcome count) : Course input (line :: shown) outcome count
  | blank (read : input.readLine = .line line rest) (blank : Blank line) :
      Course input [] (.ok ()) line.length
  | invalid (read : input.readLine = .line line rest) (invalid : Utf8.decode? line = none) :
      Course input [] (.error .invalidUtf8) line.length
  | ended (read : input.readLine = .ended) : Course input [] (.ok ()) 0
  | failed (read : input.readLine = .failed count) : Course input [] (.error .readFailed) count

/-- Every input has a course, since each line read leaves less of it. -/
theorem course_exists (input : Input) : ∃ shown outcome count, Course input shown outcome count := by
  induction size : input.bytes.length using Nat.strongRecOn generalizing input with
  | ind size' ih =>
    subst size
    cases read : input.readLine with
    | ended => exact ⟨_, _, _, .ended read⟩
    | failed count => exact ⟨_, _, _, .failed read⟩
    | line line rest =>
      cases decoded : Utf8.decode? line with
      | none => exact ⟨_, _, _, .invalid read decoded⟩
      | some text =>
        by_cases blank : AllBlank text
        · exact ⟨_, _, _, .blank read ⟨text, decoded, blank⟩⟩
        · obtain ⟨shown, outcome, count, later⟩ := ih _ (length_lt_of_line read) rest rfl
          exact ⟨_, _, _, .shows read ⟨text, decoded, blank⟩ later⟩

/-- Lines that begin at an offset are all ended by a line feed before reading
fails, if it fails at all. -/
def Terminated (cutoff : Option Nat) (start : Nat) (lines : List (List UInt8)) : Prop :=
  ∀ point ∈ cutoff, start + lines.flatten.length ≤ point ∧
    ∀ line ∈ lines, line.getLast? = some lineFeed

/-- Why a session stops in front of lines that begin at an offset, how it ends,
and how many bytes it still uses up. A line that reading fails in is neither
blank nor invalid. -/
inductive Stops : Option Nat → Nat → List (List UInt8) → Except IoError Unit → Nat → Prop where
  | blank (whole : Terminated cutoff start [line]) (blank : Blank line) :
      Stops cutoff start (line :: later) (.ok ()) line.length
  | invalid (whole : Terminated cutoff start [line]) (invalid : Utf8.decode? line = none) :
      Stops cutoff start (line :: later) (.error .invalidUtf8) line.length
  | ended : Stops none start [] (.ok ()) 0
  | failed (cut : ∀ line ∈ next.head?, ¬ Terminated (some (start + count)) start [line]) :
      Stops (some (start + count)) start next (.error .readFailed) count

/-- Where an input stands among all bytes: at an offset, with reading to fail
right behind its own bytes and the bytes beyond out of reach. -/
structure Situated (cutoff : Option Nat) (start : Nat) (input : Input) (beyond : List UInt8) :
    Prop where
  broken : input.broken = cutoff.isSome
  point : ∀ point ∈ cutoff, point = start + input.bytes.length
  beyond : cutoff = none → beyond = []

variable {cutoff : Option Nat} {start : Nat} {input rest : Input} {beyond line : List UInt8}

theorem Situated.terminated_nil (situated : Situated cutoff start input beyond) :
    Terminated cutoff start [] := by
  intro point fails
  rw [situated.point point fails]
  exact ⟨Nat.le_add_right .., by simp⟩

/-- A line that is read is the next line of all bytes, ended before reading fails. -/
theorem line_cut (situated : Situated cutoff start input beyond)
    (read : input.readLine = .line line rest) :
    Terminated cutoff start [line] ∧
      cutLines (input.bytes ++ beyond) = line :: cutLines (rest.bytes ++ beyond) ∧
      Situated cutoff (start + line.length) rest beyond := by
  rcases readLine_cases input with
    ⟨head, behind, plain, parts, found⟩ | ⟨_, _, found⟩ | ⟨_, _, found⟩ |
      ⟨plain, nonempty, sound, found⟩ <;>
    rw [read] at found <;> cases found
  · have size : input.bytes.length = (head ++ [lineFeed]).length + behind.length := by
      rw [parts]
      simp
      omega
    refine ⟨fun point fails => ?_, ?_, situated.broken, fun point fails => ?_, situated.beyond⟩
    · have reached := situated.point point fails
      simp only [List.flatten_singleton]
      exact ⟨by omega, by simp⟩
    · rw [parts, List.append_assoc, List.cons_append, cutLines_feed plain]
    · have reached := situated.point point fails
      show point = _ + behind.length
      omega
  · have never : cutoff = none := by
      simpa [sound] using situated.broken
    have last := situated.beyond never
    subst never last
    refine ⟨by simp [Terminated], ?_, situated.broken, by simp, fun _ => rfl⟩
    simp [cutLines_plain plain nonempty, cutLines]

/-- Input ends only where there is nothing more and reading does not fail. -/
theorem ended_cut (situated : Situated cutoff start input beyond) (read : input.readLine = .ended) :
    cutoff = none ∧ cutLines (input.bytes ++ beyond) = [] := by
  rcases readLine_cases input with
    ⟨_, _, _, _, found⟩ | ⟨_, _, found⟩ | ⟨empty, sound, found⟩ | ⟨_, _, _, found⟩ <;>
    rw [read] at found <;> cases found
  have never : cutoff = none := by
    simpa [sound] using situated.broken
  exact ⟨never, by rw [empty, situated.beyond never]; rfl⟩

/-- Reading fails only in front of a line that is not ended before. -/
theorem failed_cut {count : Nat} (situated : Situated cutoff start input beyond)
    (read : input.readLine = .failed count) :
    cutoff = some (start + count) ∧ ∀ line ∈ (cutLines (input.bytes ++ beyond)).head?,
      ¬ Terminated (some (start + count)) start [line] := by
  rcases readLine_cases input with
    ⟨_, _, _, _, found⟩ | ⟨plain, broken, found⟩ | ⟨_, _, found⟩ | ⟨_, _, _, found⟩ <;>
    rw [read] at found <;> cases found
  obtain ⟨point, fails⟩ : ∃ point, cutoff = some point := by
    rw [← Option.isSome_iff_exists, ← situated.broken, broken]
  refine ⟨by rw [fails, situated.point point fails], fun line first terminated => ?_⟩
  obtain ⟨bound, closed⟩ := terminated _ rfl
  have front : line <+: input.bytes ++ beyond := by
    obtain ⟨later, lines⟩ := List.head?_eq_some_iff.mp first
    exact ⟨later.flatten, by rw [← cutLines_flatten (input.bytes ++ beyond), lines]; rfl⟩
  have inside : line <+: input.bytes :=
    List.prefix_of_prefix_length_le front (List.prefix_append ..) (by simpa using bound)
  exact plain (inside.subset (List.mem_of_getLast? (closed line (by simp))))

theorem Terminated.cons {shown : List (List UInt8)} (first : Terminated cutoff start [line])
    (later : Terminated cutoff (start + line.length) shown) :
    Terminated cutoff start (line :: shown) := by
  intro point fails
  obtain ⟨_, closed⟩ := first point fails
  obtain ⟨bound, others⟩ := later point fails
  refine ⟨?_, ?_⟩
  · simp only [List.flatten_cons, List.length_append]
    omega
  · rintro found (_ | ⟨_, member⟩)
    · exact closed _ (by simp)
    · exact others found member

/-- The course of a session is settled by the lines of all bytes: it shows lines
as long as they are ended in time and showable, and the first other one says why
it stops. -/
theorem course_lines {shown : List (List UInt8)} {outcome : Except IoError Unit} {count : Nat}
    (course : Course input shown outcome count) (situated : Situated cutoff start input beyond) :
    ∃ next, cutLines (input.bytes ++ beyond) = shown ++ next ∧
      (∀ line ∈ shown, Showable line) ∧ Terminated cutoff start shown ∧
      Stops cutoff (start + shown.flatten.length) next outcome count := by
  induction course generalizing start with
  | shows read showable later ih =>
    obtain ⟨whole, lines, moved⟩ := line_cut situated read
    obtain ⟨next, more, showables, terminated, stops⟩ := ih moved
    refine ⟨next, by rw [lines, more]; rfl, ?_, whole.cons terminated, ?_⟩
    · simpa using ⟨showable, showables⟩
    · simpa [Nat.add_assoc] using stops
  | blank read blank =>
    obtain ⟨whole, lines, _⟩ := line_cut situated read
    exact ⟨_, lines, by simp, situated.terminated_nil, .blank whole blank⟩
  | invalid read invalid =>
    obtain ⟨whole, lines, _⟩ := line_cut situated read
    exact ⟨_, lines, by simp, situated.terminated_nil, .invalid whole invalid⟩
  | ended read =>
    obtain ⟨rfl, lines⟩ := ended_cut situated read
    exact ⟨_, lines, by simp, situated.terminated_nil, .ended⟩
  | failed read =>
    obtain ⟨rfl, cut⟩ := failed_cut situated read
    exact ⟨_, rfl, by simp, situated.terminated_nil, .failed cut⟩

theorem situated_ofBytes {bytes : List UInt8} (within : ∀ point ∈ cutoff, point ≤ bytes.length) :
    ∃ beyond, bytes = (ofBytes bytes cutoff).bytes ++ beyond ∧
      Situated cutoff 0 (ofBytes bytes cutoff) beyond := by
  cases cutoff with
  | none => exact ⟨[], by simp [ofBytes], rfl, by simp, fun _ => rfl⟩
  | some point =>
    have bound := within point rfl
    refine ⟨bytes.drop point, by simp [ofBytes, bound], by simp [ofBytes, bound], ?_, by simp⟩
    simp [ofBytes, bound]

end Summand.InputLines
