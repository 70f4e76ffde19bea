import Summand.Proofs.Evaluation
import Summand.Proofs.InputLines

/-! A session is a dialogue: prompts alternate with what is shown of the lines,
and the last prompt stands alone. On a writer that never fails this is all the
session writes, and the lines of the input settle how far it gets, how it ends
and how much input it uses up. -/
namespace Summand.Dialogue
open Delivery Evaluation InputLines LineTexts Session

/-- The bytes of a prompt. -/
def promptBytes : List UInt8 := Utf8.encode "c[_] >> "

/-- What a session writes for the lines it shows: what is shown of each one's text, behind a
prompt. -/
def dialogue (view : View) (shown : List (List UInt8)) : List UInt8 :=
  shown.flatMap fun line => promptBytes ++ output view (lineText line)

/-- What became of a terminal whose sink took some bytes and passed them on at
some lengths, while some bytes of input were used up. -/
structure Went (before after : Terminal) (bytes : List UInt8) (flushed : List Nat) (count : Nat) :
    Prop where
  output : Took before.output after.output bytes flushed
  consumed : after.consumed = before.consumed + count

theorem Went.refl (terminal : Terminal) : Went terminal terminal [] [] 0 := ⟨Took.refl _, rfl⟩

theorem Went.trans {first middle last : Terminal} {bytes later : List UInt8}
    {flushed flushedLater : List Nat} {count behind : Nat}
    (front : Went first middle bytes flushed count)
    (back : Went middle last later flushedLater behind) :
    Went first last (bytes ++ later) (flushed ++ flushedLater) (count + behind) where
  output := front.output.trans back.output
  consumed := by rw [back.consumed, front.consumed, Nat.add_assoc]

/-- On every terminal whose writer never fails, a session has an outcome, writes
exactly some bytes and uses up some bytes of input. -/
def Delivers (session : Session α) (outcome : Except IoError α) (bytes : List UInt8)
    (count : Nat) : Prop :=
  ∀ terminal, Reliable terminal.output → ∃ after flushed,
    trial session terminal = (outcome, after) ∧ Went terminal after bytes flushed count

variable {session first : Session α} {second : Session β} {value : α}
  {bytes later line : List UInt8} {count behind : Nat}

private theorem trial_ok {terminal after : Terminal}
    (ran : trial session terminal = (.ok value, after)) : session terminal = .ok value after := by
  unfold trial at ran
  split at ran <;> cases ran
  assumption

theorem Delivers.then {outcome : Except IoError β} (front : Delivers first (.ok value) bytes count)
    (back : Delivers second outcome later behind) :
    Delivers (do let _ ← first; second) outcome (bytes ++ later) (count + behind) := by
  intro terminal reliable
  obtain ⟨middle, flushed, ran, went⟩ := front terminal reliable
  obtain ⟨after, flushedLater, ranLater, wentLater⟩ := back middle (went.output.reliable reliable)
  refine ⟨after, flushed ++ flushedLater, ?_, went.trans wentLater⟩
  rw [trial_then (trial_ok ran), ranLater]

theorem delivers_carried {writing : Writing α} (carries : Carries session writing)
    (emits : Emits writing value bytes) : Delivers session (.ok value) bytes 0 := by
  intro terminal reliable
  obtain ⟨output, flushed, ran, took⟩ := emits terminal.output reliable
  obtain ⟨log, passes, _⟩ := carries terminal
  refine ⟨{ terminal with output, log }, flushed, ?_, took, rfl⟩
  rw [trial, passes value output ran]

theorem delivers_throw (error : IoError) :
    Delivers (throw error : Session Unit) (.error error) [] 0 :=
  fun terminal _ => ⟨terminal, [], rfl, Went.refl terminal⟩

theorem delivers_consume (count : Nat) : Delivers (consume count) (.ok ()) [] count :=
  fun _ _ => ⟨_, [], rfl, Took.refl _, rfl⟩

theorem delivers_invite : Delivers View.invite (.ok ()) promptBytes 0 := by
  have emits : Emits (do Writing.text View.prompt; Writing.flush) () (promptBytes ++ []) :=
    (writes_text View.prompt).emits.bind emits_flush
  exact List.append_nil promptBytes ▸ delivers_carried (carries_write _) emits

theorem delivers_evaluate (view : View) (text : String) :
    Delivers (view.evaluate text) (.ok ()) (output view text) 0 :=
  delivers_carried (evaluate_carries view text) (output_emits view text)

/-- What a session does once its prompt is passed on: it reads a line. -/
def proceed (view : View) (input : Input) : Session Unit :=
  match input.readLine with
  | .line bytes rest => do
    consume bytes.length
    if ← view.respond bytes then view.run rest
  | .ended => report [.endOfInput]
  | .failed count => do
    consume count
    throw .readFailed

theorem run_eq (view : View) (input : Input) :
    view.run input = (do View.invite; proceed view input) := by
  rw [View.run, proceed]
  split <;> rename_i found <;> rw [found]

/-- A line that is text and not blank is shown, and the session goes on. -/
theorem run_shows (view : View) {input rest : Input} (read : input.readLine = .line line rest)
    (showable : Showable line) : view.run input = (do
      View.invite
      consume line.length
      view.evaluate (lineText line)
      view.run rest) := by
  obtain ⟨text, decoded, visible⟩ := showable
  have shows : isBlankText text = false := Bool.eq_false_iff.mpr (mt isBlankText_iff.mp visible)
  rw [run_eq, proceed, read]
  simp [View.respond, decoded, shows, trimLineEnd_decoded decoded]

theorem run_blank (view : View) {input rest : Input} (read : input.readLine = .line line rest)
    (blank : Blank line) : view.run input = (do View.invite; consume line.length) := by
  obtain ⟨text, decoded, blank⟩ := blank
  rw [run_eq, proceed, read]
  simp [View.respond, decoded, isBlankText_iff.mpr blank]

theorem run_invalid (view : View) {input rest : Input} (read : input.readLine = .line line rest)
    (invalid : Utf8.decode? line = none) :
    view.run input = (do View.invite; consume line.length; throw .invalidUtf8) := by
  rw [run_eq, proceed, read]
  simp only [View.respond, invalid]
  rfl

theorem run_ended (view : View) {input : Input} (read : input.readLine = .ended) :
    view.run input = (do View.invite; report [.endOfInput]) := by
  rw [run_eq, proceed, read]

theorem run_failed (view : View) {input : Input} (read : input.readLine = .failed count) :
    view.run input = (do View.invite; consume count; throw .readFailed) := by
  rw [run_eq, proceed, read]

/-- A session follows the course of its input: what it writes is the dialogue on
the lines shown and one more prompt. -/
theorem run_delivers (view : View) {input : Input} {shown : List (List UInt8)}
    {outcome : Except IoError Unit} (course : Course input shown outcome count) :
    Delivers (view.run input) outcome (dialogue view shown ++ promptBytes)
      (shown.flatten.length + count) := by
  induction course with
  | @shows line _ _ _ _ _ read showable _ ih =>
    rw [run_shows view read showable]
    have delivers := delivers_invite.then ((delivers_consume line.length).then
      ((delivers_evaluate view (lineText line)).then ih))
    simpa [dialogue, Nat.add_assoc] using delivers
  | @blank line _ _ read blank =>
    rw [run_blank view read blank]
    have delivers := delivers_invite.then (delivers_consume line.length)
    simpa [dialogue] using delivers
  | @invalid line _ _ read invalid =>
    rw [run_invalid view read invalid]
    have delivers := delivers_invite.then
      ((delivers_consume line.length).then (delivers_throw .invalidUtf8))
    simpa [dialogue] using delivers
  | ended read =>
    rw [run_ended view read]
    have delivers := delivers_invite.then
      (delivers_carried (carries_report [.endOfInput]) (emits_pure ()))
    simpa [dialogue] using delivers
  | @failed _ count read =>
    rw [run_failed view read]
    have delivers := delivers_invite.then
      ((delivers_consume count).then (delivers_throw .readFailed))
    simpa [dialogue] using delivers

/-- What a whole session does where no write fails. It shows the lines of the
input up to the first one that is blank, is not text, or is not ended before
reading fails; failing wins over the other two. It writes the dialogue on those
lines, which is about the texts that they spell, one more prompt and nothing else,
and beyond those lines it uses up the line that stops it, or what is read of it
before reading fails. -/
theorem run_holds_dialogue (view : View) (bytes : List UInt8) (cutoff : Option Nat)
    (within : ∀ point ∈ cutoff, point ≤ bytes.length) :
    ∃ shown next outcome count, cutLines bytes = shown ++ next ∧
      (∀ line ∈ shown, Showable line ∧ Spells line (lineText line)) ∧
      Terminated cutoff 0 shown ∧ Stops cutoff shown.flatten.length next outcome count ∧
      Delivers (view.run (Input.ofBytes bytes cutoff)) outcome
        (dialogue view shown ++ promptBytes) (shown.flatten.length + count) := by
  obtain ⟨beyond, whole, situated⟩ := situated_ofBytes within
  obtain ⟨shown, outcome, count, course⟩ := course_exists (Input.ofBytes bytes cutoff)
  obtain ⟨next, lines, showable, terminated, stops⟩ := course_lines course situated
  rw [← whole] at lines
  rw [Nat.zero_add] at stops
  refine ⟨shown, next, outcome, count, lines, fun line member => ⟨showable line member, ?_⟩,
    terminated, stops, run_delivers view course⟩
  obtain ⟨text, decoded, _⟩ := showable line member
  exact lineText_spells decoded

/-- Reading may fail right behind an unfinished line. -/
theorem unfinished_line_fails : (∀ point ∈ some 3, point ≤ [49, 10, 50].length) ∧
    ∃ shown next outcome count, cutLines [49, 10, 50] = shown ++ next ∧
      (∀ line ∈ shown, Showable line ∧ Spells line (lineText line)) ∧
      Terminated (some 3) 0 shown ∧ Stops (some 3) shown.flatten.length next outcome count ∧
      Delivers (View.run {} (Input.ofBytes [49, 10, 50] (some 3))) outcome
        (dialogue {} shown ++ promptBytes) (shown.flatten.length + count) := by
  have within : ∀ point ∈ some 3, point ≤ [49, 10, 50].length := by simp
  exact ⟨within, run_holds_dialogue {} [49, 10, 50] (some 3) within⟩

end Summand.Dialogue
