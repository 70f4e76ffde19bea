import Summand.Proofs.Delivery
import Summand.Proofs.Scanning
import Summand.Session.View

/-! Showing a line comes down to writing pieces of text: apart from the events
it reports, a session that shows a line does to its terminal what a computation
on a sink does to the sink. What a sink makes of the pieces therefore settles
what a terminal makes of the line. -/
namespace Summand.Evaluation
open Delivery Scanning Session

/-- The outcome of a session on a terminal, and the terminal after it. -/
def trial (session : Session α) (terminal : Terminal) : Except IoError α × Terminal :=
  match session terminal with
  | .ok value after => (.ok value, after)
  | .error error after => (.error error, after)

theorem trial_then {first : Session α} {next : α → Session β} {terminal middle : Terminal}
    {value : α} (ran : first terminal = .ok value middle) :
    trial (first >>= next) terminal = trial (next value) middle := by
  simp [trial, Bind.bind, EStateM.bind, ran]

theorem trial_error {first : Session α} {next : α → Session β} {terminal after : Terminal}
    {error : IoError} (ran : first terminal = .error error after) :
    trial (first >>= next) terminal = (.error error, after) := by
  simp [trial, Bind.bind, EStateM.bind, ran]

/-- A session does to the sink of a terminal what a computation does to a sink,
with the same outcome. It may report events, but it uses up no input. -/
def Carries (session : Session α) (writing : Writing α) : Prop :=
  ∀ terminal, ∃ log,
    (∀ value output, writing terminal.output = .ok value output →
      session terminal = .ok value { terminal with output, log }) ∧
    ∀ error output, writing terminal.output = .error error output →
      session terminal = .error error { terminal with output, log }

theorem carries_write (writing : Writing α) : Carries (write writing) writing := by
  intro terminal
  refine ⟨terminal.log, fun value output ran => ?_, fun error output ran => ?_⟩
  · simp [write, ran]
  · simp [write, ran]

theorem carries_pure (value : α) : Carries (pure value) (pure value) := by
  intro terminal
  refine ⟨terminal.log, fun _ _ ran => ?_, fun _ _ ran => ?_⟩
  · cases ran
    rfl
  · cases ran

theorem carries_report (events : List Event) : Carries (report events) (pure ()) := by
  intro terminal
  refine ⟨terminal.log ++ events, fun _ _ ran => ?_, fun _ _ ran => ?_⟩
  · cases ran
    rfl
  · cases ran

theorem Carries.bind {first : Session α} {next : α → Session β} {writing : Writing α}
    {writingNext : α → Writing β} (front : Carries first writing)
    (back : ∀ value, Carries (next value) (writingNext value)) :
    Carries (first >>= next) (writing >>= writingNext) := by
  intro terminal
  obtain ⟨log, passes, fails⟩ := front terminal
  cases ran : writing terminal.output with
  | ok value output =>
    obtain ⟨logLater, passesLater, failsLater⟩ := back value { terminal with output, log }
    refine ⟨logLater, fun last final ranAll => ?_, fun error final ranAll => ?_⟩ <;>
      simp only [Bind.bind, EStateM.bind, ran] at ranAll
    · simp [Bind.bind, EStateM.bind, passes _ _ ran, passesLater _ _ ranAll]
    · simp [Bind.bind, EStateM.bind, passes _ _ ran, failsLater _ _ ranAll]
  | error error output =>
    refine ⟨log, fun last final ranAll => ?_, fun error final ranAll => ?_⟩ <;>
      simp only [Bind.bind, EStateM.bind, ran] at ranAll <;> cases ranAll
    simp [Bind.bind, EStateM.bind, fails _ _ ran]

theorem carries_logged (computation : Logged α) :
    Carries (logged computation) (pure computation.value) :=
  (carries_report computation.events).bind fun _ => carries_pure computation.value

/-- What a session comes to is what an attempt at its computation on the sink comes to. -/
theorem Carries.attempted {session : Session α} {writing : Writing α}
    (carries : Carries session writing) (terminal : Terminal) :
    Writing.attempt writing terminal.output =
      .ok (trial session terminal).1 (trial session terminal).2.output := by
  obtain ⟨log, passes, fails⟩ := carries terminal
  cases ran : writing terminal.output with
  | ok value output => simp [Writing.attempt, trial, ran, passes _ _ ran]
  | error error output => simp [Writing.attempt, trial, ran, fails _ _ ran]

/-- The pieces that tokens are listed in. -/
def listed (tokens : List Token) : List String :=
  tokens.flatMap fun token => token.listing ++ ["\n"]

theorem pieces_append (front back : List String) :
    Writing.pieces (front ++ back) = (do Writing.pieces front; Writing.pieces back) :=
  List.forM_append

/-- Listing a stream writes the listing of all its tokens. -/
theorem listStream_carries (stream : TokenStream) :
    Carries (listStream stream) (Writing.pieces (listed stream.drain.value.1)) := by
  obtain ⟨position, source⟩ := stream
  revert position source
  refine read_induction (motive := fun stream =>
    Carries (listStream stream) (Writing.pieces (listed stream.drain.value.1))) ?_ ?_
  · intro position
    rw [listStream, next?_at_end, drain_at_end]
    exact (carries_report _).bind fun _ => carries_pure ()
  · intro position c others later
    rw [listStream, next?_at_char, drain_at_char, listed, List.flatMap_cons, pieces_append]
    exact (carries_report _).bind fun _ => (carries_write _).bind fun _ => later

/-- The computation on a sink that shows a line. -/
def showing (view : View) (line : String) : Writing Unit :=
  match view.mode with
  | .tokens => Writing.pieces (listed (TokenStream.ofSource line).drain.value.1)
  | .tree =>
    Writing.withForeground view.treeColor (Writing.drawing (.expr (Expr.ofSource line).value))

theorem evaluate_carries (view : View) (line : String) :
    Carries (view.evaluate line) (showing view line) := by
  unfold View.evaluate showing
  cases view.mode with
  | tokens => exact listStream_carries _
  | tree => exact (carries_logged _).bind fun _ => carries_write _

/-- A view that colors nothing writes the pieces of a line and does nothing else. -/
theorem showing_writes {view : View} (plain : view.mode = .tokens ∨ view.color = false)
    (line : String) : ∃ bytes, Writes (showing view line) bytes := by
  unfold showing View.treeColor
  rcases plain with listing | uncolored
  · rw [listing]
    exact ⟨_, writes_pieces _⟩
  · rw [uncolored]
    cases view.mode with
    | tokens => exact ⟨_, writes_pieces _⟩
    | tree => exact ⟨_, writes_pieces _⟩

/-- Every view shows every line in full on a sink that never fails. -/
theorem showing_emits (view : View) (line : String) : ∃ bytes, Emits (showing view line) () bytes := by
  by_cases plain : view.mode = .tokens ∨ view.color = false
  · obtain ⟨bytes, writes⟩ := showing_writes plain line
    exact ⟨bytes, writes.emits⟩
  · have colored : view.mode = .tree ∧ view.color = true := by
      cases found : view.mode <;> simp_all
    unfold showing View.treeColor
    rw [colored.1, colored.2]
    exact ⟨_, (writes_pieces _).emits.withForeground Color.tree⟩

/-- What a view writes for a line, on a terminal where nothing fails. -/
def output (view : View) (line : String) : List UInt8 :=
  (trial (view.evaluate line) {}).2.output.accepted.toList

private theorem output_of_emits {view : View} {line : String} {bytes : List UInt8}
    (emits : Emits (showing view line) () bytes) : output view line = bytes := by
  obtain ⟨after, _, ran, took⟩ := emits {} ⟨rfl, rfl⟩
  obtain ⟨log, passes, _⟩ := evaluate_carries view line {}
  simp [output, trial, passes () after ran, took.accepted]

/-- Without color a tree is shown as its drawing and nothing else. -/
theorem output_tree (line : String) : output { mode := .tree } line =
    (Node.drawing (.expr (Expr.ofSource line).value)).flatMap Utf8.encode :=
  output_of_emits (writes_pieces _).emits

/-- In color a tree is shown as without, between the sequences that set the color and take
it back. -/
theorem output_colored (line : String) : output { mode := .tree, color := true } line =
    Color.tree.escape.flatMap Utf8.encode ++ output { mode := .tree } line ++
      Utf8.encode Color.reset := by
  rw [output_tree]
  exact output_of_emits ((writes_pieces _).emits.withForeground Color.tree)

/-- Whether in color or not, tokens are shown as their listing and nothing else. -/
theorem output_tokens {view : View} (listing : view.mode = .tokens) (line : String) :
    output view line = (listed (TokenStream.ofSource line).drain.value.1).flatMap Utf8.encode := by
  have writes : Writes (showing view line)
      ((listed (TokenStream.ofSource line).drain.value.1).flatMap Utf8.encode) := by
    rw [showing, listing]
    exact writes_pieces _
  exact output_of_emits writes.emits

theorem output_emits (view : View) (line : String) :
    Emits (showing view line) () (output view line) := by
  obtain ⟨bytes, emits⟩ := showing_emits view line
  exact output_of_emits emits ▸ emits

theorem output_writes {view : View} (plain : view.mode = .tokens ∨ view.color = false)
    (line : String) : Writes (showing view line) (output view line) := by
  obtain ⟨bytes, writes⟩ := showing_writes plain line
  exact output_of_emits writes.emits ▸ writes

/-- Two lines that no terminal can tell apart when they are shown: the outcome is the
same and so is what becomes of the sink, faults included. -/
def ShownAlike (view : View) (line other : String) : Prop :=
  ∀ terminal, (trial (view.evaluate line) terminal).1 = (trial (view.evaluate other) terminal).1 ∧
    (trial (view.evaluate line) terminal).2.output = (trial (view.evaluate other) terminal).2.output

/-- Trees with the same drawing are shown alike, in color or without. -/
theorem shownAlike_tree {line other : String} (color : Bool)
    (same : Node.drawing (.expr (Expr.ofSource line).value) =
      Node.drawing (.expr (Expr.ofSource other).value)) :
    ShownAlike { mode := .tree, color } line other := by
  intro terminal
  have showings : showing { mode := .tree, color } line = showing { mode := .tree, color } other := by
    simp only [showing, Writing.drawing, same]
  have shown := (evaluate_carries { mode := .tree, color } line).attempted terminal
  rw [showings, (evaluate_carries _ other).attempted terminal] at shown
  injection shown with result output
  exact ⟨result.symm, output.symm⟩

end Summand.Evaluation
