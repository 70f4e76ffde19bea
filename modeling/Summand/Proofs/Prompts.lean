import Summand.Proofs.Rounds

/-! How far a session gets on a sink that has not been used before is a matter of
its prompts: it passes the first few of them, and the next one, if there is one,
lies behind the barrier of the sink or meets a flush that fails. -/
namespace Summand.Prompts
open Delivery Evaluation InputLines LineTexts Dialogue Rounds

/-- A sink that has not been used yet. -/
structure Fresh (sink : Sink) : Prop where
  accepted : sink.accepted = #[]
  flushes : sink.flushes = #[]
  calls : sink.flushCalls = 0

/-- What a session writes up to the end of one of its prompts, counted from zero. -/
def throughPrompt (view : View) (shown : List (List UInt8)) (index : Nat) : List UInt8 :=
  dialogue view (shown.take index) ++ promptBytes

/-- Whether the writer takes a prompt and passes it on: it lies in front of the
barrier and its flush is none of those that fail. -/
def Passes (view : View) (shown : List (List UInt8)) (sink : Sink) (index : Nat) : Prop :=
  (∀ wall ∈ barrier sink, (throughPrompt view shown index).length ≤ wall.offset) ∧
    index + 1 ∉ sink.failingFlushes

variable {view : View} {shown next : List (List UInt8)} {lead : List UInt8} {count index : Nat}

theorem rounds_length : (rounds view lead shown count).length = shown.length + 1 := by
  induction shown generalizing lead with
  | nil => rfl
  | cons line shown ih => simp [rounds, ih]

theorem written_take (inside : index ≤ shown.length) :
    written ((rounds view lead shown count).take (index + 1)) =
      lead ++ throughPrompt view shown index := by
  induction shown generalizing lead index with
  | nil =>
    obtain rfl : index = 0 := Nat.le_zero.mp inside
    simp [rounds, written, throughPrompt, dialogue]
  | cons line shown ih =>
    cases index with
    | zero => simp [rounds, written, throughPrompt, dialogue]
    | succ index =>
      rw [rounds, List.take_succ_cons, written_cons, ih (Nat.le_of_succ_le_succ inside)]
      simp [throughPrompt, dialogue]

theorem written_rounds : written (rounds view lead shown count) =
    lead ++ throughPrompt view shown shown.length := by
  rw [← written_take (Nat.le_refl _), List.take_of_length_le (Nat.le_of_eq rounds_length)]

/-- The rounds use up the lines shown and the line behind them, if any. -/
theorem used_take (behind : count = (next.take 1).flatten.length)
    (inside : index ≤ shown.length + 1) :
    used ((rounds view lead shown count).take index) =
      ((shown ++ next).take index).flatten.length := by
  induction shown generalizing lead index with
  | nil =>
    rcases Nat.le_one_iff_eq_zero_or_eq_one.mp inside with rfl | rfl
    · rfl
    · simp [rounds, used, behind]
  | cons line shown ih =>
    cases index with
    | zero => rfl
    | succ index =>
      rw [rounds, List.take_succ_cons, used_cons, ih (Nat.le_of_succ_le_succ inside)]
      simp

theorem promptBytes_ne_nil : promptBytes ≠ [] := by decide

/-- More is written up to the end of a later prompt, behind all that came before. -/
theorem throughPrompt_grows (view : View) {later : Nat} (order : index < later)
    (inside : later ≤ shown.length) :
    ∃ tail, tail ≠ [] ∧ throughPrompt view shown later = throughPrompt view shown index ++ tail := by
  obtain ⟨between, split⟩ : shown.take index <+: shown.take later :=
    List.take_prefix_take_left (Nat.le_of_lt order)
  cases between with
  | nil =>
    have same := congrArg List.length split
    simp only [List.append_nil, List.length_take] at same
    omega
  | cons line between =>
    refine ⟨output view (lineText line) ++ dialogue view between ++ promptBytes, ?_, ?_⟩
    · simp [promptBytes_ne_nil]
    · simp [throughPrompt, ← split, dialogue]

theorem throughPrompt_lt (view : View) {later : Nat} (order : index < later)
    (inside : later ≤ shown.length) :
    (throughPrompt view shown index).length < (throughPrompt view shown later).length := by
  obtain ⟨tail, nonempty, grown⟩ := throughPrompt_grows view order inside
  have more := List.length_pos_iff.mpr nonempty
  rw [grown, List.length_append]
  omega

theorem throughPrompt_le (view : View) {later : Nat} (order : index ≤ later)
    (inside : later ≤ shown.length) :
    (throughPrompt view shown index).length ≤ (throughPrompt view shown later).length := by
  rcases Nat.lt_or_eq_of_le order with earlier | rfl
  · exact Nat.le_of_lt (throughPrompt_lt view earlier inside)
  · exact Nat.le_refl _

theorem throughPrompt_front (inside : index ≤ shown.length) :
    throughPrompt view shown index <+: throughPrompt view shown shown.length := by
  rcases Nat.lt_or_eq_of_le inside with earlier | rfl
  · obtain ⟨tail, _, grown⟩ := throughPrompt_grows view earlier (Nat.le_refl _)
    exact ⟨tail, grown.symm⟩
  · exact List.prefix_rfl

/-- What stands of a session that passed some prompts and no more: they are the
first ones, they are what was passed on, and their lines are what was read. -/
structure Stands (view : View) (lines shown : List (List UInt8)) (sink : Sink) (after : Terminal)
    (passed : Nat) : Prop where
  within : passed ≤ shown.length + 1
  passes : ∀ index < passed, Passes view shown sink index
  flushes : after.output.flushes.toList =
    (List.range passed).map fun index => (throughPrompt view shown index).length
  consumed : after.consumed = (lines.take passed).flatten.length

/-- Why a session that passed some prompts passed no more, what it wrote, and with
which outcome. -/
inductive Ends (view : View) (shown : List (List UInt8)) (sink : Sink)
    (result : Except IoError Unit) (passed : Nat) : Except IoError Unit × Terminal → Prop where
  | finished (all : passed = shown.length + 1)
      (accepted : after.output.accepted.toList = throughPrompt view shown shown.length) :
      Ends view shown sink result passed (result, after)
  | refused (inside : passed ≤ shown.length) (stands : wall ∈ barrier sink)
      (long : wall.offset < (throughPrompt view shown passed).length)
      (accepted : after.output.accepted.toList =
        (throughPrompt view shown shown.length).take wall.offset) :
      Ends view shown sink result passed (.error wall.error, after)
  | unflushed (inside : passed ≤ shown.length)
      (fits : ∀ wall ∈ barrier sink, (throughPrompt view shown passed).length ≤ wall.offset)
      (fails : passed + 1 ∈ sink.failingFlushes)
      (accepted : after.output.accepted.toList = throughPrompt view shown passed) :
      Ends view shown sink result passed (.error .flushFailed, after)

variable {sink : Sink} {result : Except IoError Unit} {passed : Nat} {after : Terminal}
  {ending : Except IoError Unit × Terminal}

theorem Fresh.room (fresh : Fresh sink) (wall : Barrier) : wall.room sink = wall.offset := by
  simp [Barrier.room, fresh.accepted]

theorem Fresh.fits (fresh : Fresh sink) {size : Nat} (fits : Fits sink size) :
    ∀ wall ∈ barrier sink, size ≤ wall.offset :=
  fun wall stands => fresh.room wall ▸ fits wall stands

theorem Fresh.nextFlush (fresh : Fresh sink) (index : Nat) :
    nextFlush sink + index = index + 1 := by
  rw [Rounds.nextFlush, fresh.calls, Nat.zero_add, Nat.add_comm]

private theorem passes_passed (fresh : Fresh sink)
    (through : Passed (rounds view [] shown count) { output := sink } after passed) :
    ∀ index < passed, Passes view shown sink index := by
  have bound := through.within
  rw [rounds_length] at bound
  intro index before
  refine ⟨fun wall stands => ?_, ?_⟩
  · obtain ⟨latest, rfl⟩ := Nat.exists_eq_add_one_of_ne_zero (Nat.ne_zero_of_lt before)
    have fits := fresh.fits through.fits wall stands
    rw [written_take (Nat.le_of_succ_le_succ bound), List.nil_append] at fits
    have order := throughPrompt_le view (Nat.le_of_lt_succ before) (Nat.le_of_succ_le_succ bound)
    omega
  · rw [← fresh.nextFlush]
    exact through.works index before

private theorem stands_passed (fresh : Fresh sink)
    (through : Passed (rounds view [] shown count) { output := sink } after passed)
    (behind : count = (next.take 1).flatten.length) :
    Stands view (shown ++ next) shown sink after passed := by
  have bound := through.within
  rw [rounds_length] at bound
  refine ⟨bound, passes_passed fresh through, ?_, ?_⟩
  · rw [through.flushes, fresh.flushes]
    refine List.map_congr_left fun index inside => ?_
    have early := List.mem_range.mp inside
    rw [written_take (by omega), fresh.accepted]
    simp
  · rw [through.consumed, used_take behind bound]
    exact Nat.zero_add _

private theorem ends_halts (fresh : Fresh sink)
    (halts : Halts result (rounds view [] shown count) { output := sink } passed ending) :
    Ends view shown sink result passed ending := by
  cases halts with
  | finished all accepted =>
    rw [rounds_length] at all
    refine .finished all ?_
    rw [accepted, fresh.accepted, written_rounds]
    rfl
  | refused more stands long accepted =>
    rw [rounds_length] at more
    rw [fresh.room, written_take (Nat.le_of_lt_succ more)] at long
    rw [fresh.room, written_rounds, fresh.accepted] at accepted
    exact .refused (Nat.le_of_lt_succ more) stands long accepted
  | unflushed more fits fails accepted =>
    rw [rounds_length] at more
    have inside := Nat.le_of_lt_succ more
    rw [written_take inside] at fits
    rw [written_take inside, fresh.accepted] at accepted
    exact .unflushed inside (fresh.fits fits) (fresh.nextFlush passed ▸ fails) accepted

/-- A session over some bytes, none of which fails to be read, on a sink. -/
def session (view : View) (bytes : List UInt8) (sink : Sink) : Except IoError Unit × Terminal :=
  trial (view.run { bytes }) { output := sink }

theorem stops_sound {start : Nat} (stops : Stops none start next result count) :
    count = (next.take 1).flatten.length ∧ result ≠ .error .flushFailed ∧
      ∀ line ∈ next.head?, ¬ Showable line := by
  generalize never : (none : Option Nat) = cutoff at stops
  cases stops with
  | blank _ blank =>
    obtain ⟨text, decoded, blank⟩ := blank
    simp [Showable, decoded, blank]
  | invalid _ invalid => simp [Showable, invalid]
  | ended => simp
  | failed => cases never

/-- A session that colors nothing passes some of its prompts and ends for a reason. -/
theorem session_ends (plain : view.mode = .tokens ∨ view.color = false)
    {bytes : List UInt8} (course : Course { bytes } shown result count)
    (behind : count = (next.take 1).flatten.length) (fresh : Fresh sink) :
    ∃ passed, Stands view (shown ++ next) shown sink (session view bytes sink).2 passed ∧
      Ends view shown sink result passed (session view bytes sink) := by
  have plays := run_plays plain course (carries_pure ()) writes_pure
  obtain ⟨passed, through, halts⟩ := plays_halts (plays { output := sink })
  rw [pure_bind] at through halts
  exact ⟨passed, stands_passed fresh through behind, ends_halts fresh halts⟩

end Summand.Prompts
