import Summand.Proofs.Dialogue

/-! A dialogue goes in rounds: bytes are written up to the end of a prompt, they
are passed on by a flush, and only then input is used up. A sink that turns a
write down or fails a flush ends the dialogue within a round, and everything
before that place stands as if nothing would ever fail. -/
namespace Summand.Rounds
open Delivery Evaluation InputLines LineTexts Dialogue Session

/-- One round: the bytes up to the end of its prompt, and how much input is used
up once they are passed on. -/
structure Round where
  bytes : List UInt8
  count : Nat

/-- What rounds write. -/
def written (rounds : List Round) : List UInt8 := rounds.flatMap Round.bytes

/-- How much input rounds use up. -/
def used : List Round → Nat
  | [] => 0
  | round :: rounds => round.count + used rounds

/-- The number of the next flush of a sink, counted from one. -/
def nextFlush (sink : Sink) : Nat := sink.flushCalls + 1

/-- What becomes of a terminal in the course of some rounds, whose outcome is the
last one unless a write is turned down or a flush fails before. -/
inductive Plays (last : Except IoError Unit) :
    List Round → Terminal → Except IoError Unit × Terminal → Prop where
  | finished (rests : Went before after [] [] 0) : Plays last [] before (last, after)
  | goesOn {round : Round} (fits : Fits before.output round.bytes.length)
      (works : nextFlush before.output ∉ before.output.failingFlushes)
      (went : Went before middle round.bytes [before.output.accepted.size + round.bytes.length]
        round.count)
      (later : Plays last rounds middle ending) : Plays last (round :: rounds) before ending
  | refused {round : Round} (stands : wall ∈ barrier before.output)
      (long : wall.room before.output < round.bytes.length)
      (broke : Broke wall before.output after.output
        (round.bytes.take (wall.room before.output)))
      (kept : after.consumed = before.consumed) :
      Plays last (round :: rounds) before (.error wall.error, after)
  | unflushed {round : Round} (fits : Fits before.output round.bytes.length)
      (fails : nextFlush before.output ∈ before.output.failingFlushes)
      (accepted : after.output.accepted.toList = before.output.accepted.toList ++ round.bytes)
      (flushes : after.output.flushes = before.output.flushes)
      (kept : after.consumed = before.consumed) :
      Plays last (round :: rounds) before (.error .flushFailed, after)

/-- A session that plays some rounds on every terminal. -/
def PlaysOut (session : Session Unit) (last : Except IoError Unit) (rounds : List Round) : Prop :=
  ∀ terminal, Plays last rounds terminal (trial session terminal)

/-- A session that plays some rounds on every terminal after it has used up some
bytes of input. -/
def PlaysAfter (session : Session Unit) (count : Nat) (last : Except IoError Unit)
    (rounds : List Round) : Prop :=
  ∀ terminal, ∃ middle, Went terminal middle [] [] count ∧
    Plays last rounds middle (trial session terminal)

theorem plays_report (events : List Event) : PlaysAfter (report events) 0 (.ok ()) [] :=
  fun terminal => ⟨terminal, Went.refl terminal, .finished ⟨Took.refl _, rfl⟩⟩

theorem plays_throw (error : IoError) : PlaysOut (throw error) (.error error) [] :=
  fun terminal => .finished (Went.refl terminal)

theorem plays_pure : PlaysOut (pure ()) (.ok ()) [] :=
  fun terminal => .finished (Went.refl terminal)

theorem plays_consume {session : Session Unit} {last : Except IoError Unit} {rounds : List Round}
    (plays : PlaysOut session last rounds) (count : Nat) :
    PlaysAfter (do consume count; session) count last rounds :=
  fun terminal => ⟨{ terminal with consumed := terminal.consumed + count },
    ⟨Took.refl _, rfl⟩, plays _⟩

/-- What a computation and a flush behind it do to a sink. -/
private theorem flushed_cases {writing : Writing Unit} {bytes : List UInt8}
    (writes : Writes writing bytes) (sink : Sink) :
    (Fits sink bytes.length ∧ nextFlush sink ∉ sink.failingFlushes ∧ ∃ after,
      (do writing; Writing.flush : Writing Unit) sink = .ok () after ∧
        Took sink after bytes [sink.accepted.size + bytes.length]) ∨
    (Fits sink bytes.length ∧ nextFlush sink ∈ sink.failingFlushes ∧ ∃ after,
      (do writing; Writing.flush : Writing Unit) sink = .error .flushFailed after ∧
        after.accepted.toList = sink.accepted.toList ++ bytes ∧ after.flushes = sink.flushes) ∨
    ∃ wall ∈ barrier sink, wall.room sink < bytes.length ∧ ∃ after,
      (do writing; Writing.flush : Writing Unit) sink = .error wall.error after ∧
        Broke wall sink after (bytes.take (wall.room sink)) := by
  rcases fits_or_long sink bytes.length with fits | ⟨wall, stands, long⟩
  · obtain ⟨middle, ran, took⟩ := (writes sink).1 fits
    have same : nextFlush middle = nextFlush sink := by simp [nextFlush, took.calls]
    by_cases works : nextFlush sink ∈ sink.failingFlushes
    · have fails : middle.flushCalls + 1 ∈ middle.failingFlushes := by
        rwa [took.failing, ← nextFlush, same]
      refine .inr (.inl ⟨fits, works, { middle with flushCalls := middle.flushCalls + 1 }, ?_,
        took.accepted, ?_⟩)
      · simp [bind, EStateM.bind, ran, flush_fails fails]
      · exact Array.ext' (by simpa using took.flushes)
    · have passes : middle.flushCalls + 1 ∉ middle.failingFlushes := by
        rwa [took.failing, ← nextFlush, same]
      obtain ⟨after, flushed, tookLater⟩ := flush_passes passes
      refine .inl ⟨fits, works, after, ?_, ?_⟩
      · simp [bind, EStateM.bind, ran, flushed]
      · simpa [took.size] using took.trans tookLater
  · obtain ⟨after, ran, broke⟩ := (writes sink).2 wall stands long
    refine .inr (.inr ⟨wall, stands, long, after, ?_, broke⟩)
    simp [bind, EStateM.bind, ran]

/-- A round of a session: whatever writes the bytes in front of the prompt, the
prompt itself, its flush, and only then the rest. -/
theorem round_plays {lead rest : Session Unit} {writing : Writing Unit} {bytes : List UInt8}
    {count : Nat} {last : Except IoError Unit} {rounds : List Round} (carries : Carries lead writing)
    (writes : Writes writing bytes) (later : PlaysAfter rest count last rounds) :
    PlaysOut (do lead; View.invite; rest) last (⟨bytes ++ promptBytes, count⟩ :: rounds) := by
  have asks : Carries (do lead; View.invite)
      (do (do writing; Writing.text View.prompt); Writing.flush) := by
    rw [bind_assoc]
    exact carries.bind fun _ => carries_write _
  intro terminal
  obtain ⟨log, passes, fails⟩ := asks terminal
  rw [← bind_assoc]
  rcases flushed_cases (writes.then (writes_text View.prompt)) terminal.output with
    ⟨fits, works, output, ran, took⟩ | ⟨fits, fault, output, ran, accepted, flushes⟩ |
      ⟨wall, stands, long, output, ran, broke⟩
  · obtain ⟨middle, went, plays⟩ := later { terminal with output, log }
    have asked : Went terminal { terminal with output, log } (bytes ++ promptBytes)
        [terminal.output.accepted.size + (bytes ++ promptBytes).length] 0 := ⟨took, rfl⟩
    have whole := asked.trans went
    rw [List.append_nil, List.append_nil, Nat.zero_add] at whole
    rw [trial_then (passes () output ran)]
    exact .goesOn fits works whole plays
  · rw [trial_error (fails _ output ran)]
    exact .unflushed fits fault accepted flushes rfl
  · rw [trial_error (fails _ output ran)]
    exact .refused stands long broke rfl

/-- The rounds of a session that shows some lines, after some bytes that lead up
to its first prompt. -/
def rounds (view : View) (lead : List UInt8) : List (List UInt8) → Nat → List Round
  | [], count => [⟨lead ++ promptBytes, count⟩]
  | line :: shown, count =>
    ⟨lead ++ promptBytes, line.length⟩ :: rounds view (output view (lineText line)) shown count

/-- A session that colors nothing plays the rounds of its course. -/
theorem run_plays {view : View} (plain : view.mode = .tokens ∨ view.color = false) {input : Input}
    {shown : List (List UInt8)} {outcome : Except IoError Unit} {count : Nat}
    (course : Course input shown outcome count) {lead : Session Unit} {writing : Writing Unit}
    {bytes : List UInt8} (carries : Carries lead writing) (writes : Writes writing bytes) :
    PlaysOut (do lead; view.run input) outcome (rounds view bytes shown count) := by
  induction course generalizing lead writing bytes with
  | shows read showable _ ih =>
    rw [run_shows view read showable]
    exact round_plays carries writes
      (plays_consume (ih (evaluate_carries view _) (output_writes plain _)) _)
  | @blank line _ _ read blank =>
    rw [run_blank view read blank]
    have stops := plays_consume plays_pure line.length
    rw [bind_pure_unit] at stops
    exact round_plays carries writes stops
  | invalid read invalid =>
    rw [run_invalid view read invalid]
    exact round_plays carries writes (plays_consume (plays_throw _) _)
  | ended read =>
    rw [run_ended view read]
    exact round_plays carries writes (plays_report _)
  | failed read =>
    rw [run_failed view read]
    exact round_plays carries writes (plays_consume (plays_throw _) _)

/-- What is known of a terminal that got through some rounds: their bytes fit and
their flushes worked, and it used up their input and no more. -/
structure Passed (rounds : List Round) (before after : Terminal) (passed : Nat) : Prop where
  within : passed ≤ rounds.length
  fits : Fits before.output (written (rounds.take passed)).length
  works : ∀ index < passed, nextFlush before.output + index ∉ before.output.failingFlushes
  flushes : after.output.flushes.toList = before.output.flushes.toList ++
    (List.range passed).map fun index =>
      before.output.accepted.size + (written (rounds.take (index + 1))).length
  consumed : after.consumed = before.consumed + used (rounds.take passed)

/-- Why a terminal that got through some rounds got no further. -/
inductive Halts (last : Except IoError Unit) (rounds : List Round) (before : Terminal)
    (passed : Nat) : Except IoError Unit × Terminal → Prop where
  | finished (all : passed = rounds.length)
      (accepted : after.output.accepted.toList = before.output.accepted.toList ++ written rounds) :
      Halts last rounds before passed (last, after)
  | refused (more : passed < rounds.length) (stands : wall ∈ barrier before.output)
      (long : wall.room before.output < (written (rounds.take (passed + 1))).length)
      (accepted : after.output.accepted.toList =
        before.output.accepted.toList ++ (written rounds).take (wall.room before.output)) :
      Halts last rounds before passed (.error wall.error, after)
  | unflushed (more : passed < rounds.length)
      (fits : Fits before.output (written (rounds.take (passed + 1))).length)
      (fails : nextFlush before.output + passed ∈ before.output.failingFlushes)
      (accepted : after.output.accepted.toList =
        before.output.accepted.toList ++ written (rounds.take (passed + 1))) :
      Halts last rounds before passed (.error .flushFailed, after)

variable {last : Except IoError Unit} {round : Round} {rest : List Round} {passed : Nat}
  {before middle after : Terminal} {ending : Except IoError Unit × Terminal}

@[simp] theorem written_cons (round : Round) (rest : List Round) :
    written (round :: rest) = round.bytes ++ written rest := rfl

@[simp] theorem used_cons (round : Round) (rest : List Round) :
    used (round :: rest) = round.count + used rest := rfl

private theorem nothing_passed (rounds : List Round)
    (flushes : after.output.flushes = before.output.flushes)
    (kept : after.consumed = before.consumed) : Passed rounds before after 0 where
  within := Nat.zero_le _
  fits := fun _ _ => Nat.zero_le _
  works := fun _ none => absurd none (Nat.not_lt_zero _)
  flushes := by simp [flushes]
  consumed := by simp [kept, used]

/-- What fits behind some bytes fits together with them. -/
private theorem fits_together {before after : Sink} {bytes : List UInt8} {flushed : List Nat}
    (took : Took before after bytes flushed) (fits : Fits before bytes.length) {count : Nat}
    (fitsBehind : Fits after count) : Fits before (bytes.length + count) := by
  intro wall stands
  have front := fits wall stands
  have behind := fitsBehind wall (took.barrier ▸ stands)
  rw [took.room] at behind
  omega

private theorem nextFlush_moved {flushed : List Nat} {bytes : List UInt8} {count : Nat}
    (went : Went before middle bytes flushed count) :
    nextFlush middle.output = nextFlush before.output + flushed.length := by
  rw [nextFlush, nextFlush, went.output.calls]
  omega

/-- One round passed in front of others is one more. -/
private theorem Passed.behind
    (went : Went before middle round.bytes [before.output.accepted.size + round.bytes.length]
      round.count)
    (fits : Fits before.output round.bytes.length)
    (works : nextFlush before.output ∉ before.output.failingFlushes)
    (later : Passed rest middle after passed) : Passed (round :: rest) before after (passed + 1) where
  within := Nat.succ_le_succ later.within
  fits := by
    rw [List.take_succ_cons, written_cons, List.length_append]
    exact fits_together went.output fits later.fits
  works := by
    rintro (_ | index) inside
    · exact works
    · have behind := later.works index (Nat.lt_of_succ_lt_succ inside)
      rw [nextFlush_moved went, went.output.failing] at behind
      simpa [Nat.add_assoc, Nat.add_comm 1] using behind
  flushes := by
    rw [later.flushes, went.output.flushes, went.output.size, List.range_succ_eq_map]
    simp [Nat.add_assoc, Function.comp_def, written]
  consumed := by
    rw [later.consumed, went.consumed, List.take_succ_cons]
    simp [used, Nat.add_assoc]

private theorem Halts.behind
    (went : Went before middle round.bytes [before.output.accepted.size + round.bytes.length]
      round.count)
    (fits : Fits before.output round.bytes.length)
    (later : Halts last rest middle passed ending) :
    Halts last (round :: rest) before (passed + 1) ending := by
  have took := went.output
  cases later with
  | finished all accepted =>
    exact .finished (by simp [all]) (by rw [accepted, took.accepted]; simp)
  | refused more stands long accepted =>
    have front := fits _ (took.barrier ▸ stands)
    rw [took.room] at long accepted
    refine .refused (Nat.succ_lt_succ more) (took.barrier ▸ stands) ?_ ?_
    · rw [List.take_succ_cons, written_cons, List.length_append]
      omega
    · rw [accepted, took.accepted, written_cons, List.take_append, List.take_of_length_le front,
        List.append_assoc]
  | unflushed more fitsBehind fails accepted =>
    refine .unflushed (Nat.succ_lt_succ more) ?_ ?_ ?_
    · rw [List.take_succ_cons, written_cons, List.length_append]
      exact fits_together took fits fitsBehind
    · rw [nextFlush_moved went, took.failing] at fails
      simpa [Nat.add_assoc, Nat.add_comm 1] using fails
    · rw [accepted, took.accepted, List.take_succ_cons, written_cons, List.append_assoc]

/-- Playing rounds gets through some of them and then halts. -/
theorem plays_halts {rounds : List Round} (plays : Plays last rounds before ending) :
    ∃ passed, Passed rounds before ending.2 passed ∧ Halts last rounds before passed ending := by
  induction plays with
  | finished rests =>
    refine ⟨0, nothing_passed _ (Array.ext' ?_) rests.consumed, .finished rfl ?_⟩
    · simpa using rests.output.flushes
    · simpa [written] using rests.output.accepted
  | goesOn fits works went _ ih =>
    obtain ⟨passed, through, halts⟩ := ih
    exact ⟨passed + 1, through.behind went fits works, halts.behind went fits⟩
  | @refused _ _ round _ rounds stands long broke kept =>
    refine ⟨0, nothing_passed _ broke.flushes kept, .refused (by simp) stands ?_ ?_⟩
    · simpa [written] using long
    · rw [broke.accepted, written_cons, List.take_append_of_le_length (Nat.le_of_lt long)]
  | unflushed fits fails accepted flushes kept =>
    exact ⟨0, nothing_passed _ flushes kept,
      .unflushed (by simp) (by simpa [written] using fits) fails (by simpa [written] using accepted)⟩

end Summand.Rounds
