import Summand.Proofs.Prompts

/-! Faults of a writer neither lose input nor upset the order of what is written.
A session that colors nothing stops at the earliest fault: up to there it writes
what it would write if nothing failed, and it has read exactly the lines whose
prompts were written in full and passed on. -/
namespace Summand.DialogueFaults
open Delivery Evaluation InputLines Dialogue Prompts

variable {view : View} {shown lines : List (List UInt8)} {index passed : Nat} {sink : Sink}
  {result : Except IoError Unit} {after : Terminal} {ending : Except IoError Unit × Terminal}

/-- How a session fares on a sink that may fail, beside all the bytes and the
result of the same session where nothing fails. -/
structure Salvages (view : View) (lines shown : List (List UInt8)) (sink : Sink)
    (whole : List UInt8) (result : Except IoError Unit)
    (ending : Except IoError Unit × Terminal) : Prop where
  /-- Nothing is written out of order. -/
  kept : ending.2.output.accepted.toList <+: whole
  /-- Everything is written, with the same result, exactly when there is room for
  all of it and the flush of every prompt works. -/
  unharmed : (ending.2.output.accepted.toList = whole ∧ ending.1 = result) ↔
    (∀ wall ∈ barrier sink, whole.length ≤ wall.offset) ∧
      ∀ index ≤ shown.length, index + 1 ∉ sink.failingFlushes
  /-- A barrier that comes before every flush that fails cuts the bytes where it
  stands, and its error is the result. -/
  refused : ∀ wall ∈ barrier sink, wall.offset < whole.length →
    (∀ index ≤ shown.length, (throughPrompt view shown index).length ≤ wall.offset →
      index + 1 ∉ sink.failingFlushes) →
    ending.1 = .error wall.error ∧ ending.2.output.accepted.toList = whole.take wall.offset
  /-- The first flush that fails, if it comes before the barrier, ends the session
  right behind its prompt. -/
  unflushed : ∀ index ≤ shown.length, index + 1 ∈ sink.failingFlushes →
    (∀ earlier < index, earlier + 1 ∉ sink.failingFlushes) →
    (∀ wall ∈ barrier sink, (throughPrompt view shown index).length ≤ wall.offset) →
    ending.1 = .error .flushFailed ∧
      ending.2.output.accepted.toList = throughPrompt view shown index
  /-- A line is read exactly when its prompt is written in full and passed on. -/
  read : ∃ count, ending.2.consumed = (lines.take count).flatten.length ∧
    ending.2.output.flushes.toList =
      (List.range count).map (fun index => (throughPrompt view shown index).length) ∧
    ∀ index, index < count ↔ index ≤ shown.length ∧
      (throughPrompt view shown index).length ≤ ending.2.output.accepted.size ∧
      index + 1 ∉ sink.failingFlushes

private theorem ends_kept (ends : Ends view shown sink result passed ending) :
    ending.2.output.accepted.toList <+: throughPrompt view shown shown.length := by
  cases ends with
  | finished all accepted => exact accepted ▸ List.prefix_rfl
  | refused inside stands long accepted => exact accepted ▸ List.take_prefix ..
  | unflushed inside fits fails accepted => exact accepted ▸ throughPrompt_front inside

private theorem ends_unharmed (stands : Stands view lines shown sink ending.2 passed)
    (ends : Ends view shown sink result passed ending) (sound : result ≠ .error .flushFailed) :
    (ending.2.output.accepted.toList = throughPrompt view shown shown.length ∧
      ending.1 = result) ↔
    (∀ wall ∈ barrier sink, (throughPrompt view shown shown.length).length ≤ wall.offset) ∧
      ∀ index ≤ shown.length, index + 1 ∉ sink.failingFlushes := by
  cases ends with
  | finished all accepted =>
    have passes : ∀ index ≤ shown.length, Passes view shown sink index :=
      fun index inside => stands.passes index (by omega)
    exact ⟨fun _ => ⟨(passes _ (Nat.le_refl _)).1, fun index inside => (passes index inside).2⟩,
      fun _ => ⟨accepted, rfl⟩⟩
  | @refused wall _ inside barred long accepted =>
    have within := throughPrompt_le view inside (Nat.le_refl _)
    constructor
    · rintro ⟨whole, _⟩
      rw [whole] at accepted
      have size := congrArg List.length accepted
      rw [List.length_take] at size
      omega
    · rintro ⟨fits, _⟩
      have room := fits wall barred
      omega
  | unflushed inside fits fails accepted =>
    exact ⟨fun ⟨_, same⟩ => absurd same.symm sound, fun ⟨_, works⟩ => absurd fails (works _ inside)⟩

private theorem ends_refused (stands : Stands view lines shown sink ending.2 passed)
    (ends : Ends view shown sink result passed ending) {wall : Barrier} (barred : wall ∈ barrier sink)
    (short : wall.offset < (throughPrompt view shown shown.length).length)
    (works : ∀ index ≤ shown.length, (throughPrompt view shown index).length ≤ wall.offset →
      index + 1 ∉ sink.failingFlushes) :
    ending.1 = .error wall.error ∧ ending.2.output.accepted.toList =
      (throughPrompt view shown shown.length).take wall.offset := by
  cases ends with
  | finished all accepted =>
    have fits := (stands.passes shown.length (by omega)).1 wall barred
    omega
  | refused inside found long accepted =>
    cases Option.mem_unique barred found
    exact ⟨rfl, accepted⟩
  | unflushed inside fits fails accepted =>
    exact absurd fails (works _ inside (fits wall barred))

private theorem ends_unflushed (stands : Stands view lines shown sink ending.2 passed)
    (ends : Ends view shown sink result passed ending) (inside : index ≤ shown.length)
    (fails : index + 1 ∈ sink.failingFlushes)
    (works : ∀ earlier < index, earlier + 1 ∉ sink.failingFlushes)
    (fits : ∀ wall ∈ barrier sink, (throughPrompt view shown index).length ≤ wall.offset) :
    ending.1 = .error .flushFailed ∧
      ending.2.output.accepted.toList = throughPrompt view shown index := by
  have behind : passed ≤ index := by
    by_contra earlier
    exact (stands.passes index (Nat.lt_of_not_le earlier)).2 fails
  cases ends with
  | finished all accepted => omega
  | @refused wall _ _ barred long accepted =>
    have room := fits wall barred
    have order := throughPrompt_le view behind inside
    omega
  | unflushed _ _ failed accepted =>
    rcases Nat.lt_or_eq_of_le behind with earlier | rfl
    · exact absurd failed (works _ earlier)
    · exact ⟨rfl, accepted⟩

private theorem ends_read (stands : Stands view lines shown sink ending.2 passed)
    (ends : Ends view shown sink result passed ending) (index : Nat) :
    index < passed ↔ index ≤ shown.length ∧
      (throughPrompt view shown index).length ≤ ending.2.output.accepted.size ∧
      index + 1 ∉ sink.failingFlushes := by
  have within := stands.within
  have sized : ending.2.output.accepted.toList.length = ending.2.output.accepted.size :=
    Array.length_toList
  constructor
  · intro before
    have inside : index ≤ shown.length := by omega
    have passes := stands.passes index before
    have early := throughPrompt_le view inside (Nat.le_refl _)
    refine ⟨inside, ?_, passes.2⟩
    cases ends with
    | finished all accepted =>
      rw [← sized, accepted]
      exact early
    | @refused wall _ _ barred long accepted =>
      have room := passes.1 wall barred
      rw [← sized, accepted, List.length_take]
      omega
    | unflushed reached _ _ accepted =>
      rw [← sized, accepted]
      exact throughPrompt_le view (Nat.le_of_lt before) reached
  · rintro ⟨inside, written, works⟩
    by_contra behind
    have order := throughPrompt_le view (Nat.le_of_not_lt behind) inside
    cases ends with
    | finished all accepted => omega
    | refused _ _ long accepted =>
      rw [← sized, accepted, List.length_take] at written
      omega
    | unflushed _ _ fails accepted =>
      rw [← sized, accepted] at written
      rcases Nat.lt_or_eq_of_le (Nat.le_of_not_lt behind) with earlier | rfl
      · have more := throughPrompt_lt view earlier inside
        omega
      · exact works fails

/-- Two sessions that end alike: in what they wrote, passed on and read, and in
their result. -/
structure Alike (first second : Except IoError Unit × Terminal) : Prop where
  result : first.1 = second.1
  accepted : first.2.output.accepted = second.2.output.accepted
  flushes : first.2.output.flushes = second.2.output.flushes
  consumed : first.2.consumed = second.2.consumed

/-- A session that got through some prompts ends in front of any prompt that a
sink of the same barrier and the same failing flushes does not pass. -/
private theorem ends_first {other : Sink} {later : Nat} (same : barrier other = barrier sink)
    (failing : other.failingFlushes = sink.failingFlushes)
    (ends : Ends view shown other result passed ending)
    (stands : Stands view lines shown sink after later) : later ≤ passed := by
  by_contra beyond
  have within := stands.within
  obtain ⟨fits, works⟩ := stands.passes passed (Nat.lt_of_not_le beyond)
  cases ends with
  | finished all accepted => omega
  | refused inside barred long accepted =>
    have room := fits _ (same ▸ barred)
    omega
  | unflushed inside _ fails accepted => exact works (failing ▸ fails)

private theorem ends_alike {other : Sink} {first second : Except IoError Unit × Terminal}
    {later : Nat} (same : barrier other = barrier sink)
    (failing : other.failingFlushes = sink.failingFlushes)
    (stands : Stands view lines shown other first.2 passed)
    (ends : Ends view shown other result passed first)
    (standsLater : Stands view lines shown sink second.2 later)
    (endsLater : Ends view shown sink result later second) : Alike first second := by
  obtain rfl : passed = later := Nat.le_antisymm
    (ends_first same.symm failing.symm endsLater stands) (ends_first same failing ends standsLater)
  have flushes := Array.ext' (stands.flushes.trans standsLater.flushes.symm)
  have consumed := stands.consumed.trans standsLater.consumed.symm
  cases ends with
  | finished all accepted =>
    cases endsLater with
    | finished _ acceptedLater =>
      exact ⟨rfl, Array.ext' (accepted.trans acceptedLater.symm), flushes, consumed⟩
    | refused inside => omega
    | unflushed inside => omega
  | refused inside barred long accepted =>
    cases endsLater with
    | finished all => omega
    | refused _ found _ acceptedLater =>
      cases Option.mem_unique (same ▸ barred) found
      exact ⟨rfl, Array.ext' (accepted.trans acceptedLater.symm), flushes, consumed⟩
    | unflushed _ fits =>
      have room := fits _ (same ▸ barred)
      omega
  | unflushed inside fits fails accepted =>
    cases endsLater with
    | finished all => omega
    | refused _ found long =>
      have room := fits _ (same ▸ found)
      omega
    | unflushed _ _ _ acceptedLater =>
      exact ⟨rfl, Array.ext' (accepted.trans acceptedLater.symm), flushes, consumed⟩

/-- The moments at which a session reads, each with the input in front of it:
right after it has asked for a line. -/
inductive Reads (view : View) (input : Input) (before : Terminal) : Input → Terminal → Prop where
  | first (asked : View.invite before = .ok () moment) : Reads view input before input moment
  | next (reads : Reads view input before rest moment)
      (read : rest.readLine = .line line remaining)
      (goesOn : (do Session.consume line.length; view.respond line) moment = .ok true middle)
      (asked : View.invite middle = .ok () later) : Reads view input before remaining later

private theorem flush_flushed {writing : Writing Unit} {before after : Sink}
    (ran : (do writing; Writing.flush : Writing Unit) before = .ok () after) :
    after.flushes.toList.getLast? = some after.accepted.size := by
  simp only [Bind.bind, EStateM.bind] at ran
  split at ran
  · simp only [Writing.flush] at ran
    split at ran <;> cases ran
    simp
  · cases ran

private theorem invite_flushed {before moment : Terminal}
    (asked : View.invite before = .ok () moment) :
    moment.output.flushes.toList.getLast? = some moment.output.accepted.size := by
  obtain ⟨output, log, consumed⟩ := before
  unfold View.invite Session.write at asked
  simp only at asked
  split at asked <;> cases asked
  exact flush_flushed (by assumption)

/-- A session comes by each of its moments: from there on it is what is left of it. -/
theorem reads_session {input rest : Input} {before moment : Terminal}
    (reads : Reads view input before rest moment) :
    trial (view.run input) before = trial (proceed view rest) moment := by
  induction reads with
  | first asked => rw [run_eq, trial_then asked]
  | @next rest _ line remaining _ _ _ read goesOn asked ih =>
    have onward : proceed view rest = ((do Session.consume line.length; view.respond line) >>=
        fun goesOn => if goesOn then view.run remaining else pure ()) := by
      rw [proceed, read, bind_assoc]
    rw [ih, onward, trial_then goesOn, if_pos rfl, run_eq, trial_then asked]

/-- Whenever a line is read, everything written before has been passed on. -/
theorem reads_flushed {input rest : Input} {before moment : Terminal}
    (reads : Reads view input before rest moment) :
    moment.output.flushes.toList.getLast? = some moment.output.accepted.size := by
  cases reads with
  | first asked => exact invite_flushed asked
  | next _ _ _ asked => exact invite_flushed asked

/-- Faults lose nothing. Whatever the writer does, a session that colors nothing
writes the beginning of what it would write if nothing failed and stops at the
earliest fault with its error. It reads a line exactly when the prompt for it is
written in full and passed on, and everything written has been passed on by then.
Only the barrier and the flushes that fail matter; a limit on single writes or an
interruption changes nothing. -/
theorem faults_lose_nothing (view : View) (plain : view.mode = .tokens ∨ view.color = false)
    (bytes : List UInt8) : ∃ shown next, cutLines bytes = shown ++ next ∧
      (∀ line ∈ shown, Showable line) ∧ (∀ line ∈ next.head?, ¬ Showable line) ∧
      (session view bytes {}).2.output.accepted.toList = throughPrompt view shown shown.length ∧
      ∀ sink, Fresh sink →
        Salvages view (cutLines bytes) shown sink (session view bytes {}).2.output.accepted.toList
          (session view bytes {}).1 (session view bytes sink) ∧
        (∀ rest moment, Reads view { bytes } { output := sink } rest moment →
          session view bytes sink = trial (proceed view rest) moment ∧
            moment.output.flushes.toList.getLast? = some moment.output.accepted.size) ∧
        ∀ other, Fresh other → barrier other = barrier sink →
          other.failingFlushes = sink.failingFlushes →
          Alike (session view bytes other) (session view bytes sink) := by
  obtain ⟨shown, result, count, course⟩ := course_exists { bytes }
  have situated : Situated none 0 { bytes } [] := ⟨rfl, by simp, fun _ => rfl⟩
  obtain ⟨next, lines, showable, _, stops⟩ := course_lines course situated
  rw [List.append_nil] at lines
  obtain ⟨behind, sound, stopped⟩ := stops_sound stops
  obtain ⟨after, flushed, ran, went⟩ := run_delivers view course {} ⟨rfl, rfl⟩
  have perfect : session view bytes {} = (result, after) := ran
  have whole : after.output.accepted.toList = throughPrompt view shown shown.length := by
    rw [went.output.accepted, throughPrompt, List.take_length]
    rfl
  rw [perfect, whole, lines]
  refine ⟨shown, next, rfl, showable, stopped, rfl, fun sink fresh => ?_⟩
  obtain ⟨passed, stands, ends⟩ := session_ends plain course behind fresh
  refine ⟨⟨ends_kept ends, ends_unharmed stands ends sound,
    fun wall barred short works => ends_refused stands ends barred short works,
    fun index inside fails works fits => ends_unflushed stands ends inside fails works fits,
    passed, stands.consumed, stands.flushes, ends_read stands ends⟩, ?_, ?_⟩
  · intro rest moment reads
    exact ⟨reads_session reads, reads_flushed reads⟩
  · intro other freshOther same failing
    obtain ⟨passedOther, standsOther, endsOther⟩ := session_ends plain course behind freshOther
    exact ends_alike same failing standsOther endsOther stands ends

/-- A pipe that closes within a listing leaves the beginning of the listing. -/
theorem closed_pipe_cuts_listing :
    (session { mode := .tokens } [49, 10]
      { fault := some ⟨11, .refuse .closedPipe false⟩ }).2.output.accepted.toList <+:
      (session { mode := .tokens } [49, 10] {}).2.output.accepted.toList := by
  have fresh : Fresh { fault := some ⟨11, .refuse .closedPipe false⟩ } := ⟨rfl, rfl, rfl⟩
  obtain ⟨_, _, _, _, _, _, faults⟩ := faults_lose_nothing { mode := .tokens } (.inl rfl) [49, 10]
  exact (faults _ fresh).1.kept

end Summand.DialogueFaults
