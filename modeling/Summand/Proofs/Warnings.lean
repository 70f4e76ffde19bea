import Summand.Proofs.Evaluation
import Summand.Proofs.Reporting

/-! Zero is the value of some numbers and stands in for that of all others that cannot be
read. A number of the second sort is warned of, whichever way the source is read: reading
keeps the balance of the warnings, so that those made and those still due are always those
due in the beginning, and at the end of the source none are due any more. -/
namespace Summand.Warnings
open CounterReading Delivery Evaluation NumeralValue Reporting Scanning Segmentation TokenStream

/-- A number whose value was lost. It counts as zero, although it has a character that is
not a zero. -/
def Lost (token : Token) : Prop :=
  token.kind = .number ∧ token.value = some 0 ∧ ∃ c ∈ characters token, c ≠ '0'

instance : DecidablePred Lost := fun token =>
  -- Not by a search through all characters there are.
  have := List.decidableBEx (· ≠ '0') (characters token)
  inferInstanceAs (Decidable
    (token.kind = .number ∧ token.value = some 0 ∧ ∃ c ∈ characters token, c ≠ '0'))

/-- What the log shows of a number whose value was lost. -/
def warning (token : Token) : Entry :=
  ⟨.warn, "ttc::parser::lexer", "number literal is not a valid i32, using 0",
    [("text", .text (token.text.getD "")), ("position", .number token.position)]⟩

/-- The warnings among events. -/
def warnings (events : List Event) : List Entry :=
  (events.filter (·.level = .warn)).map entry

/-- The warnings due for tokens: one for each number whose value was lost, in order. -/
def due (tokens : List Token) : List Entry := (tokens.filter (Lost ·)).map warning

/-- No value is lost silently on the way through some tokens. -/
structure Accounted (tokens : List Token) (events : List Event) : Prop where
  /-- The warnings are those due, and there are no others. -/
  warned : warnings events = due tokens
  /-- A number without a warning has the value that it spells in base ten. -/
  faithful : ∀ token ∈ tokens, token.kind = .number → warning token ∉ warnings events →
    (characters token).all Char.isDigit = true ∧
      token.value = some (decimal (characters token) : Int)

/-- Requests after which no character of a source is left. -/
def Exhausts (source : String) (history : List Request) : Prop :=
  ((ofSource source).answerAll history).value.2.rest = []

/-- Reading that warns of the numbers whose value was lost among the tokens it takes off a
stream, and of nothing else. -/
def Warns (stream : TokenStream) (result : Logged (α × TokenStream)) : Prop :=
  due (pending stream) = warnings result.events ++ due (pending result.value.2)

/-- Requests that are sure to get to the end of some tokens: they ask for all of them at once,
or for the next one often enough. -/
def Thorough (tokens : List Token) (history : List Request) : Prop :=
  .drain ∈ history ∨ .tokenize ∈ history ∨
    tokens.length ≤ history.count .next + history.count .next? + 1

variable {run : List Char} {token : Token} {stream : TokenStream} {source : String}

theorem digitValue_eq_zero {c : Char} (digit : c.isDigit = true) : digitValue c = 0 ↔ c = '0' := by
  have low : '0'.toNat ≤ c.toNat := by
    have range : 48 ≤ c.toNat ∧ c.toNat ≤ 57 := by
      simpa [Char.isDigit, UInt32.le_iff_toNat_le] using digit
    exact range.1
  rw [digitValue, ← Char.toNat_inj]
  omega

/-- Digits spell zero only if all of them are zeros. -/
theorem decimal_eq_zero (digits : run.all Char.isDigit = true) :
    decimal run = 0 ↔ ∀ c ∈ run, c = '0' := by
  induction run with
  | nil => exact iff_of_true rfl (List.forall_mem_nil _)
  | cons c run ih =>
    rw [List.all_cons, Bool.and_eq_true] at digits
    rw [decimal_cons, Nat.add_eq_zero_iff, ih digits.2, List.forall_mem_cons,
      ← digitValue_eq_zero digits.1, Nat.mul_eq_zero]
    exact and_congr_left' (or_iff_left (Nat.pow_eq_zero.not.mpr (by simp)))

/-- What cannot be read is what is worth nothing without being all zeros. -/
theorem lost_worth (run : List Char) :
    (worth run = 0 ∧ ∃ c ∈ run, c ≠ '0') ↔ ¬ Readable run := by
  constructor
  · rintro ⟨nothing, c, member, other⟩ readable
    rw [worth, if_pos readable] at nothing
    exact other ((decimal_eq_zero readable.1).mp nothing c member)
  · intro unreadable
    refine ⟨by rw [worth, if_neg unreadable], ?_⟩
    by_contra zeros
    push Not at zeros
    have digits : run.all Char.isDigit = true :=
      List.all_eq_true.mpr fun c member => by rw [zeros c member]; rfl
    have nothing := (decimal_eq_zero digits).mpr zeros
    exact unreadable ⟨digits, by omega⟩

/-- Every number that is still to come has the worth of its text for its value. -/
theorem pending_worth (stream : TokenStream) : ∀ token ∈ pending stream, token.kind = .number →
    token.value = some (worth (characters token) : Int) := by
  obtain ⟨position, source⟩ := stream
  revert position source
  refine read_induction (motive := fun stream => ∀ token ∈ pending stream,
    token.kind = .number → token.value = some (worth (characters token) : Int)) ?_ ?_
  · intro position token member number
    rw [pending_at_end, List.mem_singleton] at member
    rw [member] at number
    cases number
  · intro position c others ih
    rw [pending_at_char, List.forall_mem_cons]
    refine ⟨fun number => ?_, ih⟩
    rw [frontToken_characters]
    rw [frontToken, ofRun_worth] at number ⊢
    exact if_pos number

/-- The value of a number is lost exactly if it cannot be read. -/
theorem lost_iff_unreadable
    (valued : token.kind = .number → token.value = some (worth (characters token) : Int)) :
    Lost token ↔ Unreadable token := by
  rw [Lost, Unreadable, ← lost_worth]
  refine and_congr_right fun number => and_congr_left' ?_
  rw [valued number, Option.some_inj]
  exact Int.natCast_eq_zero

theorem warnings_append (first second : List Event) :
    warnings (first ++ second) = warnings first ++ warnings second := by
  simp [warnings]

theorem warnings_report (token : Token) :
    warnings (report token) = if Unreadable token then [warning token] else [] := by
  rw [report]
  split <;> rfl

/-- What is due for a stream is due for the token in front and for what follows it. -/
theorem due_at_char (position : Nat) (c : Char) (others : List Char) :
    due (pending ⟨position, c :: others⟩) =
      warnings (report (frontToken position c others).value) ++
        due (pending (afterFront position c others)) := by
  have member : (frontToken position c others).value ∈ pending ⟨position, c :: others⟩ := by
    rw [pending_at_char]
    exact List.mem_cons_self
  have same := lost_iff_unreadable (pending_worth _ _ member)
  rw [warnings_report, due, pending_at_char, List.filter_cons]
  by_cases lost : Lost (frontToken position c others).value
  · rw [if_pos (decide_eq_true lost), if_pos (same.mp lost)]
    rfl
  · rw [if_neg (by simpa using lost), if_neg (lost ∘ same.mpr)]
    rfl

theorem due_at_end (position : Nat) : due (pending ⟨position, []⟩) = [] := by
  rw [pending_at_end]
  rfl

theorem next_warns (stream : TokenStream) : Warns stream stream.next := by
  obtain ⟨position, rest⟩ := stream
  cases rest with
  | nil => rfl
  | cons c others => rw [Warns, next_at_char, frontToken_events, due_at_char]

theorem next?_warns (stream : TokenStream) : Warns stream stream.next? := by
  have left : stream.next?.value.2 = stream.next.value.2 := by
    simp [next?, bind, pure]
  rw [Warns, left, next?_events]
  exact next_warns stream

theorem pure_warns (found : α) (stream : TokenStream) : Warns stream (pure (found, stream)) := rfl

/-- Reading on keeps the balance. -/
theorem Warns.bind {result : Logged (α × TokenStream)}
    {next : α × TokenStream → Logged (β × TokenStream)} (first : Warns stream result)
    (later : Warns result.value.2 (next result.value)) : Warns stream (result >>= next) := by
  rw [Warns] at first later ⊢
  rw [first, later, ← List.append_assoc, ← warnings_append]
  rfl

theorem nth?_warns (n : Nat) (stream : TokenStream) : Warns stream (stream.nth? n) := by
  induction n generalizing stream with
  | zero => exact next?_warns stream
  | succ n ih =>
    refine (next?_warns stream).bind ?_
    dsimp only
    split
    · exact pure_warns _ _
    · exact ih _

theorem take_warns (n : Nat) (stream : TokenStream) : Warns stream (stream.take n) := by
  induction n generalizing stream with
  | zero => exact pure_warns _ _
  | succ n ih =>
    refine (next?_warns stream).bind ?_
    dsimp only
    split
    · exact pure_warns _ _
    · exact (ih _).bind (pure_warns _ _)

theorem drain_warns (stream : TokenStream) : Warns stream stream.drain := by
  obtain ⟨position, source⟩ := stream
  revert position source
  refine read_induction (motive := fun stream => Warns stream stream.drain) ?_ ?_
  · intro position
    rw [Warns, drain_at_end, due_at_end]
    rfl
  · intro position c others ih
    rw [Warns] at ih ⊢
    rw [due_at_char, ih, drain_at_char, warnings_append, frontToken_events, List.append_assoc]

theorem answer_warns (stream : TokenStream) (request : Request) :
    Warns stream (stream.answer request) := by
  cases request with
  | next => exact (next_warns stream).bind (pure_warns _ _)
  | next? => exact (next?_warns stream).bind (pure_warns _ _)
  | nth? n => exact (nth?_warns n stream).bind (pure_warns _ _)
  | take n => exact (take_warns n stream).bind (pure_warns _ _)
  | drain => exact (drain_warns stream).bind (pure_warns _ _)
  | tokenize => exact ((drain_warns stream).bind (pure_warns _ _)).bind (pure_warns _ _)

/-- However a stream is read, the warnings made and those still due are those due before. -/
theorem answerAll_warns (history : List Request) (stream : TokenStream) :
    Warns stream (stream.answerAll history) := by
  induction history generalizing stream with
  | nil => exact pure_warns _ _
  | cons request history ih =>
    exact (answer_warns stream request).bind ((ih _).bind (pure_warns _ _))

/-- At the end of a source nothing is due any more. -/
theorem Warns.ended {result : Logged (α × TokenStream)} (warns : Warns stream result)
    (ended : result.value.2.rest = []) : warnings result.events = due (pending stream) := by
  obtain ⟨⟨found, position, rest⟩, events⟩ := result
  cases ended
  rw [Warns, due_at_end, List.append_nil] at warns
  exact warns.symm

/-- Listing a stream to its end warns of what is due for it. -/
theorem listStream_warns (stream : TokenStream) : ∀ {terminal after : Terminal},
    Session.listStream stream terminal = .ok () after → ∃ events,
      after.log.toList = terminal.log.toList ++ events ∧
        warnings events = due (pending stream) := by
  obtain ⟨position, source⟩ := stream
  revert position source
  refine read_induction (motive := fun stream => ∀ {terminal after : Terminal},
    Session.listStream stream terminal = .ok () after → ∃ events,
      after.log.toList = terminal.log.toList ++ events ∧
        warnings events = due (pending stream)) ?_ ?_
  · intro position terminal after ran
    rw [Session.listStream, next?_at_end] at ran
    cases ran
    exact ⟨[.lexedToken .endOfFile position], by simp, (due_at_end position).symm⟩
  · intro position c others ih terminal after ran
    rw [Session.listStream, next?_at_char, frontToken_events] at ran
    have reported : Session.report (report (frontToken position c others).value) terminal =
        .ok () { terminal with
          log := terminal.log ++ report (frontToken position c others).value } := rfl
    simp only [Bind.bind, EStateM.bind, reported, Session.write] at ran
    -- What is written in between leaves the log alone.
    cases wrote : Writing.pieces ((frontToken position c others).value.listing ++ ["\n"])
        terminal.output with
    | error error output =>
      rw [wrote] at ran
      cases ran
    | ok value output =>
      rw [wrote] at ran
      obtain ⟨events, logged, warned⟩ := ih ran
      refine ⟨report (frontToken position c others).value ++ events, ?_, ?_⟩
      · rw [logged]
        simp
      · rw [warnings_append, warned, due_at_char]

/-- Warnings that are those due leave no doubt about any other number. -/
theorem accounted {events : List Event}
    (warned : warnings events = due (ofSource source).tokenize.value.1) :
    Accounted (ofSource source).tokenize.value.1 events where
  warned := warned
  faithful token member number unwarned := by
    have valued := pending_worth (ofSource source) token member number
    have readable : Readable (characters token) := by
      by_contra unreadable
      have lost := (lost_iff_unreadable fun _ => valued).mpr ⟨number, unreadable⟩
      refine unwarned (warned ▸ List.mem_map_of_mem (List.mem_filter.mpr ⟨member, ?_⟩))
      exact decide_eq_true lost
    rw [worth, if_pos readable] at valued
    exact ⟨readable.1, valued⟩

theorem step_count (tokens : List Token) (count : Nat) :
    (step tokens count).2 = count + min 1 (left tokens count) := by
  rw [step]
  split <;> dsimp only <;> omega

/-- Where a request gets to if tokens are left behind it: as far as the single tokens it asks
for, and it cannot be one for all of them. -/
theorem consult_forward {tokens : List Token} {count later : Nat} {request : Request}
    {reply : Reply} (found : consult tokens count request = some (reply, later)) :
    count ≤ later ∧ (left tokens later = 0 ∨
      count + [request].count .next + [request].count .next? ≤ later ∧
        request ≠ .drain ∧ request ≠ .tokenize) := by
  cases request with
  | next =>
    obtain ⟨_, _, same⟩ := Option.map_eq_some_iff.mp found
    cases same
    simp [left]
    omega
  | next? =>
    cases found
    simp [step_count, left]
    omega
  | nth? n =>
    cases found
    simp [step_count, left]
    omega
  | take n =>
    cases found
    simp
  | drain | tokenize =>
    cases found
    refine ⟨Nat.le_add_right .., .inl ?_⟩
    unfold left
    omega

/-- Where requests get to if tokens are left behind them. -/
theorem consultAll_forward {tokens : List Token} {count later : Nat} {history : List Request}
    {replies : List Reply} (found : consultAll tokens count history = some (replies, later)) :
    count ≤ later ∧ (left tokens later = 0 ∨
      count + history.count .next + history.count .next? ≤ later ∧
        .drain ∉ history ∧ .tokenize ∉ history) := by
  induction history generalizing count replies with
  | nil =>
    cases found
    simp
  | cons request history ih =>
    obtain ⟨⟨reply, middle⟩, first, found⟩ := Option.bind_eq_some_iff.mp found
    obtain ⟨⟨others, last⟩, rest, same⟩ := Option.bind_eq_some_iff.mp found
    cases same
    obtain ⟨forward, reached⟩ := consult_forward first
    obtain ⟨forwardLater, reachedLater⟩ := ih rest
    refine ⟨forward.trans forwardLater, ?_⟩
    rcases reached with ended | ⟨singles, notDrain, notTokenize⟩
    · left
      unfold left at ended ⊢
      omega
    · refine reachedLater.imp_right fun ⟨singlesLater, drains, tokenizes⟩ => ?_
      refine ⟨?_, ?_, ?_⟩
      · rw [← List.singleton_append, List.count_append, List.count_append]
        omega
      · simp [drains, notDrain.symm]
      · simp [tokenizes, notTokenize.symm]

/-- A stream that stands at the last token has no characters left. -/
theorem rest_at_last {tokens : List Token} {count : Nat} (stands : Stands tokens count stream)
    (last : left tokens count = 0) : stream.rest = [] := by
  rcases next_cases stands with ⟨_, _, read, _⟩ | ⟨_, _, _, more, _⟩
  · obtain ⟨position, rest⟩ := stream
    cases rest with
    | nil => rfl
    | cons c others =>
      rw [next_at_char] at read
      have same : afterFront position c others = ⟨position, c :: others⟩ :=
        congrArg (·.value.2) read
      have shorter := afterFront_shorter position c others
      rw [same] at shorter
      exact absurd shorter (Nat.lt_irrefl _)
  · omega

theorem thorough_exhausts {history : List Request}
    (thorough : Thorough (ofSource source).tokenize.value.1 history) : Exhausts source history := by
  have begins : Stands (pending (ofSource source)) 0 (ofSource source) := rfl
  obtain ⟨later, found, stands⟩ := answerAll_consults history begins
  refine rest_at_last stands ?_
  rcases (consultAll_forward found).2 with ended | ⟨singles, noDrain, noTokenize⟩
  · exact ended
  · have enough : (pending (ofSource source)).length ≤
        history.count .next + history.count .next? + 1 :=
      (thorough.resolve_left noDrain).resolve_left noTokenize
    unfold left
    omega

/-- No value is lost silently, however a source is read to its end: by any requests, in any
order, as long as no character is left, by listing it, which ends well wherever nothing
fails, or by collecting its buffer. Each time the warnings are one for each number that
counts as zero without being all zeros, in the order of the numbers and with their texts and
places, and every other number has the value that its digits spell. -/
theorem no_value_lost_silently (source : String) :
    let tokens := (ofSource source).tokenize.value.1
    (∀ history, Exhausts source history →
      Accounted tokens ((ofSource source).answerAll history).events) ∧
    (∀ history, Thorough tokens history → Exhausts source history) ∧
    (∀ terminal after, Session.listTokens source terminal = .ok () after → ∃ events,
      after.log.toList = terminal.log.toList ++ events ∧ Accounted tokens events) ∧
    (∀ terminal : Terminal, Reliable terminal.output →
      ∃ after, Session.listTokens source terminal = .ok () after) ∧
    Accounted tokens (TokenBuffer.ofSource source).events := by
  refine ⟨fun history exhausts => ?_, fun history => thorough_exhausts, ?_, ?_, ?_⟩
  · exact accounted ((answerAll_warns history _).ended exhausts)
  · intro terminal after ran
    obtain ⟨events, logged, warned⟩ := listStream_warns _ ran
    exact ⟨events, logged, accounted warned⟩
  · intro terminal reliable
    obtain ⟨output, _, ran, _⟩ := (writes_pieces _).emits terminal.output reliable
    obtain ⟨log, passes, _⟩ := listStream_carries (ofSource source) terminal
    exact ⟨_, passes _ _ ran⟩
  · have drained := (drain_warns (ofSource source)).ended (by rw [(drain_cut _ _).2])
    refine accounted (Eq.trans ?_ drained)
    simp only [TokenBuffer.ofSource, bind, pure, Logged.emit, warnings_append]
    exact (congrArg _ (List.append_nil _)).trans (List.append_nil _)

/-- Of two numbers that count as zero only the one that is not all zeros is warned of, also
when it is skipped. -/
theorem overflow_not_silent :
    let source := "00+3000000000-1"
    let tokens := (ofSource source).tokenize.value.1
    let history : List Request := [.nth? 3, .next, .next]
    (Exhausts source history ∧ Accounted tokens ((ofSource source).answerAll history).events) ∧
      (Thorough tokens [.next?, .tokenize] ∧ Exhausts source [.next?, .tokenize]) ∧
      (Reliable ({} : Terminal).output ∧ ∃ after, Session.listTokens source {} = .ok () after ∧
        ∃ events, after.log.toList = events ∧ Accounted tokens events) ∧
      due tokens = [warning
        { kind := .number, position := 3, text := some "3000000000", value := some 0 }] := by
  intro source tokens history
  obtain ⟨told, ends, listed, lists, _⟩ := no_value_lost_silently source
  have exhausts : Exhausts source history := by
    unfold Exhausts
    decide +kernel
  have thorough : Thorough tokens [.next?, .tokenize] := .inr (.inl (by simp))
  have reliable : Reliable ({} : Terminal).output := ⟨rfl, rfl⟩
  obtain ⟨after, ran⟩ := lists {} reliable
  obtain ⟨events, logged, accounted⟩ := listed {} after ran
  exact ⟨⟨exhausts, told history exhausts⟩, ⟨thorough, ends _ thorough⟩,
    ⟨reliable, after, ran, events, logged, accounted⟩, by decide +kernel⟩

end Summand.Warnings
