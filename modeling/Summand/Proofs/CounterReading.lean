import Summand.Proofs.Segmentation
import Summand.Token.StreamRequest

/-! However tokens are pulled off a stream, one at a time or many at once, they are
those of one list, read through one counter. The list is what reading everything gives
in the beginning; the counter never passes the end of file that closes it. How far the
counter stands says how many characters have been read, and no call looks at more
tokens than it has to. -/
namespace Summand.CounterReading
open Scanning Segmentation TokenStream

/-- How many tokens are left at a counter, the end of file not counted. -/
def left (tokens : List Token) (count : Nat) : Nat := tokens.length - 1 - count

/-- The token at a counter, unless the end of file is there, and the counter after it. -/
def step (tokens : List Token) (count : Nat) : Option Token × Nat :=
  if left tokens count = 0 then (none, count) else (tokens[count]?, count + 1)

/-- What a request yields when it is made of a list of tokens at a counter, and where the
counter stands afterwards. There is no answer without a token at the counter. -/
def consult (tokens : List Token) (count : Nat) : Request → Option (Reply × Nat)
  | .next => tokens[count]?.map fun token => (.one token, count + min 1 (left tokens count))
  | .next? => some (.optional (step tokens count).1, (step tokens count).2)
  | .nth? n =>
    let skipped := count + min n (left tokens count)
    some (.optional (step tokens skipped).1, (step tokens skipped).2)
  | .take n =>
    let taken := min n (left tokens count)
    some (.many ((tokens.drop count).take taken), count + taken)
  | .drain =>
    some (.many ((tokens.drop count).take (left tokens count)), count + left tokens count)
  | .tokenize => some (.many (tokens.drop count), count + left tokens count)

/-- What requests yield one after another. -/
def consultAll (tokens : List Token) (count : Nat) : List Request → Option (List Reply × Nat)
  | [] => some ([], count)
  | request :: requests => do
    let (reply, count) ← consult tokens count request
    let (replies, count) ← consultAll tokens count requests
    pure (reply :: replies, count)

/-- How many tokens a request has to look at. It looks at the end of file only to notice
that nothing else is left, and then just once. -/
def looks (tokens : List Token) (count : Nat) : Request → Nat
  | .next | .next? => 1
  | .nth? n => min n (left tokens count) + 1
  | .take n => min n (left tokens count + 1)
  | .drain | .tokenize => left tokens count + 1

/-- The tokens that events report as read, by their kinds and places. -/
def lexed (events : List Event) : List (Kind × Nat) :=
  events.filterMap fun
    | .lexedToken kind position => some (kind, position)
    | _ => none

/-- What the report on a token says of it. -/
def sight (token : Token) : Kind × Nat := (token.kind, token.position)

/-- All tokens of a stream that are still to come, the end of file included. -/
def pending (stream : TokenStream) : List Token := stream.tokenize.value.1

/-- A stream stands at a counter of a list: what is still to come of it is the list from
there on. -/
def Stands (tokens : List Token) (count : Nat) (stream : TokenStream) : Prop :=
  pending stream = tokens.drop count

variable {tokens : List Token} {count : Nat} {stream : TokenStream}

theorem pending_at_end (position : Nat) :
    pending ⟨position, []⟩ = [.endOfFile position] := by
  simp [pending, tokenize, drain_at_end, bind, pure]

theorem pending_at_char (position : Nat) (c : Char) (others : List Char) :
    pending ⟨position, c :: others⟩ =
      (frontToken position c others).value :: pending (afterFront position c others) := by
  simp [pending, tokenize, drain_at_char, bind, pure]

theorem lexed_append (first second : List Event) :
    lexed (first ++ second) = lexed first ++ lexed second :=
  List.filterMap_append

/-- What is reported of a number that cannot be read is no token. -/
theorem lexed_frontToken (position : Nat) (c : Char) (others : List Char) :
    lexed (frontToken position c others).events = [] := by
  unfold frontToken Token.ofRun
  split
  · simp only [bind, pure, numberValue]
    cases Numeral.read? (frontRun c others) <;> rfl
  · rfl

theorem Stands.drop_ne_nil (stands : Stands tokens count stream) : tokens.drop count ≠ [] := by
  rw [← stands, pending, tokenize]
  simp [bind, pure]

theorem Stands.within (stands : Stands tokens count stream) : count < tokens.length := by
  by_contra beyond
  exact stands.drop_ne_nil (List.drop_eq_nil_of_le (Nat.le_of_not_lt beyond))

/-- All that can happen when a stream is asked for one token. At the end nothing changes
and the end of file is looked at. Otherwise the token at the counter comes off, and
nothing else is looked at. -/
theorem next_cases (stands : Stands tokens count stream) :
    (left tokens count = 0 ∧ tokens.drop count = [.endOfFile stream.position] ∧
      stream.next = ⟨(.endOfFile stream.position, stream),
        [.lexedToken .endOfFile stream.position]⟩ ∧
      stream.next?.value = (none, stream)) ∨
    ∃ token later, tokens.drop count = token :: tokens.drop (count + 1) ∧
      left tokens count = left tokens (count + 1) + 1 ∧ Stands tokens (count + 1) later ∧
      stream.next.value = (token, later) ∧ lexed stream.next.events = [sight token] ∧
      stream.next?.value = (some token, later) := by
  have inside := stands.within
  obtain ⟨position, rest⟩ := stream
  cases rest with
  | nil =>
    rw [Stands, pending_at_end] at stands
    have size := congrArg List.length stands
    rw [List.length_singleton, List.length_drop] at size
    exact .inl ⟨by unfold left; omega, stands.symm, rfl, rfl⟩
  | cons c others =>
    rw [Stands, pending_at_char] at stands
    have behind := congrArg (List.drop 1) stands
    rw [List.drop_succ_cons, List.drop_zero, List.drop_drop] at behind
    have later : Stands tokens (count + 1) (afterFront position c others) := behind
    have more := later.within
    refine .inr ⟨(frontToken position c others).value, _, ?_, ?_, later, ?_, ?_, ?_⟩
    · rw [← stands, behind]
    · unfold left
      omega
    · rw [next_at_char]
    · rw [next_at_char, lexed_append, lexed_frontToken]
      simp [lexed, sight, frontToken]
    · rw [next?_at_char]

theorem next?_events (stream : TokenStream) : stream.next?.events = stream.next.events := by
  simp [next?, bind, pure]

/-- A computation that takes a stream from one counter to another and looks at a number
of tokens on the way. -/
structure Moves (tokens : List Token) (count later looked : Nat)
    (result : Logged (α × TokenStream)) : Prop where
  forward : count ≤ later
  stands : Stands tokens later result.value.2
  seen : lexed result.events = ((tokens.drop count).take looked).map sight

theorem next_moves (stands : Stands tokens count stream) :
    tokens[count]? = some stream.next.value.1 ∧
      Moves tokens count (count + min 1 (left tokens count)) 1 stream.next := by
  rw [← List.head?_drop]
  rcases next_cases stands with ⟨empty, last, read, _⟩ | ⟨token, later, front, more, moved, read, seen, _⟩
  · rw [last, read, empty]
    exact ⟨rfl, Nat.le_refl _, stands, by rw [last]; rfl⟩
  · rw [front, read, more, Nat.min_eq_left (Nat.le_add_left ..)]
    exact ⟨rfl, Nat.le_succ _, by rwa [read], by rw [seen, front]; rfl⟩

theorem next?_moves (stands : Stands tokens count stream) :
    stream.next?.value.1 = (step tokens count).1 ∧
      Moves tokens count (step tokens count).2 1 stream.next? := by
  rw [step, ← List.head?_drop]
  rcases next_cases stands with ⟨empty, last, read, ended⟩ |
    ⟨token, later, front, more, moved, _, seen, read⟩
  · rw [if_pos empty, ended]
    exact ⟨rfl, Nat.le_refl _, by rwa [ended], by rw [next?_events, read, last]; rfl⟩
  · rw [if_neg (by omega), front, read]
    exact ⟨rfl, Nat.le_succ _, by rwa [read], by rw [next?_events, seen, front]; rfl⟩

/-- One token in front of some others that are looked at. -/
private theorem seen_cons {token : Token} {first second : List Event} {looked : Nat}
    (front : tokens.drop count = token :: tokens.drop (count + 1))
    (seen : lexed first = [sight token])
    (later : lexed second = ((tokens.drop (count + 1)).take looked).map sight) :
    lexed (first ++ second) = ((tokens.drop count).take (looked + 1)).map sight := by
  rw [lexed_append, seen, later, front]
  rfl

theorem nth?_moves (n : Nat) (stands : Stands tokens count stream) :
    (stream.nth? n).value.1 = (step tokens (count + min n (left tokens count))).1 ∧
      Moves tokens count (step tokens (count + min n (left tokens count))).2
        (min n (left tokens count) + 1) (stream.nth? n) := by
  induction n generalizing count stream with
  | zero =>
    rw [Nat.zero_min]
    exact next?_moves stands
  | succ n ih =>
    rcases next_cases stands with ⟨empty, last, read, ended⟩ |
      ⟨token, later, front, more, moved, _, seen, read⟩
    · have whole : stream.nth? (n + 1) = ⟨(none, stream), stream.next.events⟩ := by
        simp [nth?, bind, pure, ended, next?_events]
      rw [whole, empty, Nat.min_zero, step, if_pos (by simpa using empty), read]
      exact ⟨rfl, Nat.le_refl _, stands, by rw [last]; rfl⟩
    · have whole : stream.nth? (n + 1) =
          ⟨(later.nth? n).value, stream.next.events ++ (later.nth? n).events⟩ := by
        simp [nth?, bind, read, next?_events]
      obtain ⟨found, behind⟩ := ih moved
      rw [whole, more, Nat.add_min_add_right, ← Nat.add_assoc, Nat.add_right_comm]
      exact ⟨found, (Nat.le_succ _).trans behind.forward, behind.stands,
        seen_cons front seen behind.seen⟩

theorem take_moves (n : Nat) (stands : Stands tokens count stream) :
    (stream.take n).value.1 = (tokens.drop count).take (min n (left tokens count)) ∧
      Moves tokens count (count + min n (left tokens count))
        (min n (left tokens count + 1)) (stream.take n) := by
  induction n generalizing count stream with
  | zero =>
    rw [Nat.zero_min, Nat.zero_min]
    exact ⟨rfl, Nat.le_refl _, stands, rfl⟩
  | succ n ih =>
    rcases next_cases stands with ⟨empty, last, read, ended⟩ |
      ⟨token, later, front, more, moved, _, seen, read⟩
    · have whole : stream.take (n + 1) = ⟨([], stream), stream.next.events⟩ := by
        simp [TokenStream.take, bind, pure, ended, next?_events]
      rw [whole, empty, Nat.min_zero, read]
      exact ⟨rfl, Nat.le_refl _, stands, by rw [last]; simp [lexed, sight, Token.endOfFile]⟩
    · have whole : stream.take (n + 1) = ⟨(token :: (later.take n).value.1, (later.take n).value.2),
          stream.next.events ++ (later.take n).events⟩ := by
        simp [TokenStream.take, bind, pure, read, next?_events]
      obtain ⟨found, behind⟩ := ih moved
      rw [whole, more, Nat.add_min_add_right, Nat.add_min_add_right, ← Nat.add_assoc,
        Nat.add_right_comm]
      refine ⟨?_, (Nat.le_succ _).trans behind.forward, behind.stands,
        seen_cons front seen behind.seen⟩
      rw [front, List.take_succ_cons, found]

/-- Reading everything looks at everything. -/
theorem drain_seen (stream : TokenStream) :
    lexed stream.drain.events = (pending stream).map sight := by
  obtain ⟨position, source⟩ := stream
  revert position source
  refine read_induction (motive := fun stream =>
    lexed stream.drain.events = (pending stream).map sight) ?_ ?_
  · intro position
    rw [drain_at_end, pending_at_end]
    rfl
  · intro position c others later
    rw [drain_at_char, pending_at_char, lexed_append, lexed_append, lexed_frontToken, later]
    simp [lexed, sight, frontToken]

theorem drain_moves (stands : Stands tokens count stream) :
    stream.drain.value.1 = (tokens.drop count).take (left tokens count) ∧
      Moves tokens count (count + left tokens count) (left tokens count + 1) stream.drain := by
  have inside := stands.within
  have whole : stream.drain.value.1 ++ [.endOfFile stream.drain.value.2.position] =
      tokens.drop count := stands
  have size := congrArg List.length whole
  rw [List.length_append, List.length_singleton, List.length_drop] at size
  have taken : stream.drain.value.1.length = left tokens count := by
    unfold left
    omega
  refine ⟨by rw [← whole, ← taken, List.take_left], Nat.le_add_right .., ?_, ?_⟩
  · have ended := (drain_cut stream.position stream.rest).2
    rw [Stands, ← List.drop_drop, ← whole, ← taken, List.drop_left, ended]
    exact pending_at_end _
  · rw [drain_seen, stands, List.take_of_length_le]
    rw [List.length_drop]
    unfold left
    omega

theorem tokenize_moves (stands : Stands tokens count stream) :
    stream.tokenize.value.1 = tokens.drop count ∧
      Moves tokens count (count + left tokens count) (left tokens count + 1) stream.tokenize := by
  obtain ⟨_, moves⟩ := drain_moves stands
  exact ⟨stands, moves.forward, moves.stands, by simpa [tokenize, bind, pure] using moves.seen⟩

/-- Putting what was found in other terms is no further move. -/
theorem Moves.reply {later looked : Nat} {result : Logged (α × TokenStream)}
    (moves : Moves tokens count later looked result) (reply : α → Reply) :
    Moves tokens count later looked
      (do let (found, stream) ← result; pure (reply found, stream)) :=
  ⟨moves.forward, moves.stands, by simpa [bind, pure] using moves.seen⟩

/-- Every request yields what it yields of the list at the counter. -/
theorem answer_moves (request : Request) (stands : Stands tokens count stream) :
    ∃ later, consult tokens count request = some ((stream.answer request).value.1, later) ∧
      Moves tokens count later (looks tokens count request) (stream.answer request) := by
  cases request with
  | next =>
    obtain ⟨found, moves⟩ := next_moves stands
    exact ⟨_, by rw [consult, found]; rfl, moves.reply .one⟩
  | next? =>
    obtain ⟨found, moves⟩ := next?_moves stands
    exact ⟨_, by rw [consult, ← found]; rfl, moves.reply .optional⟩
  | nth? n =>
    obtain ⟨found, moves⟩ := nth?_moves n stands
    exact ⟨_, by rw [consult, ← found]; rfl, moves.reply .optional⟩
  | take n =>
    obtain ⟨found, moves⟩ := take_moves n stands
    exact ⟨_, by rw [consult, ← found]; rfl, moves.reply .many⟩
  | drain =>
    obtain ⟨found, moves⟩ := drain_moves stands
    exact ⟨_, by rw [consult, ← found]; rfl, moves.reply .many⟩
  | tokenize =>
    obtain ⟨found, moves⟩ := tokenize_moves stands
    exact ⟨_, by rw [consult, ← found]; rfl, moves.reply .many⟩

/-- So do any number of requests, one after another. -/
theorem answerAll_consults (history : List Request) (stands : Stands tokens count stream) :
    ∃ later, consultAll tokens count history =
        some ((stream.answerAll history).value.1, later) ∧
      Stands tokens later (stream.answerAll history).value.2 := by
  induction history generalizing count stream with
  | nil => exact ⟨count, rfl, stands⟩
  | cons request history ih =>
    obtain ⟨middle, found, moves⟩ := answer_moves request stands
    obtain ⟨later, foundLater, standsLater⟩ := ih moves.stands
    refine ⟨later, ?_, standsLater⟩
    rw [consultAll, found, Option.bind_eq_bind, Option.bind_some]
    dsimp only
    rw [foundLater]
    rfl

/-- How a stream over a source answers its requests when it stands at a counter of the
list of all tokens. -/
structure Behaves (source : String) (tokens : List Token) (count : Nat) (stream : TokenStream) :
    Prop where
  /-- The counter has not passed the end of file. -/
  within : count < tokens.length
  /-- As many characters are read as stand in front of the token at the counter, and no
  others are left. -/
  place : tokens[count]?.map (·.position) = some stream.position ∧
    stream.position ≤ source.length ∧ stream.rest = source.toList.drop stream.position
  /-- Every request yields what it yields of the list, and takes the stream to the same
  counter. -/
  answers : ∀ request, ∃ later, count ≤ later ∧
    consult tokens count request = some ((stream.answer request).value.1, later) ∧
    tokens[later]?.map (·.position) = some (stream.answer request).value.2.position
  /-- No request gives a character back. -/
  forward : ∀ request, stream.position ≤ (stream.answer request).value.2.position
  /-- A request looks at as many tokens as it has to and at no others. -/
  seen : ∀ request, lexed (stream.answer request).events =
    ((tokens.drop count).take (looks tokens count request)).map sight

/-- All tokens of a source before the end of file. -/
def body (source : String) : List Token := (ofSource source).drain.value.1

variable {source : String}

theorem pending_position (stream : TokenStream) :
    (pending stream).head?.map (·.position) = some stream.position := by
  obtain ⟨position, rest⟩ := stream
  cases rest with
  | nil => rw [pending_at_end]; rfl
  | cons c others =>
    rw [pending_at_char]
    simp [frontToken]

theorem stands_position (stands : Stands tokens count stream) :
    tokens[count]?.map (·.position) = some stream.position := by
  rw [← List.head?_drop, ← stands, pending_position]

/-- The characters that are left at a counter are those of the tokens that are left, and
together with those read they make up the source. -/
theorem stands_rest (stands : Stands (pending (ofSource source)) count stream) :
    stream.rest = ((body source).drop count).flatMap characters ∧
      stream.position + stream.rest.length = source.length := by
  have inside := stands.within
  have whole : pending (ofSource source) = body source ++ [.endOfFile source.length] :=
    tokenize_eq source
  obtain ⟨cut, ended⟩ := drain_cut stream.position stream.rest
  have split : stream.drain.value.1 ++ [.endOfFile (stream.position + stream.rest.length)] =
      (pending (ofSource source)).drop count := by
    rw [← stands, pending, tokenize]
    simp only [bind, pure]
    rw [ended]
  rw [whole, List.length_append, List.length_singleton] at inside
  rw [whole, List.drop_append_of_le_length (Nat.le_of_lt_succ inside)] at split
  obtain ⟨front, last⟩ := List.append_inj' split rfl
  refine ⟨by rw [← front]; exact cut.joined.symm, ?_⟩
  simpa [Token.endOfFile] using last

theorem stands_place (stands : Stands (pending (ofSource source)) count stream) :
    stream.position ≤ source.length ∧ stream.rest = source.toList.drop stream.position := by
  obtain ⟨rest, size⟩ := stands_rest stands
  have joined : (body source).flatMap characters = source.toList := (drain_cut 0 source.toList).1.joined
  rw [← List.take_append_drop count (body source), List.flatMap_append, ← rest] at joined
  have read := congrArg List.length joined
  rw [List.length_append, String.length_toList] at read
  refine ⟨by omega, ?_⟩
  rw [← joined, List.drop_left']
  omega

/-- A later counter is a later place. -/
theorem stands_forward {later : Nat} {other : TokenStream} (order : count ≤ later)
    (stands : Stands (pending (ofSource source)) count stream)
    (standsLater : Stands (pending (ofSource source)) later other) :
    stream.position ≤ other.position := by
  obtain ⟨rest, size⟩ := stands_rest stands
  obtain ⟨restLater, sizeLater⟩ := stands_rest standsLater
  obtain ⟨between, split⟩ := List.drop_suffix_drop_left (body source) order
  have longer := congrArg List.length (congrArg (List.flatMap characters) split)
  rw [List.flatMap_append, ← restLater, ← rest, List.length_append] at longer
  omega

theorem stands_behaves (stands : Stands (pending (ofSource source)) count stream) :
    Behaves source (pending (ofSource source)) count stream where
  within := stands.within
  place := ⟨stands_position stands, stands_place stands⟩
  answers request := by
    obtain ⟨later, found, moves⟩ := answer_moves request stands
    exact ⟨later, moves.forward, found, stands_position moves.stands⟩
  forward request := by
    obtain ⟨later, _, moves⟩ := answer_moves request stands
    exact stands_forward moves.forward stands moves.stands
  seen request := by
    obtain ⟨later, _, moves⟩ := answer_moves request stands
    exact moves.seen

/-- Whatever is asked of a stream over a source, and in whatever order, the replies are
those of the list of all its tokens, read through one counter that begins at the first of
them and never passes the end of file; and the stream goes on to answer from there. -/
theorem history_reads_counter (source : String) (history : List Request) :
    let tokens := (ofSource source).tokenize.value.1
    let ending := ((ofSource source).answerAll history).value
    (∃ body, tokens = body ++ [.endOfFile source.length] ∧
        ∀ token ∈ body, token.kind ≠ .endOfFile) ∧
      ∃ count, consultAll tokens 0 history = some (ending.1, count) ∧
        Behaves source tokens count ending.2 := by
  intro tokens ending
  have begins : Stands tokens 0 (ofSource source) := rfl
  obtain ⟨count, found, stands⟩ := answerAll_consults history begins
  refine ⟨⟨body source, tokenize_eq source, fun token member ends => ?_⟩, count, found,
    stands_behaves stands⟩
  have fits := (drain_cut 0 source.toList).1.fitting token member
  rw [ends] at fits
  exact fits

end Summand.CounterReading
