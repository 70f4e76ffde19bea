import Summand.Proofs.SourceReading
import Summand.Proofs.Words

/-! Whatever is called on the buffer of a source, and in whatever order, its tokens stay
the tokens of the source without trivia, closed by the only end of file, and its cursor
moves forward or stays. What a call answers follows from the tokens and the cursor, and
no calculation it takes breaks off but the sum of a look ahead. -/
namespace Summand.BufferHistory
open Segmentation Significance SourceReading SumReading TokenBuffer

/-- How a buffer answers its calls, as far as that is settled by its tokens and its cursor. -/
structure Behaves (buffer : TokenBuffer) : Prop where
  /-- No call changes the tokens. -/
  kept : ∀ request, (buffer.answer request).value.2.tokens = buffer.tokens
  /-- No call moves the cursor back. -/
  forward : ∀ request, buffer.cursor ≤ (buffer.answer request).value.2.cursor
  /-- The current token is the one at the cursor, or the last one. -/
  current : buffer.tokens[min buffer.cursor (buffer.tokens.length - 1)]? = some buffer.current ∧
    (buffer.answer .current).value = (.one buffer.current, buffer)
  /-- Taking a token moves the cursor one place on, at the end and past it too. -/
  next : (buffer.answer .next).value =
    (.one buffer.current, { buffer with cursor := buffer.cursor + 1 })
  /-- So does taking a token of a wanted kind if there is one. -/
  hit : ∀ kind, buffer.current.kind = kind → (buffer.answer (.expect kind)).value =
    (.one buffer.current, { buffer with cursor := buffer.cursor + 1 })
  /-- If there is none, the cursor stays and is the position of the placeholder. -/
  miss : ∀ kind, buffer.current.kind ≠ kind → (buffer.answer (.expect kind)).value =
    (.one { kind, position := buffer.cursor, text := none, value := none }, buffer)
  /-- A look ahead finds the token at its index, or the last one. -/
  peek : ∀ offset, buffer.cursor + offset ≤ indexLimit → ∃ token,
    buffer.tokens[min (buffer.cursor + offset) (buffer.tokens.length - 1)]? = some token ∧
      (buffer.answer (.peek offset)).value = (.one token, buffer)
  /-- A look ahead whose index is no machine word fails and changes nothing. -/
  overflow : ∀ offset, indexLimit < buffer.cursor + offset →
    (buffer.answer (.peek offset)).value = (.failed .overflow, buffer)
  /-- A cursor below the last machine word stays a machine word, provided that there are no
  more tokens than machine words. -/
  room : buffer.cursor < indexLimit → buffer.tokens.length ≤ UInt64.size → ∀ request,
    (buffer.answer request).value.2.cursor ≤ indexLimit
  /-- As long as the cursor stays a machine word, that sum is all that can break off when
  every calculation is checked. -/
  breach : ∀ request, (buffer.answer request).value.2.cursor ≤ indexLimit → ∀ cause,
    Words.answer buffer.tokens buffer.cursor request = .error cause ↔
      cause = .sum ∧ ∃ offset, request = .peek offset ∧ indexLimit < buffer.cursor + offset
  /-- What does not break off has the same answer and leaves the same cursor. -/
  agrees : ∀ request, (buffer.answer request).value.2.cursor ≤ indexLimit → ∀ reply cursor,
    Words.answer buffer.tokens buffer.cursor request = .ok (reply, cursor) →
      reply = (buffer.answer request).value.1 ∧ cursor = (buffer.answer request).value.2.cursor

variable {buffer : TokenBuffer}

theorem answer_peek (buffer : TokenBuffer) (offset : Nat) :
    (buffer.answer (.peek offset)).value.2 = buffer := by
  unfold answer
  dsimp only
  split <;> rfl

theorem answer_expect (buffer : TokenBuffer) (kind : Kind) :
    (buffer.answer (.expect kind)).value =
      (.one (buffer.expect kind).value.1, (buffer.expect kind).value.2) :=
  rfl

/-- A call does nothing to a buffer but move its cursor on. -/
theorem answer_moved (buffer : TokenBuffer) (request : Request) :
    ∃ count, (buffer.answer request).value.2 = moved buffer count := by
  cases request with
  | tokens | current => exact ⟨0, rfl⟩
  | next => exact ⟨1, rfl⟩
  | peek offset => exact ⟨0, answer_peek buffer offset⟩
  | expect kind =>
    by_cases same : buffer.current.kind = kind
    · exact ⟨1, congrArg Prod.snd (expect_hit same)⟩
    · exact ⟨0, congrArg Prod.snd (expect_miss same)⟩
  | parse => exact ⟨_, (parse_exact buffer).1⟩

/-- Neither do any number of calls. -/
theorem answerAll_moved (buffer : TokenBuffer) (history : List Request) :
    ∃ count, (buffer.answerAll history).value.2 = moved buffer count := by
  induction history generalizing buffer with
  | nil => exact ⟨0, rfl⟩
  | cons request history ih =>
    obtain ⟨first, step⟩ := answer_moved buffer request
    obtain ⟨later, run⟩ := ih (buffer.answer request).value.2
    refine ⟨first + later, ?_⟩
    rw [← moved_moved, ← step, ← run]
    rfl

/-- Only reading a sum moves the cursor by more than one place, and never past the end. -/
theorem answer_room (below : buffer.cursor < indexLimit)
    (countable : buffer.tokens.length ≤ UInt64.size) (request : Request) :
    (buffer.answer request).value.2.cursor ≤ indexLimit := by
  have size : buffer.tokens.length = buffer.body.size + 1 := by simp [TokenBuffer.tokens]
  cases request with
  | tokens | current => exact below.le
  | next => exact below
  | peek offset =>
    rw [answer_peek]
    exact below.le
  | expect kind =>
    by_cases same : buffer.current.kind = kind
    · rw [answer_expect, expect_hit same]
      exact below
    · rw [answer_expect, expect_miss same]
      exact below.le
  | parse =>
    have final : (buffer.answer .parse).value.2 = _ := (parse_exact buffer).1
    rw [final]
    by_cases inside : buffer.cursor ≤ buffer.body.size
    · have ended := run_ends_before_file inside
      simp only [moved, indexLimit]
      omega
    · rw [ahead_outside (Nat.lt_of_not_le inside)]
      exact below.le

theorem behaves (buffer : TokenBuffer) : Behaves buffer where
  kept request := by
    obtain ⟨count, step⟩ := answer_moved buffer request
    rw [step]
    rfl
  forward request := by
    obtain ⟨count, step⟩ := answer_moved buffer request
    rw [step]
    exact Nat.le_add_right ..
  current := ⟨Words.tokens_clamped buffer buffer.cursor, rfl⟩
  next := rfl
  hit kind same := by
    rw [answer_expect, expect_hit same]
    rfl
  miss kind other := by
    rw [answer_expect, expect_miss other]
    rfl
  peek offset fits := by
    refine ⟨_, Words.tokens_clamped buffer _, ?_⟩
    simp [answer, TokenBuffer.peek, fits, pure]
  overflow offset beyond := (Words.answer_beyond beyond).2
  room below countable request := answer_room below countable request
  breach request fits cause := by
    constructor
    · intro broke
      -- Any call but a look ahead beyond the machine words goes through and did not break off.
      by_cases beyond : ∃ offset, request = .peek offset ∧ indexLimit < buffer.cursor + offset
      · obtain ⟨offset, rfl, beyond⟩ := beyond
        rw [(Words.answer_beyond beyond).1] at broke
        cases broke
        exact ⟨rfl, offset, rfl, beyond⟩
      · have within : ∀ offset, request = .peek offset → buffer.cursor + offset ≤ indexLimit :=
          fun offset same => Nat.le_of_not_lt fun far => beyond ⟨offset, same, far⟩
        rw [Words.answer_agrees fits within] at broke
        cases broke
    · rintro ⟨rfl, offset, rfl, beyond⟩
      exact (Words.answer_beyond beyond).1
  agrees request fits reply cursor went := by
    have within : ∀ offset, request = .peek offset → buffer.cursor + offset ≤ indexLimit := by
      rintro offset rfl
      by_contra beyond
      rw [(Words.answer_beyond (Nat.lt_of_not_le beyond)).1] at went
      cases went
    rw [Words.answer_agrees fits within] at went
    cases went
    exact ⟨rfl, rfl⟩

/-- Whatever was called on the buffer of a source, it holds the tokens of the source but
for white space and bad tokens; the end of file closes them and is nowhere else among
them; and the buffer goes on to answer as it should. -/
theorem history_keeps_buffer (source : String) (history : List Request) :
    let buffer := ((TokenBuffer.ofSource source).value.answerAll history).value.2
    buffer.tokens = (TokenStream.ofSource source).tokenize.value.1.filter
        (fun token => token.kind ≠ .whiteSpace ∧ token.kind ≠ .bad) ∧
      (∃ body, buffer.tokens = body ++ [.endOfFile source.length] ∧
        ∀ token ∈ body, token.kind ≠ .endOfFile) ∧
      Behaves buffer := by
  intro buffer
  obtain ⟨count, run⟩ := answerAll_moved (TokenBuffer.ofSource source).value history
  have tokens : buffer.tokens = kept 0 source.toList ++ [.endOfFile source.length] := by
    rw [show buffer = _ from run, ← tokens_ofSource]
    rfl
  have same : ∀ token : Token, (!token.kind.isTrivia) =
      decide (token.kind ≠ .whiteSpace ∧ token.kind ≠ .bad) := by
    intro token
    cases token.kind <;> rfl
  refine ⟨?_, ⟨_, tokens, fun token member => (kept_piece member).2⟩, behaves buffer⟩
  rw [tokens, tokenize_eq, List.filter_append, kept]
  simp only [same]
  rfl

end Summand.BufferHistory
