import Summand.Proofs.SumReading

/-! Reading with machine words. The cursor is a number of 64 bits, and nothing is taken
for granted: every sum, every difference and every index is checked, and a breach ends
the call. Done this way each call on a buffer comes to the same, as long as the cursor
stays a machine word; only a look ahead can breach it, and only by its sum. -/
namespace Summand.Words
open SumReading TokenBuffer

/-- Why a calculation with machine words breaks off. -/
inductive Breach where
  /-- A sum is too large. -/
  | sum
  /-- A difference is negative. -/
  | difference
  /-- An index is outside of a list. -/
  | index
  deriving Repr, DecidableEq

def plus (first second : Nat) : Except Breach Nat :=
  if first + second ≤ indexLimit then .ok (first + second) else .error .sum

def minus (first second : Nat) : Except Breach Nat :=
  if second ≤ first then .ok (first - second) else .error .difference

def fetch (tokens : List Token) (index : Nat) : Except Breach Token :=
  match tokens[index]? with
  | some token => .ok token
  | none => .error .index

/-- The token a number of places behind the cursor, or the last one. -/
def peek (tokens : List Token) (cursor offset : Nat) : Except Breach Token := do
  let index ← plus cursor offset
  let last ← minus tokens.length 1
  fetch tokens (min index last)

/-- The token under the cursor, and the cursor behind it. -/
def next (tokens : List Token) (cursor : Nat) : Except Breach (Token × Nat) := do
  let token ← peek tokens cursor 0
  let cursor ← plus cursor 1
  pure (token, cursor)

/-- The token under the cursor if it is of the wanted kind, else a placeholder. -/
def expect (tokens : List Token) (cursor : Nat) (kind : Kind) : Except Breach (Token × Nat) := do
  let token ← peek tokens cursor 0
  if token.kind = kind then next tokens cursor else pure (.placeholder kind cursor, cursor)

def operand (tokens : List Token) (cursor : Nat) : Except Breach (Expr × Nat) := do
  let (token, cursor) ← expect tokens cursor .number
  pure (.number token, cursor)

variable {tokens : List Token} {buffer : TokenBuffer} {cursor after : Nat} {kind : Kind}

/-- A calculation that goes through has gone through each of its steps. -/
theorem bind_ok {first : Except Breach α} {rest : α → Except Breach β} {result : β}
    (ran : (first >>= rest) = .ok result) : ∃ value, first = .ok value ∧ rest value = .ok result := by
  cases first with
  | error breach => cases ran
  | ok value => exact ⟨value, rfl, ran⟩

theorem next_moves {token : Token} (ran : next tokens cursor = .ok (token, after)) :
    cursor < after ∧ after ≤ indexLimit := by
  obtain ⟨current, _, ran⟩ := bind_ok ran
  obtain ⟨behind, counted, ran⟩ := bind_ok ran
  cases ran
  unfold plus at counted
  split at counted <;> cases counted
  exact ⟨Nat.lt_succ_self cursor, by assumption⟩

theorem expect_moves {token : Token} (ran : expect tokens cursor kind = .ok (token, after)) :
    cursor ≤ after := by
  obtain ⟨current, _, ran⟩ := bind_ok ran
  split at ran
  · exact (next_moves ran).1.le
  · cases ran
    exact Nat.le_refl cursor

theorem operand_moves {expr : Expr} (ran : operand tokens cursor = .ok (expr, after)) :
    cursor ≤ after := by
  obtain ⟨⟨token, behind⟩, wanted, ran⟩ := bind_ok ran
  cases ran
  exact expect_moves wanted

/-- Extends a sum by the operators and operands that follow it. -/
def extendSum (tokens : List Token) (left : Expr) (cursor : Nat) : Except Breach (Expr × Nat) :=
  match peek tokens cursor 0 with
  | .error breach => .error breach
  | .ok token =>
    if token.kind.isAdditive then
      -- Each step is matched on, for only its result says that the cursor has moved.
      match _ : next tokens cursor with
      | .error breach => .error breach
      | .ok (operator, behind) =>
        match _ : operand tokens behind with
        | .error breach => .error breach
        | .ok (right, after) => extendSum tokens (.binary left operator right) after
    else .ok (left, cursor)
termination_by indexLimit - cursor
decreasing_by
  have moved := next_moves ‹_›
  have movedOn := operand_moves ‹_›
  omega

def parse (tokens : List Token) (cursor : Nat) : Except Breach (Expr × Nat) := do
  let (left, cursor) ← operand tokens cursor
  extendSum tokens left cursor

/-- Carries out one request on some tokens with a cursor among them. -/
def answer (tokens : List Token) (cursor : Nat) : Request → Except Breach (Reply × Nat)
  | .tokens => pure (.all tokens, cursor)
  | .peek offset => do
    let token ← peek tokens cursor offset
    pure (.one token, cursor)
  | .current => do
    let token ← peek tokens cursor 0
    pure (.one token, cursor)
  | .next => do
    let (token, cursor) ← next tokens cursor
    pure (.one token, cursor)
  | .expect kind => do
    let (token, cursor) ← expect tokens cursor kind
    pure (.one token, cursor)
  | .parse => do
    let (expr, cursor) ← parse tokens cursor
    pure (.tree expr, cursor)

/-- The token at an index, or beyond the last one the last one, is in the list. -/
theorem tokens_clamped (buffer : TokenBuffer) (index : Nat) :
    buffer.tokens[min index (buffer.tokens.length - 1)]? = some (buffer.tokenAt index) := by
  have last : buffer.tokens.length - 1 = buffer.body.size := by simp [TokenBuffer.tokens]
  rw [last]
  by_cases inside : index < buffer.body.size
  · rw [Nat.min_eq_left inside.le]
    simp [TokenBuffer.tokens, tokenAt, inside, List.getElem?_append_left]
  · rw [Nat.min_eq_right (Nat.not_lt.mp inside)]
    simp [TokenBuffer.tokens, tokenAt, inside]

theorem peek_within {offset : Nat} (fits : buffer.cursor + offset ≤ indexLimit) :
    peek buffer.tokens buffer.cursor offset = .ok (buffer.tokenAt (buffer.cursor + offset)) := by
  have present : 1 ≤ buffer.tokens.length := by simp [TokenBuffer.tokens]
  simp [peek, plus, minus, fetch, fits, present, bind, Except.bind, tokens_clamped]

theorem peek_beyond {offset : Nat} (beyond : indexLimit < buffer.cursor + offset) :
    peek buffer.tokens buffer.cursor offset = .error .sum := by
  simp [peek, plus, Nat.not_le.mpr beyond, bind, Except.bind]

theorem peek_current (fits : buffer.cursor ≤ indexLimit) :
    peek buffer.tokens buffer.cursor 0 = .ok buffer.current :=
  peek_within fits

theorem next_agrees (fits : buffer.advance.cursor ≤ indexLimit) :
    next buffer.tokens buffer.cursor = .ok (buffer.current, buffer.advance.cursor) := by
  have room : buffer.cursor + 1 ≤ indexLimit := fits
  rw [next, peek_current (Nat.le_of_succ_le room)]
  simp [plus, room, bind, Except.bind, pure, Except.pure, advance]

theorem expect_agrees (fits : (buffer.expect kind).value.2.cursor ≤ indexLimit) :
    expect buffer.tokens buffer.cursor kind =
      .ok ((buffer.expect kind).value.1, (buffer.expect kind).value.2.cursor) := by
  by_cases same : buffer.current.kind = kind
  · rw [expect_hit same] at fits ⊢
    rw [expect, peek_current ((Nat.le_succ _).trans fits)]
    simp [bind, Except.bind, same, next_agrees fits]
  · rw [expect_miss same] at fits ⊢
    rw [expect, peek_current fits]
    simp [bind, Except.bind, same, pure, Except.pure]

theorem operand_agrees (fits : buffer.operand.value.2.cursor ≤ indexLimit) :
    operand buffer.tokens buffer.cursor =
      .ok (buffer.operand.value.1, buffer.operand.value.2.cursor) := by
  have wanted : (buffer.expect .number).value.2.cursor ≤ indexLimit := fits
  rw [operand, expect_agrees wanted]
  rfl

theorem extendSum_goesOn {left right : Expr} {token operator : Token} {behind : Nat}
    (found : peek tokens cursor 0 = .ok token) (additive : token.kind.isAdditive = true)
    (moved : next tokens cursor = .ok (operator, behind))
    (read : operand tokens behind = .ok (right, after)) :
    extendSum tokens left cursor = extendSum tokens (.binary left operator right) after := by
  rw [extendSum, found]
  simp only [additive, if_true]
  split <;> rename_i ran <;> rw [moved] at ran <;> cases ran
  split <;> rename_i ran <;> rw [read] at ran <;> cases ran
  rfl

theorem extendSum_stops {left : Expr} {token : Token} (found : peek tokens cursor 0 = .ok token)
    (ends : ¬ token.kind.isAdditive = true) : extendSum tokens left cursor = .ok (left, cursor) := by
  rw [extendSum, found]
  simp only [if_neg ends]

theorem operand_tokens (buffer : TokenBuffer) : buffer.operand.value.2.tokens = buffer.tokens := by
  obtain ⟨token, taken, read, _⟩ := operand_exact buffer
  rw [read]
  rfl

/-- The cursor only moves forward: if it ends as a machine word, it began as one. -/
theorem extendSum_room {left : Expr}
    (fits : (TokenBuffer.extendSum left buffer).value.2.cursor ≤ indexLimit) :
    buffer.cursor ≤ indexLimit := by
  rw [(extendSum_exact left buffer).1] at fits
  exact (Nat.le_add_right _ _).trans fits

theorem operand_room (fits : buffer.operand.value.2.cursor ≤ indexLimit) :
    buffer.cursor ≤ indexLimit := by
  obtain ⟨token, taken, read, _⟩ := operand_exact buffer
  rw [read] at fits
  exact (Nat.le_add_right _ _).trans fits

/-- A sum whose end is a machine word is read without a breach. -/
theorem extendSum_agrees (left : Expr) (buffer : TokenBuffer)
    (fits : (TokenBuffer.extendSum left buffer).value.2.cursor ≤ indexLimit) :
    extendSum buffer.tokens left buffer.cursor =
      .ok ((TokenBuffer.extendSum left buffer).value.1,
        (TokenBuffer.extendSum left buffer).value.2.cursor) := by
  induction left, buffer using TokenBuffer.extendSum.induct with
  | case1 left buffer additive right ih =>
    -- The end is a machine word and nothing moves back, so every cursor on the way is one.
    have room := extendSum_room fits
    have whole : (TokenBuffer.extendSum left buffer).value =
        (TokenBuffer.extendSum (.binary left buffer.current right.value.1) right.value.2).value := by
      rw [TokenBuffer.extendSum, dif_pos additive]
    rw [whole] at fits ⊢
    have roomRight : buffer.advance.operand.value.2.cursor ≤ indexLimit := extendSum_room fits
    have later := ih fits
    rw [show right.value.2.tokens = buffer.tokens from operand_tokens buffer.advance] at later
    rw [← later]
    exact extendSum_goesOn (peek_current room) additive (next_agrees (operand_room roomRight))
      (operand_agrees roomRight)
  | case2 left buffer ends =>
    have whole : (TokenBuffer.extendSum left buffer).value = (left, buffer) := by
      rw [TokenBuffer.extendSum, dif_neg ends]
      rfl
    rw [whole] at fits ⊢
    exact extendSum_stops (peek_current fits) ends

theorem parse_agrees (fits : buffer.parse.value.2.cursor ≤ indexLimit) :
    parse buffer.tokens buffer.cursor =
      .ok (buffer.parse.value.1, buffer.parse.value.2.cursor) := by
  have whole : buffer.parse.value =
      (TokenBuffer.extendSum buffer.operand.value.1 buffer.operand.value.2).value := rfl
  rw [whole] at fits ⊢
  have later := extendSum_agrees _ _ fits
  rw [operand_tokens] at later
  rw [parse, operand_agrees (extendSum_room fits), ← later]
  rfl

/-- A look ahead whose index is no machine word breaks off, by its sum. -/
theorem answer_beyond {offset : Nat} (beyond : indexLimit < buffer.cursor + offset) :
    answer buffer.tokens buffer.cursor (.peek offset) = .error .sum ∧
      (buffer.answer (.peek offset)).value = (.failed .overflow, buffer) := by
  constructor
  · rw [answer, peek_beyond beyond]
    rfl
  · simp [TokenBuffer.answer, TokenBuffer.peek, Nat.not_le.mpr beyond, pure]

/-- Any other call that leaves the cursor a machine word goes through. -/
theorem answer_agrees {request : Request}
    (fits : (buffer.answer request).value.2.cursor ≤ indexLimit)
    (within : ∀ offset, request = .peek offset → buffer.cursor + offset ≤ indexLimit) :
    answer buffer.tokens buffer.cursor request =
      .ok ((buffer.answer request).value.1, (buffer.answer request).value.2.cursor) := by
  cases request with
  | tokens => rfl
  | peek offset =>
    have room := within offset rfl
    rw [answer, peek_within room]
    simp [TokenBuffer.answer, TokenBuffer.peek, room, pure, bind, Except.bind, Except.pure]
  | current =>
    have room : buffer.cursor ≤ indexLimit := fits
    rw [answer, peek_current room]
    rfl
  | next =>
    rw [answer, next_agrees fits]
    rfl
  | expect kind =>
    rw [answer, expect_agrees fits]
    rfl
  | parse =>
    rw [answer, parse_agrees fits]
    rfl

end Summand.Words
