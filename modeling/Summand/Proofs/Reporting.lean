import Mathlib.Data.List.Forall2
import Summand.Proofs.CounterReading
import Summand.Proofs.Exhaustion
import Summand.Proofs.NumeralValue

/-! The log of reading a source is an account of it: what it shows of the tokens, in the order
they come off the source, then of the buffer, then of the placeholders, in the order they have
in the tree. Placeholders and what is shown of them come about together, one at a time, so
the log so far always tells of the placeholders of the tree so far. -/
namespace Summand.Reporting
open CounterReading Exhaustion NumeralValue Scanning Segmentation SumReading TokenBuffer

/-- What the log shows of an event. -/
structure Entry where
  level : Level
  target : String
  message : String
  fields : List (String × Field)
  deriving Repr, DecidableEq

/-- The entry of an event. -/
def entry (event : Event) : Entry :=
  { level := event.level, target := event.target, message := event.message, fields := event.fields }

/-- The entries of a computation in a log that shows everything down to a level. -/
def shown (least : Level) (computation : Logged α) : List Entry :=
  (computation.events.filter (·.level.isWithin least)).map entry

/-- A number whose value cannot be read off its text. -/
def Unreadable (token : Token) : Prop := token.kind = .number ∧ ¬ Readable (characters token)

instance : DecidablePred Unreadable := fun token =>
  inferInstanceAs (Decidable (token.kind = .number ∧ ¬ Readable (characters token)))

/-- What the log shows of a token. A number that cannot be read is warned of first. -/
def tokenEntries (token : Token) : List Entry :=
  (if Unreadable token then
    [⟨.warn, "ttc::parser::lexer", "number literal is not a valid i32, using 0",
      [("text", .text (token.text.getD "")), ("position", .number token.position)]⟩]
  else []) ++
    [⟨.trace, "ttc::parser::lexer", "lexed token",
      [("kind", .text token.kind.name), ("position", .number token.position)]⟩]

/-- What the log shows of a buffer with a number of tokens. -/
def bufferEntry (count : Nat) : Entry :=
  ⟨.debug, "ttc::parser::parse", "buffered tokens", [("count", .number count)]⟩

/-- What the log shows of a placeholder for a number. It names the token found in its place. -/
def gapEntry (leaf found : Token) : Entry :=
  ⟨.debug, "ttc::parser::parse", "inserting missing token",
    [("expected", .text Kind.number.name), ("found", .text found.kind.name),
      ("index", .number leaf.position)]⟩

/-- The placeholders of a tree, from left to right. -/
def missing (expr : Expr) : List Token := expr.leaves.filter (·.isMissing)

/-- The events on a token. -/
def report (token : Token) : List Event :=
  (if Unreadable token then [.malformedNumber (token.text.getD "") token.position] else []) ++
    [.lexedToken token.kind token.position]

/-- An event tells of a placeholder, given the tokens it is put in between. -/
def Tells (tokens : List Token) (leaf : Token) (event : Event) : Prop :=
  ∃ found, tokens[leaf.position]? = some found ∧
    event = .missingToken .number found.kind leaf.position

/-- Events tell of the placeholders of a tree and of nothing else. -/
def Account (tokens : List Token) (expr : Expr) (events : List Event) : Prop :=
  List.Forall₂ (Tells tokens) (missing expr) events

variable {buffer : TokenBuffer} {tokens : List Token} {left right : Expr} {operator : Token}
  {told later : List Event}

theorem frontToken_events (position : Nat) (c : Char) (others : List Char) :
    (frontToken position c others).events ++ [.lexedToken (.ofChar c) position] =
      report (frontToken position c others).value := by
  have text : (frontToken position c others).value.text.getD "" =
      String.ofList (frontRun c others) := by
    simp [frontToken]
  simp only [report, Unreadable, frontToken_characters, text]
  simp [frontToken, ofRun_events]

/-- Reading everything reports on every token, the end of file included. -/
theorem drain_events (stream : TokenStream) : stream.drain.events = (pending stream).flatMap report := by
  obtain ⟨position, source⟩ := stream
  revert position source
  refine read_induction (motive := fun stream =>
    stream.drain.events = (pending stream).flatMap report) ?_ ?_
  · intro position
    rw [drain_at_end, pending_at_end]
    rfl
  · intro position c others ih
    rw [drain_at_char, pending_at_char, List.flatMap_cons, ← frontToken_events, ← ih]

theorem missing_number (token : Token) :
    missing (.number token) = if token.isMissing then [token] else [] := by
  cases absent : token.isMissing <;> simp [missing, Expr.leaves, absent]

theorem missing_binary (present : operator.isMissing = false) :
    missing (.binary left operator right) = missing left ++ missing right := by
  simp [missing, Expr.leaves, present]

/-- Two accounts make one of an operation on two trees. -/
theorem Account.binary (first : Account tokens left told) (second : Account tokens right later)
    (present : operator.isMissing = false) :
    Account tokens (.binary left operator right) (told ++ later) := by
  rw [Account, missing_binary present]
  exact List.rel_append first second

theorem current_mem (inside : buffer.cursor ≤ buffer.body.size) :
    buffer.tokens[buffer.cursor]? = some buffer.current := by
  rw [← List.head?_drop]
  exact congrArg List.head? (ahead_inside inside)

/-- One operand tells of its placeholder if it is one, and neither changes the tokens nor
passes the end of file. -/
theorem operand_tells (spelled : ∀ token ∈ buffer.tokens, token.isMissing = false)
    (inside : buffer.cursor ≤ buffer.body.size) :
    Account buffer.tokens buffer.operand.value.1 buffer.operand.events ∧
      buffer.operand.value.2.tokens = buffer.tokens ∧
      buffer.operand.value.2.cursor ≤ buffer.operand.value.2.body.size := by
  have found := current_mem inside
  by_cases number : buffer.current.kind = .number
  · have read : buffer.operand = ⟨(.number buffer.current, buffer.advance), []⟩ := by
      simp [operand, expect, number, bind, pure]
    have present := spelled _ (List.mem_of_getElem? found)
    have more : buffer.cursor < buffer.body.size := by
      by_contra outside
      rw [current_outside (Nat.le_of_not_lt outside)] at number
      cases number
    rw [read, Account, missing_number, present]
    exact ⟨.nil, rfl, more⟩
  · have read : buffer.operand = ⟨(.number (.placeholder .number buffer.cursor), buffer),
        [.missingToken .number buffer.current.kind buffer.cursor]⟩ := by
      simp [operand, expect, number, bind, pure, Logged.emit]
    rw [read, Account, missing_number]
    exact ⟨.cons ⟨_, found, rfl⟩ .nil, rfl, inside⟩

/-- Extending a sum goes on with the account of it. -/
theorem extendSum_tells (left : Expr) (buffer : TokenBuffer) {told : List Event}
    (spelled : ∀ token ∈ buffer.tokens, token.isMissing = false)
    (inside : buffer.cursor ≤ buffer.body.size) (account : Account buffer.tokens left told) :
    Account buffer.tokens (extendSum left buffer).value.1
      (told ++ (extendSum left buffer).events) := by
  induction left, buffer using extendSum.induct generalizing told with
  | case1 left buffer additive right =>
    rename_i ih
    have more : buffer.advance.cursor ≤ buffer.advance.body.size := cursor_lt_of_isAdditive additive
    have present := spelled _ (List.mem_of_getElem? (current_mem inside))
    obtain ⟨tells, same, insideStill⟩ : Account buffer.tokens right.value.1 right.events ∧
        right.value.2.tokens = buffer.tokens ∧ right.value.2.cursor ≤ right.value.2.body.size :=
      @operand_tells buffer.advance spelled more
    have soFar : Account right.value.2.tokens (.binary left buffer.current right.value.1)
        (told ++ right.events) := by
      rw [same]
      exact account.binary tells present
    rw [extendSum, dif_pos additive]
    have extended := ih (by rwa [same]) insideStill soFar
    rwa [same, List.append_assoc] at extended
  | case2 left buffer ends =>
    rw [extendSum, dif_neg ends]
    simpa [pure] using account

/-- Reading a sum tells of the placeholders of its tree. -/
theorem parse_tells (spelled : ∀ token ∈ buffer.tokens, token.isMissing = false)
    (inside : buffer.cursor ≤ buffer.body.size) :
    Account buffer.tokens buffer.parse.value.1 buffer.parse.events := by
  obtain ⟨tells, same, insideStill⟩ := operand_tells spelled inside
  have extended := extendSum_tells buffer.operand.value.1 buffer.operand.value.2
    (by rwa [same]) insideStill (by rwa [same])
  rwa [same] at extended

theorem buffer_events (source : String) : (TokenBuffer.ofSource source).events =
    (TokenStream.ofSource source).tokenize.value.1.flatMap report ++
      [.bufferedTokens (TokenBuffer.ofSource source).value.tokens.length] := by
  simp only [TokenBuffer.ofSource, bind, pure, Logged.emit, drain_events, List.append_nil]
  simp [pending, TokenBuffer.tokens]

/-- A log that shows everything shows every event. -/
theorem shown_trace (computation : Logged α) :
    shown .trace computation = computation.events.map entry := by
  have within : ∀ event : Event, event.level.isWithin .trace = true := by
    intro event
    cases event <;> rfl
  rw [shown, List.filter_eq_self.mpr fun event _ => within event]

theorem report_entries (token : Token) : (report token).map entry = tokenEntries token := by
  rw [report, tokenEntries]
  split <;> rfl

/-- A log that shows everything shows exactly this of reading a source: the tokens in order,
trivia and the end of file included, each number that cannot be read with a warning right in
front of it; how many tokens the buffer has; and for each placeholder of the tree, from left
to right, where it stands in the buffer and what token is there instead. -/
theorem log_accounts_for_reading (source : String) :
    ∃ gaps, List.Forall₂ (fun leaf gap => ∃ found,
          (TokenBuffer.ofSource source).value.tokens[leaf.position]? = some found ∧
            gap = gapEntry leaf found)
        (missing (Expr.ofSource source).value) gaps ∧
      shown .trace (Expr.ofSource source) =
        (TokenStream.ofSource source).tokenize.value.1.flatMap tokenEntries ++
          bufferEntry (TokenBuffer.ofSource source).value.tokens.length :: gaps := by
  let buffer := (TokenBuffer.ofSource source).value
  have tells : Account buffer.tokens buffer.parse.value.1 buffer.parse.events :=
    parse_tells (spelled_ofSource source) (Nat.zero_le _)
  have events : (Expr.ofSource source).events =
      (TokenBuffer.ofSource source).events ++ buffer.parse.events := by
    simp [Expr.ofSource, bind, pure, buffer]
  refine ⟨buffer.parse.events.map entry, List.forall₂_map_right_iff.mpr (tells.imp ?_), ?_⟩
  · rintro leaf _ ⟨found, placed, rfl⟩
    exact ⟨found, placed, rfl⟩
  · rw [shown_trace, events, buffer_events, List.map_append, List.map_append, List.map_flatMap]
    simp only [report_entries, List.append_assoc]
    rfl

end Summand.Reporting
