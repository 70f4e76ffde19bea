import Mathlib.Data.List.TakeWhile
import Summand.Token.Stream

/-! The classes of characters do not overlap, so the kind of a character alone
decides which neighbours join it. From that, one step of reading a source is
known completely: which token comes off, what is reported, and what is left. -/
namespace Summand.Scanning
open TokenStream

/-- A run ends in front of the first thing that does not belong to it. -/
theorem run_stops {α : Type} {p : α → Bool} {run later : List α}
    (inside : ∀ d ∈ run, p d = true) (boundary : ∀ d ∈ later.head?, p d = false) :
    (run ++ later).takeWhile p = run ∧ (run ++ later).dropWhile p = later := by
  rw [List.takeWhile_append_of_pos inside, List.dropWhile_append_of_pos inside]
  cases later with
  | nil => simp
  | cons d later => simp [boundary d rfl]

/-- What is left behind a run begins with something that does not belong to it. -/
theorem dropWhile_boundary {α : Type} {p : α → Bool} {source : List α} {d : α}
    (first : d ∈ (source.dropWhile p).head?) : p d = false := by
  have stops := List.head?_dropWhile_not p source
  rw [first] at stops
  simpa using stops

/-- White space and numerals share no code point: no range of one class meets
a range of the other. -/
private theorem blank_numeric_ranges_apart : ∀ blank ∈ blankRanges, ∀ numeric ∈ numericRanges,
    blank.last < numeric.first ∨ numeric.last < blank.first := by
  decide +kernel

theorem blank_not_numeric {c : Char} (blank : isBlank c = true) : isNumeric c = false := by
  rw [Bool.eq_false_iff]
  intro numeric
  obtain ⟨first, firstIn, firstLow, firstHigh⟩ := CodeRange.anyContains_iff.mp blank
  obtain ⟨second, secondIn, secondLow, secondHigh⟩ := CodeRange.anyContains_iff.mp numeric
  have apart := blank_numeric_ranges_apart first firstIn second secondIn
  omega

/-- The characters that are operators by themselves. -/
def operators : List Char := ['+', '-', '*', '/', '(', ')']

theorem operator_kind_none_iff {c : Char} : Kind.ofOperator? c = none ↔ c ∉ operators := by
  unfold Kind.ofOperator?
  split <;> simp_all [operators]

private theorem operators_plain : ∀ c ∈ operators, isNumeric c = false ∧ isBlank c = false := by
  have plain : operators.all (fun c => !isNumeric c && !isBlank c) = true := by decide +kernel
  intro c member
  simpa using List.all_eq_true.mp plain c member

theorem operator_plain {c : Char} {kind : Kind} (operator : Kind.ofOperator? c = some kind) :
    isNumeric c = false ∧ isBlank c = false := by
  apply operators_plain
  by_contra absent
  rw [operator_kind_none_iff.mpr absent] at operator
  cases operator

theorem operator_kind_plain {c : Char} {kind : Kind} (operator : Kind.ofOperator? c = some kind) :
    kind ≠ .number ∧ kind ≠ .whiteSpace ∧ kind ≠ .bad ∧ kind ≠ .endOfFile ∧
      kind ≠ .numberExpression ∧ kind ≠ .binaryExpression := by
  unfold Kind.ofOperator? at operator
  split at operator <;> cases operator <;> decide

/-- The kind of a character that is neither a numeral nor white space. -/
private theorem ofChar_plain {c : Char} (numeric : isNumeric c = false) (blank : isBlank c = false) :
    Kind.ofChar c = (Kind.ofOperator? c).getD .bad := by
  simp [Kind.ofChar, numeric, blank]

theorem ofChar_number_iff {c : Char} : Kind.ofChar c = .number ↔ isNumeric c = true := by
  constructor
  · intro kind
    by_contra other
    rw [Bool.not_eq_true] at other
    cases blank : isBlank c with
    | true => simp [Kind.ofChar, other, blank] at kind
    | false =>
      rw [ofChar_plain other blank] at kind
      cases operator : Kind.ofOperator? c with
      | none => simp [operator] at kind
      | some found => exact (operator_kind_plain operator).1 (by simpa [operator] using kind)
  · intro numeric
    simp [Kind.ofChar, numeric]

theorem ofChar_whiteSpace_iff {c : Char} : Kind.ofChar c = .whiteSpace ↔ isBlank c = true := by
  constructor
  · intro kind
    by_contra other
    rw [Bool.not_eq_true] at other
    cases numeric : isNumeric c with
    | true => simp [Kind.ofChar, numeric] at kind
    | false =>
      rw [ofChar_plain numeric other] at kind
      cases operator : Kind.ofOperator? c with
      | none => simp [operator] at kind
      | some found => exact (operator_kind_plain operator).2.1 (by simpa [operator] using kind)
  · intro blank
    simp [Kind.ofChar, blank_not_numeric blank, blank]

theorem ofChar_bad_iff {c : Char} :
    Kind.ofChar c = .bad ↔ isNumeric c = false ∧ isBlank c = false ∧ c ∉ operators := by
  constructor
  · intro kind
    have numeric : isNumeric c = false := by
      rw [Bool.eq_false_iff]
      intro numeric
      rw [ofChar_number_iff.mpr numeric] at kind
      cases kind
    have blank : isBlank c = false := by
      rw [Bool.eq_false_iff]
      intro blank
      rw [ofChar_whiteSpace_iff.mpr blank] at kind
      cases kind
    refine ⟨numeric, blank, operator_kind_none_iff.mp ?_⟩
    rw [ofChar_plain numeric blank] at kind
    cases operator : Kind.ofOperator? c with
    | none => rfl
    | some found => exact absurd (by simpa [operator] using kind) (operator_kind_plain operator).2.2.1
  · rintro ⟨numeric, blank, absent⟩
    rw [ofChar_plain numeric blank, operator_kind_none_iff.mpr absent]
    rfl

theorem ofChar_of_operator {c : Char} {kind : Kind} (operator : Kind.ofOperator? c = some kind) :
    Kind.ofChar c = kind := by
  obtain ⟨numeric, blank⟩ := operator_plain operator
  rw [ofChar_plain numeric blank, operator]
  rfl

/-- Every character has a kind of its own class: no character marks the end of
a file, and none is an expression. -/
theorem ofChar_token (c : Char) : Kind.ofChar c ≠ .endOfFile ∧
    Kind.ofChar c ≠ .numberExpression ∧ Kind.ofChar c ≠ .binaryExpression := by
  unfold Kind.ofChar
  split
  · decide
  · split
    · decide
    · cases operator : Kind.ofOperator? c with
      | none => decide
      | some kind => exact (operator_kind_plain operator).2.2.2

/-- Neighbours join exactly when they are of one kind and that kind forms runs. -/
theorem fuses_iff {first second : Char} : fuses first second = true ↔
    Kind.ofChar first = Kind.ofChar second ∧
      (Kind.ofChar first = .number ∨ Kind.ofChar first = .whiteSpace) := by
  simp only [fuses, Bool.or_eq_true, Bool.and_eq_true, ← ofChar_number_iff, ← ofChar_whiteSpace_iff]
  constructor
  · rintro (⟨left, right⟩ | ⟨left, right⟩)
    · exact ⟨left.trans right.symm, Or.inl left⟩
    · exact ⟨left.trans right.symm, Or.inr left⟩
  · rintro ⟨same, left | left⟩
    · exact Or.inl ⟨left, same ▸ left⟩
    · exact Or.inr ⟨left, same ▸ left⟩

/-- The token of a run has the run for its text, and if it is a number what is read of the
run for its value, or zero if that cannot be read. -/
theorem ofRun_eq (kind : Kind) (position : Nat) (run : List Char) :
    (Token.ofRun kind position run).value =
      { kind, position, text := some (String.ofList run)
        value := if kind = .number then some ((Numeral.read? run).getD 0 : Nat) else none } := by
  unfold Token.ofRun
  by_cases number : kind = .number
  · rw [if_pos number, if_pos number]
    simp only [bind, pure, numberValue]
    cases Numeral.read? run <;> rfl
  · rw [if_neg number, if_neg number]
    rfl

@[simp] theorem ofRun_kind (kind : Kind) (position : Nat) (run : List Char) :
    (Token.ofRun kind position run).value.kind = kind := by
  rw [ofRun_eq]

@[simp] theorem ofRun_position (kind : Kind) (position : Nat) (run : List Char) :
    (Token.ofRun kind position run).value.position = position := by
  rw [ofRun_eq]

@[simp] theorem ofRun_text (kind : Kind) (position : Nat) (run : List Char) :
    (Token.ofRun kind position run).value.text = some (String.ofList run) := by
  rw [ofRun_eq]

theorem ofRun_value_number {kind : Kind} {position : Nat} {run : List Char}
    (valued : (Token.ofRun kind position run).value.value.isSome = true) : kind = .number := by
  unfold Token.ofRun at valued
  split at valued
  · assumption
  · cases valued

/-- The run of characters that the token in front takes. -/
def frontRun (c : Char) (others : List Char) : List Char :=
  c :: others.takeWhile (fuses c)

theorem frontRun_append (c : Char) (others : List Char) :
    frontRun c others ++ others.dropWhile (fuses c) = c :: others := by
  simp [frontRun]

/-- The token in front of a source at some position. -/
def frontToken (position : Nat) (c : Char) (others : List Char) : Logged Token :=
  Token.ofRun (.ofChar c) position (frontRun c others)

/-- What follows the token in front. -/
def afterFront (position : Nat) (c : Char) (others : List Char) : TokenStream :=
  { position := position + (frontRun c others).length, rest := others.dropWhile (fuses c) }

theorem next_at_char (position : Nat) (c : Char) (others : List Char) :
    (TokenStream.mk position (c :: others)).next =
      ⟨((frontToken position c others).value, afterFront position c others),
        (frontToken position c others).events ++ [.lexedToken (.ofChar c) position]⟩ := by
  simp [next, scan, bind, pure, Logged.emit, frontToken, afterFront, frontRun]

theorem next?_at_end (position : Nat) : (TokenStream.mk position []).next? =
    ⟨(none, ⟨position, []⟩), [.lexedToken .endOfFile position]⟩ := rfl

theorem next?_at_char (position : Nat) (c : Char) (others : List Char) :
    (TokenStream.mk position (c :: others)).next? =
      ⟨(some (frontToken position c others).value, afterFront position c others),
        (frontToken position c others).events ++ [.lexedToken (.ofChar c) position]⟩ := by
  have inside : (frontToken position c others).value.kind ≠ .endOfFile := by
    simpa [frontToken] using (ofChar_token c).1
  simp [next?, next_at_char, bind, pure, inside]

theorem drain_at_end (position : Nat) : (TokenStream.mk position []).drain =
    ⟨([], ⟨position, []⟩), [.lexedToken .endOfFile position]⟩ := by
  rw [drain, next?_at_end]

/-- Reading everything is reading the token in front and then the rest. -/
theorem drain_at_char (position : Nat) (c : Char) (others : List Char) :
    (TokenStream.mk position (c :: others)).drain =
      ⟨((frontToken position c others).value :: (afterFront position c others).drain.value.1,
          (afterFront position c others).drain.value.2),
        (frontToken position c others).events ++ [.lexedToken (.ofChar c) position] ++
          (afterFront position c others).drain.events⟩ := by
  rw [drain, next?_at_char]

theorem afterFront_shorter (position : Nat) (c : Char) (others : List Char) :
    (afterFront position c others).rest.length < (c :: others).length :=
  Nat.lt_succ_of_le (List.dropWhile_sublist _).length_le

/-- What holds at the end of a source, and before a token whenever it holds
behind that token, holds of every source at every position. -/
theorem read_induction {motive : TokenStream → Prop} (atEnd : ∀ position, motive ⟨position, []⟩)
    (atChar : ∀ position c others, motive (afterFront position c others) →
      motive ⟨position, c :: others⟩) : ∀ position source, motive ⟨position, source⟩
  | position, [] => atEnd position
  | position, c :: others =>
    atChar position c others
      (read_induction atEnd atChar _ (afterFront position c others).rest)
termination_by _ source => source.length
decreasing_by exact afterFront_shorter position c others

end Summand.Scanning
