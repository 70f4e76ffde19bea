import Mathlib.Data.List.Induction
import Mathlib.Data.Nat.Digits.Defs
import Summand.Proofs.Scanning

/-! What a run of numerals is worth: the number that its digits spell in base ten, if
they are all ASCII digits and that number is within the limit, and otherwise nothing.
Reading a numeral digit by digit gives up as soon as the value passes the limit; since
one more digit never makes a value smaller, it gives up on nothing that is within the
limit as a whole, however long it is. -/
namespace Summand.NumeralValue

/-- The value of a digit. -/
def digitValue (c : Char) : Nat := c.toNat - '0'.toNat

/-- The number that digits spell in base ten, the last one standing for the ones. -/
def decimal (digits : List Char) : Nat := Nat.ofDigits 10 (digits.reverse.map digitValue)

/-- Digits that spell a number within the limit. -/
def Readable (run : List Char) : Prop :=
  run.all Char.isDigit = true ∧ decimal run ≤ 2147483647

instance (run : List Char) : Decidable (Readable run) :=
  inferInstanceAs (Decidable (run.all Char.isDigit = true ∧ decimal run ≤ 2147483647))

/-- What a run of numerals is worth. -/
def worth (run : List Char) : Nat := if Readable run then decimal run else 0

variable {run : List Char}

theorem decimal_concat (digits : List Char) (c : Char) :
    decimal (digits ++ [c]) = 10 * decimal digits + digitValue c := by
  rw [decimal, List.reverse_concat, List.map_cons, Nat.ofDigits_cons, Nat.add_comm]
  rfl

theorem decimal_cons (c : Char) (digits : List Char) :
    decimal (c :: digits) = digitValue c * 10 ^ digits.length + decimal digits := by
  rw [decimal, List.reverse_cons, List.map_append, List.map_singleton, Nat.ofDigits_append,
    Nat.ofDigits_singleton, List.length_map, List.length_reverse, Nat.add_comm, Nat.mul_comm]
  rfl

/-- The value that a digit is added to is the value of the digits in front of it. -/
theorem decimal_eq (digits : List Char) : decimal digits = Nat.ofDigitChars 10 digits 0 := by
  induction digits using List.reverseRecOn with
  | nil => rfl
  | append_singleton digits c ih =>
    rw [decimal_concat, ih, Nat.ofDigitChars, Nat.ofDigitChars, List.foldl_append]
    rfl

theorem decimal_zeros (zeros : Nat) (digits : List Char) :
    decimal (List.replicate zeros '0' ++ digits) = decimal digits := by
  induction zeros with
  | zero => rfl
  | succ zeros ih =>
    have nothing : digitValue '0' = 0 := rfl
    rw [List.replicate_succ, List.cons_append, decimal_cons, ih, nothing, Nat.zero_mul, Nat.zero_add]

theorem decimal_toDigits (value : Nat) : decimal (Nat.toDigits 10 value) = value := by
  rw [decimal_eq, Nat.ofDigitChars_ten_toDigits]

theorem readable_concat {c : Char} : Readable (run ++ [c]) ↔ Readable run ∧
    c.isDigit = true ∧ 10 * decimal run + digitValue c ≤ 2147483647 := by
  simp only [Readable, decimal_concat, List.all_append, List.all_cons, List.all_nil, Bool.and_true,
    Bool.and_eq_true]
  constructor
  · rintro ⟨⟨digits, last⟩, within⟩
    exact ⟨⟨digits, by omega⟩, last, within⟩
  · rintro ⟨⟨digits, _⟩, last, within⟩
    exact ⟨⟨digits, last⟩, within⟩

theorem extend?_eq (value : Nat) (c : Char) : Numeral.extend? value c =
    if c.isDigit = true ∧ 10 * value + digitValue c ≤ 2147483647 then
      some (10 * value + digitValue c) else none := by
  unfold Numeral.extend?
  by_cases digit : c.isDigit = true
  · simp only [digit, if_true, true_and]
    rfl
  · simp [digit]

/-- Reading a numeral gives the number that it spells, unless it is not readable. -/
theorem read?_eq (run : List Char) :
    Numeral.read? run = if Readable run then some (decimal run) else none := by
  induction run using List.reverseRecOn with
  | nil => rfl
  | append_singleton run c ih =>
    have step : Numeral.read? (run ++ [c]) = (Numeral.read? run).bind (Numeral.extend? · c) := by
      simp [Numeral.read?]
    rw [step, ih]
    by_cases readable : Readable run
    · rw [if_pos readable, Option.bind_some, extend?_eq, decimal_concat]
      by_cases more : c.isDigit = true ∧ 10 * decimal run + digitValue c ≤ 2147483647
      · rw [if_pos more, if_pos (readable_concat.mpr ⟨readable, more⟩)]
      · rw [if_neg more, if_neg fun whole => more (readable_concat.mp whole).2]
    · rw [if_neg readable, if_neg fun whole => readable (readable_concat.mp whole).1]
      rfl

/-- A run is worth what is read of it, or zero if it cannot be read. -/
theorem read?_worth (run : List Char) : (Numeral.read? run).getD 0 = worth run := by
  rw [read?_eq, worth]
  by_cases readable : Readable run
  · rw [if_pos readable, if_pos readable]
    rfl
  · rw [if_neg readable, if_neg readable]
    rfl

theorem worth_le (run : List Char) : worth run ≤ 2147483647 := by
  rw [worth]
  split
  · next readable => exact readable.2
  · exact Nat.zero_le _

/-- The token of a run has the worth of the run for its value if it is a number. -/
theorem ofRun_worth (kind : Kind) (position : Nat) (run : List Char) :
    (Token.ofRun kind position run).value =
      { kind, position, text := some (String.ofList run)
        value := if kind = .number then some (worth run : Int) else none } := by
  rw [Scanning.ofRun_eq, read?_worth]

/-- Making the token of a run reports a number that cannot be read, and nothing else. -/
theorem ofRun_events (kind : Kind) (position : Nat) (run : List Char) :
    (Token.ofRun kind position run).events = if kind = .number ∧ ¬ Readable run then
      [.malformedNumber (String.ofList run) position] else [] := by
  unfold Token.ofRun
  by_cases number : kind = .number
  · simp only [number, if_true, bind, pure, numberValue, read?_eq]
    by_cases readable : Readable run
    · simp [readable]
    · simp [readable, Logged.emit]
  · simp [number, pure]

end Summand.NumeralValue
