import Summand.Proofs.Grammar
import Summand.Proofs.Joining
import Summand.Proofs.SourceReading
import Summand.Proofs.Spelling

/-! Wherever numerals stand in a source with none on either side, they make one number
token, and its value is exact or zero: what the digits spell in base ten if they are all
ASCII digits and stay within the limit, and zero for any other run. Every value within
the limit is had in this way, with any number of zeros in front of it. -/
namespace Summand.NumberValues
open Grammar Joining NumeralValue Scanning Segmentation Significance SourceReading Spelling
open SumReading TokenStream

/-- Numerals in a source, between two texts that have none next to them. -/
structure NumberRun (before digits after : String) : Prop where
  present : digits ≠ ""
  numeric : ∀ c ∈ digits.toList, isNumeric c = true
  begins : ∀ c ∈ before.toList.getLast?, isNumeric c = false
  ends : ∀ c ∈ after.toList.head?, isNumeric c = false

/-- The token of a run of numerals. -/
def number (position : Nat) (digits : String) : Token :=
  { kind := .number, position, text := some digits, value := some (worth digits.toList) }

/-- A token whose value, if it has one, is not negative and within the limit. -/
def Within (token : Token) : Prop :=
  ∀ value ∈ token.value, 0 ≤ value ∧ value ≤ 2147483647

variable {before digits after : String}

/-- An ASCII digit is a numeral. -/
theorem digit_numeric {c : Char} (digit : c.isDigit = true) : isNumeric c = true := by
  have range : 0x30 ≤ c.toNat ∧ c.toNat ≤ 0x39 := by
    simpa [Char.isDigit, UInt32.le_iff_toNat_le] using digit
  exact CodeRange.anyContains_iff.mpr ⟨⟨0x30, 0x39⟩, List.mem_cons_self, range⟩

/-- Nothing but a numeral is joined by a numeral. -/
theorem parted_numeric {front back : List Char} (ends : ∀ c ∈ front.getLast?, isNumeric c = false)
    (begins : ∀ d ∈ back.head?, isNumeric d = true) : Parted front back := by
  intro c last d first
  rw [Bool.eq_false_iff]
  intro fused
  have number := ofChar_number_iff.mpr (begins d first)
  rw [← (fuses_iff.mp fused).1, ofChar_number_iff, ends c last] at number
  cases number

/-- The tokens in front of a run of numerals are those of the text in front of it, the run
is one token, and the tokens behind it are those of the text behind it. -/
theorem drained_number (run : NumberRun before digits after) :
    drained 0 (before ++ digits ++ after).toList = drained 0 before.toList ++
      number before.length digits ::
        drained (before.length + digits.length) after.toList := by
  obtain ⟨c, rest, split⟩ : ∃ c rest, digits.toList = c :: rest :=
    List.exists_cons_of_ne_nil (by simpa using run.present)
  have numeric : isNumeric c = true ∧ ∀ d ∈ rest, isNumeric d = true :=
    List.forall_mem_cons.mp (split ▸ run.numeric)
  have joins : ∀ d ∈ rest, fuses c d = true := by
    rw [numeric_fuses numeric.1]
    exact numeric.2
  have boundary : ∀ d ∈ after.toList.head?, fuses c d = false := by
    rw [numeric_fuses numeric.1]
    exact run.ends
  have parted : Parted before.toList (c :: rest ++ after.toList) := by
    apply parted_numeric run.begins
    rintro d ⟨⟩
    exact numeric.1
  have token : (Token.ofRun (.ofChar c) before.length (c :: rest)).value =
      number before.length digits := by
    rw [ofRun_worth, ofChar_number_iff.mpr numeric.1, if_pos rfl, ← split, String.ofList_toList]
    rfl
  rw [String.toList_append, String.toList_append, split, List.append_assoc,
    drained_append parted, drained_run _ joins boundary, Nat.zero_add, String.length_toList,
    token, ← split, String.length_toList]

theorem drained_within (position : Nat) (source : List Char) :
    ∀ token ∈ drained position source, Within token := by
  induction position, source using run_induction with
  | atEnd position => simp [drained_nil]
  | atRun position c run rest joins boundary ih =>
    rw [drained_run position joins boundary, List.forall_mem_cons]
    refine ⟨fun value member => ?_, ih⟩
    rw [ofRun_worth, Option.mem_def, Option.ite_none_right_eq_some] at member
    obtain ⟨_, ⟨⟩⟩ := member
    have bound := worth_le (c :: run)
    omega

theorem endOfFile_within (length : Nat) : Within (.endOfFile length) := by
  simp [Within, Token.endOfFile]

theorem tokens_within (stream : TokenStream) :
    ∀ token ∈ stream.tokenize.value.1, Within token := by
  obtain ⟨position, rest⟩ := stream
  rw [TokenStream.tokenize]
  simp only [bind, pure, List.forall_mem_append, List.forall_mem_singleton]
  exact ⟨drained_within position rest, endOfFile_within _⟩

/-- A tree is made of tokens of the source, and of placeholders, which have no value. -/
theorem leaves_within (source : String) (cursor : Nat) :
    ∀ leaf ∈ ({ (TokenBuffer.ofSource source).value with cursor }).parse.value.1.leaves,
      Within leaf := by
  intro leaf member
  rw [(parse_exact _).2.1] at member
  rcases mem_mended member with taken | ⟨place, rfl⟩
  · have inside : leaf ∈ (TokenBuffer.ofSource source).value.tokens :=
      List.mem_of_mem_drop ((sumRun_front _ _).subset taken)
    rw [tokens_ofSource] at inside
    rcases List.mem_append.mp inside with inside | last
    · exact drained_within 0 source.toList leaf (List.mem_of_mem_filter inside)
    · rw [List.mem_singleton.mp last]
      exact endOfFile_within _
  · simp [Within, Token.placeholder]

theorem spelled_digits (zeros value : Nat) :
    ∀ c ∈ List.replicate zeros '0' ++ Nat.toDigits 10 value, c.isDigit = true := by
  rw [List.forall_mem_append]
  refine ⟨fun c member => ?_, fun c member => toDigits_digit member⟩
  rw [List.eq_of_mem_replicate member]
  rfl

/-- The decimal digits of a value within the limit are worth the value, with any number of
zeros in front of them. -/
theorem worth_spelled (zeros : Nat) {value : Nat} (within : value ≤ 2147483647) :
    worth (List.replicate zeros '0' ++ Nat.toDigits 10 value) = value := by
  have spelled : decimal (List.replicate zeros '0' ++ Nat.toDigits 10 value) = value := by
    rw [decimal_zeros, decimal_toDigits]
  have readable : Readable (List.replicate zeros '0' ++ Nat.toDigits 10 value) :=
    ⟨List.all_eq_true.mpr (spelled_digits zeros value), spelled.le.trans within⟩
  rw [worth, if_pos readable, spelled]

/-- A source that is nothing but the digits of a value is that number. -/
theorem tokens_spelled (zeros : Nat) {value : Nat} (within : value ≤ 2147483647) :
    let digits := String.ofList (List.replicate zeros '0') ++ toString value
    (ofSource digits).tokenize.value.1 =
      [{ kind := .number, position := 0, text := some digits, value := some (value : Int) },
        .endOfFile digits.length] := by
  intro digits
  have characters : digits.toList = List.replicate zeros '0' ++ Nat.toDigits 10 value := by
    simp [digits]
  have run : NumberRun "" digits "" := by
    refine ⟨?_, fun c member => ?_, by simp, by simp⟩
    · intro empty
      have nothing := characters.symm.trans (congrArg String.toList empty)
      exact Nat.toDigits_ne_nil (List.append_eq_nil_iff.mp nothing).2
    · rw [characters] at member
      exact digit_numeric (spelled_digits zeros value c member)
  have alone : drained 0 digits.toList = [number 0 digits] := by
    simpa [drained_nil] using drained_number run
  have token : number 0 digits =
      { kind := .number, position := 0, text := some digits, value := some (value : Int) } := by
    rw [number, characters, worth_spelled zeros within]
  rw [tokenize_drained, alone, token]
  rfl

/-- Numerals in a source that have none next to them are one number token, with the number
that they spell for its value if they are ASCII digits and stay within the limit, and with
zero otherwise. So every value, in a list of tokens or in a tree, wherever reading it
began, is within the limit; and each such value is that of some source, its decimal digits
behind any number of zeros. -/
theorem number_values_exact_or_zero :
    (∀ before digits after, NumberRun before digits after → ∃ earlier later,
      (ofSource (before ++ digits ++ after)).tokenize.value.1 =
          earlier ++ number before.length digits :: later ∧
        earlier.flatMap characters = before.toList) ∧
    (∀ stream : TokenStream, ∀ token ∈ stream.tokenize.value.1, Within token) ∧
    (∀ source cursor,
      ∀ leaf ∈ ({ (TokenBuffer.ofSource source).value with cursor }).parse.value.1.leaves,
        Within leaf) ∧
    ∀ zeros value : Nat, value ≤ 2147483647 →
      let digits := String.ofList (List.replicate zeros '0') ++ toString value
      (ofSource digits).tokenize.value.1 =
        [{ kind := .number, position := 0, text := some digits, value := some (value : Int) },
          .endOfFile digits.length] := by
  refine ⟨?_, tokens_within, leaves_within, fun zeros value => tokens_spelled zeros⟩
  intro before digits after run
  have split : (ofSource (before ++ digits ++ after)).tokenize.value.1 =
      drained 0 before.toList ++ number before.length digits ::
        (drained (before.length + digits.length) after.toList ++
          [.endOfFile (before ++ digits ++ after).length]) := by
    rw [tokenize_drained, drained_number run, List.append_assoc, List.cons_append]
  exact ⟨_, _, split, (drain_cut 0 before.toList).1.joined⟩

/-- Zeros in front of the limit do not matter, and a value just beyond it is zero. -/
theorem number_values_at_limit :
    ((∃ earlier later, (ofSource ("a " ++ "0002147483647" ++ "+1")).tokenize.value.1 =
        earlier ++ number 2 "0002147483647" :: later ∧
        earlier.flatMap characters = ['a', ' ']) ∧
      (number 2 "0002147483647").value = some 2147483647) ∧
    (∃ earlier later, (ofSource ("a " ++ "2147483648" ++ "+1")).tokenize.value.1 =
        earlier ++ number 2 "2147483648" :: later ∧
        earlier.flatMap characters = ['a', ' ']) ∧
      (number 2 "2147483648").value = some 0 := by
  have apart : isNumeric ' ' = false ∧ isNumeric '+' = false := by decide +kernel
  have run : ∀ digits : String, digits ≠ "" → digits.toList.all isNumeric = true →
      NumberRun "a " digits "+1" := by
    intro digits present numeric
    refine ⟨present, List.all_eq_true.mp numeric, ?_, ?_⟩
    · rintro c ⟨⟩
      exact apart.1
    · rintro c ⟨⟩
      exact apart.2
  have limit := run "0002147483647" (by decide) (by decide +kernel)
  have beyond := run "2147483648" (by decide) (by decide +kernel)
  exact ⟨⟨number_values_exact_or_zero.1 _ _ _ limit, by decide +kernel⟩,
    number_values_exact_or_zero.1 _ _ _ beyond, by decide +kernel⟩

end Summand.NumberValues
