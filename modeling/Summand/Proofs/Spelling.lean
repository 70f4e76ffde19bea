import Summand.Proofs.Scanning
import Summand.Text.Utf8

/-! What is written can be read back. The name of a kind ends where its letters
end, the digits of a value determine it, and text comes out of its bytes. Readers
of whole drawings and listings are put together from these. -/
namespace Summand.Spelling

/-- The value that a decimal text spells, digits behind an optional minus sign. -/
def valueOf : List Char → Int
  | '-' :: digits => -Nat.ofDigitChars 10 digits 0
  | digits => Nat.ofDigitChars 10 digits 0

theorem toDigits_digit {n : Nat} {c : Char} (member : c ∈ Nat.toDigits 10 n) : c.isDigit = true :=
  Nat.isDigit_of_mem_toDigits (by decide) (by decide) member

/-- The decimal text of a value consists of digits, but for a minus sign. -/
theorem write_characters (value : Int) :
    ∀ c ∈ (Numeral.write value).toList, c = '-' ∨ c.isDigit = true := by
  intro c member
  cases value with
  | ofNat n =>
    rw [Numeral.write, String.toList_ofList] at member
    exact .inr (toDigits_digit member)
  | negSucc n =>
    rw [Numeral.write, String.toList_ofList] at member
    rcases List.mem_cons.mp member with sign | member
    · exact .inl sign
    · exact .inr (toDigits_digit member)

/-- Reading the decimal text of a value gives the value. -/
theorem valueOf_write (value : Int) : valueOf (Numeral.write value).toList = value := by
  cases value with
  | ofNat n =>
    rw [Numeral.write, String.toList_ofList]
    unfold valueOf
    split
    · rename_i digits unsigned
      have sign : '-' ∈ Nat.toDigits 10 n := by simp [unsigned]
      exact absurd (toDigits_digit sign) (by decide)
    · rw [Nat.ofDigitChars_ten_toDigits]
      rfl
  | negSucc n =>
    rw [Numeral.write, String.toList_ofList, valueOf, Nat.ofDigitChars_ten_toDigits]
    rfl

/-- The kind whose name a text begins with, and the text behind its letters. -/
def leadingKind? (text : List Char) : Option (Kind × List Char) :=
  (Kind.ofName? (String.ofList (text.takeWhile Char.isAlpha))).map
    fun kind => (kind, text.dropWhile Char.isAlpha)

theorem name_letters (kind : Kind) : ∀ c ∈ kind.name.toList, c.isAlpha = true := by
  rw [← List.all_eq_true]
  cases kind <;> decide

theorem name_begins (kind : Kind) : ∃ c rest, kind.name.toList = c :: rest := by
  cases kind <;> exact ⟨_, _, rfl⟩

theorem ofName?_name (kind : Kind) : Kind.ofName? kind.name = some kind := by
  cases kind <;> decide

/-- The name of a kind is recognized in front of anything but another letter. -/
theorem leadingKind?_name (kind : Kind) {rest : List Char}
    (ends : ∀ c ∈ rest.head?, c.isAlpha = false) :
    leadingKind? (kind.name.toList ++ rest) = some (kind, rest) := by
  obtain ⟨name, behind⟩ := Scanning.run_stops (name_letters kind) ends
  rw [leadingKind?, name, behind, String.ofList_toList, ofName?_name]
  rfl

/-- Text that was written piece by piece comes out of its bytes as a whole. -/
theorem decode?_pieces (parts : List String) :
    Utf8.decode? (parts.flatMap Utf8.encode) = some (String.ofList (parts.flatMap String.toList)) := by
  rw [Utf8.decode?_eq_some_iff, Utf8.encode, String.toList_ofList, List.flatMap_assoc]
  rfl

end Summand.Spelling
