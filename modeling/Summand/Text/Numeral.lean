/-! A numeral is read as a decimal number with an upper limit. One character
that is not an ASCII digit, or a value above the limit, makes the whole text
unreadable; leading zeros are harmless. Writing a value takes the fewest
digits, after a minus sign if the value is negative. -/
namespace Summand.Numeral

/-- The greatest value a number token can hold: the signed 32-bit maximum. -/
def limit : Nat := 2147483647

/-- Extends a value by one digit, while the result stays within the limit. -/
def extend? (value : Nat) (c : Char) : Option Nat :=
  if c.isDigit then
    let extended := 10 * value + (c.toNat - '0'.toNat)
    if extended ≤ limit then some extended else none
  else none

/-- The value of a text made of ASCII digits, if it is within the limit.
The value grows by one digit at a time and never passes the limit on the way,
so a long text is given up early. -/
def read? (digits : List Char) : Option Nat :=
  digits.foldlM extend? 0

/-- The decimal text of a value. -/
def write : Int → String
  | .ofNat n => String.ofList (Nat.toDigits 10 n)
  | .negSucc n => String.ofList ('-' :: Nat.toDigits 10 (n + 1))

end Summand.Numeral
