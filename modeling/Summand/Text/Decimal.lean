/-! Decimal notation of numbers that need not be whole: a sign, digits with a
point among them or at either end, and an exponent. Sign, point and exponent
may be missing. Infinity and the lack of a number are written as words. -/
namespace Summand.Decimal

/-- A text without the sign that it may begin with. -/
def dropSign : List Char → List Char
  | '+' :: rest | '-' :: rest => rest
  | text => text

/-- The words that stand for a number, in lower case. -/
def words : List String :=
  ["inf", "infinity", "nan"]

/-- Whether a text is an exponent or nothing. -/
def isExponent : List Char → Bool
  | [] => true
  | c :: rest =>
    let digits := dropSign rest
    (c = 'e' || c = 'E') && !digits.isEmpty && digits.all Char.isDigit

/-- Whether a text is a number without a sign, in digits. -/
def isUnsigned (text : List Char) : Bool :=
  let whole := text.takeWhile Char.isDigit
  match text.dropWhile Char.isDigit with
  | '.' :: rest =>
    !(whole ++ rest.takeWhile Char.isDigit).isEmpty && isExponent (rest.dropWhile Char.isDigit)
  | rest => !whole.isEmpty && isExponent rest

/-- Whether a text is a number. Words may be in any case of letters. -/
def isNumber (text : String) : Bool :=
  let unsigned := dropSign text.toList
  isUnsigned unsigned || words.contains (String.ofList (unsigned.map Char.toLower))

end Summand.Decimal
