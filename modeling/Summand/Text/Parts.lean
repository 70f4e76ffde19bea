/-! A separator divides a text into parts. There is one part more than there
are separators, and parts can be empty. -/
namespace Summand.Parts

/-- The parts of a text. -/
def ofText (separator : Char) (text : String) : List String :=
  (text.toList.splitOn separator).map String.ofList

end Summand.Parts
