import Summand.Text.CodeRange

/-! White space is the set of characters with the Unicode property of that
name. It covers line ends, tabulators, the ordinary blank and the typographic
spaces; zero-width characters are outside. -/
namespace Summand

/-- The characters with the property `White_Space`, in ascending order. -/
def blankRanges : List CodeRange :=
  [⟨0x9, 0xD⟩, ⟨0x20, 0x20⟩, ⟨0x85, 0x85⟩, ⟨0xA0, 0xA0⟩, ⟨0x1680, 0x1680⟩, ⟨0x2000, 0x200A⟩,
   ⟨0x2028, 0x2029⟩, ⟨0x202F, 0x202F⟩, ⟨0x205F, 0x205F⟩, ⟨0x3000, 0x3000⟩]

/-- Whether a character is white space. -/
def isBlank (c : Char) : Bool :=
  CodeRange.anyContains blankRanges c

/-- Whether a text holds nothing but white space. The empty text does. -/
def isBlankText (text : String) : Bool :=
  text.toList.all isBlank

end Summand
