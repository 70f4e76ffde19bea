/-! A terminal acts on control characters, and on the sequences that an escape
character begins, and shows neither. The printable part of a text is what is
left without them. Control characters that only move the cursor on belong to
it, and so does every character beyond ASCII outside a sequence.

A move can come in the middle of a short sequence. It suspends the sequence:
what follows is shown, until the next character that is not shown. -/
namespace Summand

/-- Which terminal sequence a place in a text lies in. -/
inductive Passage where
  /-- None. -/
  | plain
  /-- After an escape character. -/
  | escape
  /-- After an escape character and some intermediate characters. -/
  | intermediate
  /-- In a control sequence, which ends with a final character. -/
  | control
  /-- In a command to the operating system, which ends with a bell. -/
  | command
  /-- At the beginning of a string for a device. -/
  | device
  /-- In the parameters of a string for a device. -/
  | deviceParameter
  /-- In the intermediate characters of a string for a device. -/
  | deviceIntermediate
  /-- In a string that ends with a string terminator. -/
  | body
  deriving Repr, DecidableEq

namespace Passage

/-- The byte that terminates a string within a terminal sequence. -/
def terminator : UInt8 := 0x9c

/-- Whether a character is an intermediate one. -/
def isIntermediate (c : Char) : Bool :=
  ' ' ≤ c && c ≤ '/'

/-- Whether a character is a digit or separates parameters. -/
def isParameter (c : Char) : Bool :=
  '0' ≤ c && c ≤ ';'

/-- Whether a character ends the head of a string or a control sequence. -/
def isFinal (c : Char) : Bool :=
  '@' ≤ c && c ≤ '~'

/-- The passage that the character after an escape character begins, if it is
not an intermediate character. -/
def ofIntroducer (c : Char) : Passage :=
  match c with
  | '[' => control
  | ']' => command
  | 'P' => device
  | 'X' | '^' | '_' => body
  | _ => plain

/-- The passage after a character. Escape, cancel and substitute count
everywhere. A string for a device whose head is out of order runs to its
terminator as well. -/
def next (passage : Passage) (c : Char) : Passage :=
  if c = '\x1b' then escape
  else if c = '\x18' || c = '\x1a' then plain
  else
    match passage with
    | plain => plain
    | escape =>
      if isIntermediate c then intermediate
      else if '0' ≤ c && c ≤ '~' then ofIntroducer c
      else escape
    | intermediate => if '0' ≤ c && c ≤ '~' then plain else intermediate
    | control => if isFinal c then plain else control
    | command => if c = '\x07' then plain else command
    | device =>
      if isIntermediate c then deviceIntermediate
      else if '0' ≤ c && c ≤ '?' then deviceParameter
      else if isFinal c then body
      else device
    | deviceParameter =>
      if isIntermediate c then deviceIntermediate
      else if isParameter c then deviceParameter
      else if '0' ≤ c && c ≤ '~' then body
      else deviceParameter
    | deviceIntermediate => if '0' ≤ c && c ≤ '~' then body else deviceIntermediate
    | body => if terminator ∈ String.utf8EncodeChar c then plain else body

/-- Whether a control character only moves the cursor on. -/
def isMove (c : Char) : Bool :=
  c = '\t' || c = '\n' || c = '\x0c' || c = '\r'

/-- Whether a terminal shows a character, outside of sequences. -/
def isShown (c : Char) : Bool :=
  isMove c || (' ' ≤ c && c ≠ '\x7f')

/-- Whether a character is shown, where it does not follow one that is. -/
def shows (passage : Passage) (c : Char) : Bool :=
  match passage with
  | plain => isShown c
  | escape | intermediate | control => isMove c
  | command | device | deviceParameter | deviceIntermediate | body => false

/-- The passage after a character that is shown. A character beyond ASCII ends
a sequence that is suspended. -/
def afterShown (passage : Passage) (c : Char) : Passage :=
  if c.toNat < 0x80 then passage else plain

/-- The characters that are shown, from a place on. It matters whether the
place follows a character that is shown. -/
def visible (passage : Passage) (followsShown : Bool) : List Char → List Char
  | [] => []
  | c :: rest =>
    if if followsShown then isShown c else passage.shows c then
      c :: visible (passage.afterShown c) true rest
    else visible (passage.next c) false rest

end Passage

/-- The part of a text that a terminal shows. -/
def printable (text : String) : String :=
  String.ofList (Passage.plain.visible false text.toList)

end Summand
