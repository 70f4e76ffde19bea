import Summand.Pattern.Mode
import Summand.Text.Alphabetic

/-! The smallest parts of patterns: what follows a backslash, the head of a
group, and the name of a class. -/
namespace Summand.Pattern

/-- What a backslash and the characters after it stand for. -/
inductive Atom where
  /-- A character, which may be written as a byte in hexadecimal. -/
  | literal (c : Char) (isByte : Bool)
  /-- Digits, blanks or the characters of words, or everything but these. -/
  | shorthand (negated : Bool)
  /-- The beginning or the end of the text. -/
  | anchor
  /-- The beginning or the end of a word, or a place that is neither. -/
  | wordBoundary
  deriving Repr, DecidableEq

/-- Whether an atom may stand in a pattern outside of classes. -/
def Mode.allowsItem (mode : Mode) : Atom → Bool
  | .literal c isByte => if mode.unicode then !mode.caseless else !isByte || c.toNat < 0x80
  | .shorthand negated => mode.allowsShorthand negated
  | .anchor | .wordBoundary => true

/-- Whether an atom may be a member of a class. -/
def Mode.allowsMember (mode : Mode) : Atom → Bool
  | .literal c _ => if mode.unicode then !mode.caseless else c.toNat < 0x80
  | .shorthand negated => mode.allowsShorthand negated
  | .anchor | .wordBoundary => false

/-- The value of a hexadecimal digit. -/
def hexDigit? (c : Char) : Option Nat :=
  if c.isDigit then some (c.toNat - '0'.toNat)
  else if 'a' ≤ c && c ≤ 'f' then some (c.toNat - 'a'.toNat + 10)
  else if 'A' ≤ c && c ≤ 'F' then some (c.toNat - 'A'.toNat + 10)
  else none

/-- Extends a value by a number of hexadecimal digits. -/
def readHex? (mode : Mode) : Nat → Nat → List Char → Option (Nat × List Char)
  | 0, value, rest => some (value, rest)
  | count + 1, value, c :: rest => do
    readHex? mode count (16 * value + (← hexDigit? c)) (mode.skip rest)
  | _, _, [] => none

/-- Reads the character of a code point with a number of hexadecimal digits. -/
def readCode? (mode : Mode) (count : Nat) (text : List Char) : Option (Char × List Char) := do
  let (code, rest) ← readHex? mode count 0 (mode.skip text)
  if code.isValidChar then some (Char.ofNat code, rest) else none

/-- The control characters with the letters that stand for them after a
backslash. -/
def controlLetters : List (Char × Char) :=
  [('a', '\x07'), ('f', '\x0c'), ('n', '\n'), ('r', '\r'), ('t', '\t'), ('v', '\x0b')]

/-- Reads what follows a backslash. Properties of characters are not at hand,
so nothing is read for them. -/
def Atom.read? (mode : Mode) : List Char → Option (Atom × List Char)
  | [] => none
  | 'x' :: rest => do
    let (c, rest) ← readCode? mode 2 rest
    return (.literal c true, rest)
  | 'u' :: rest => do
    let (c, rest) ← readCode? mode 4 rest
    return (.literal c false, rest)
  | 'U' :: rest => do
    let (c, rest) ← readCode? mode 8 rest
    return (.literal c false, rest)
  | c :: rest =>
    if "dsw".toList.contains c then some (.shorthand false, rest)
    else if "DSW".toList.contains c then some (.shorthand true, rest)
    else if "Az".toList.contains c then some (.anchor, rest)
    else if "bB<>".toList.contains c then some (.wordBoundary, rest)
    else if c.toNat < 0x80 && !c.isAlphanum then some (.literal c false, rest)
    else (controlLetters.lookup c).map fun control => (.literal control false, rest)

/-- What stands between the opening parenthesis of a group and its content. -/
inductive GroupHead where
  /-- Nothing. -/
  | plain
  /-- A name. -/
  | named (name : List Char)
  /-- The mode for the content. -/
  | options (mode : Mode)
  /-- The mode for what follows, in place of a content. -/
  | setting (mode : Mode)
  deriving Repr, DecidableEq

/-- Whether some characters can be the name of a group. -/
def isGroupName : List Char → Bool
  | [] => false
  | c :: rest =>
    (c = '_' || isAlphabetic c) && rest.all fun c => "_.[]".toList.contains c || isAlphanumeric c

/-- Reads the name of a group through the bracket that closes it. -/
def readName? (text : List Char) : Option (GroupHead × List Char) :=
  let name := text.takeWhile (· ≠ '>')
  match text.dropWhile (· ≠ '>') with
  | _ :: rest => if isGroupName name then some (.named name, rest) else none
  | [] => none

/-- Which options have been read. -/
structure OptionsRead where
  mode : Mode
  /-- The letters so far. None may come twice. -/
  letters : List Char := []
  /-- Whether a minus sign has come, after which options are switched off. -/
  negated : Bool := false
  deriving Repr, DecidableEq

/-- Reads the options of a group. A minus sign comes once at most and not at
the end, and a group consisting of options has one at least. -/
def readOptions? (read : OptionsRead) (afterSign : Bool) :
    List Char → Option (GroupHead × List Char)
  | [] => none
  | ':' :: rest => if afterSign then none else some (.options read.mode, rest)
  | ')' :: rest =>
    if afterSign || read.letters.isEmpty then none else some (.setting read.mode, rest)
  | '-' :: rest =>
    if read.negated then none else readOptions? { read with negated := true } true rest
  | c :: rest =>
    if Mode.options.contains c && !read.letters.contains c then
      let mode := read.mode.set c !read.negated
      readOptions? { read with mode, letters := c :: read.letters } false rest
    else none

/-- Reads the head of a group, after the opening parenthesis. -/
def GroupHead.read? (mode : Mode) (text : List Char) : Option (GroupHead × List Char) :=
  match mode.skip text with
  | '?' :: 'P' :: '<' :: rest => readName? rest
  | '?' :: '<' :: rest => readName? rest
  | '?' :: rest => readOptions? { mode } false rest
  | rest => some (.plain, rest)

/-- The classes that have a name. -/
def classNames : List String :=
  ["alnum", "alpha", "ascii", "blank", "cntrl", "digit", "graph", "lower", "print", "punct",
   "space", "upper", "word", "xdigit"]

/-- Reads the name of a class between colons, after the opening bracket and
through the closing one. A circumflex negates it. -/
def readClassName? (text : List Char) : Option (Bool × List Char) :=
  match text with
  | ':' :: rest =>
    let (negated, rest) := match rest with
      | '^' :: rest => (true, rest)
      | rest => (false, rest)
    match rest.dropWhile (· ≠ ':') with
    | ':' :: ']' :: after =>
      if classNames.contains (String.ofList (rest.takeWhile (· ≠ ':'))) then some (negated, after)
      else none
    | _ => none
  | _ => none

end Summand.Pattern
