import Summand.Pattern.Atom
import Summand.Pattern.Nesting

/-! A pattern is a regular expression. The program has no use for a match, so
all that is asked of a text is whether it is a pattern that could be matched:
it is well formed, it stays within what its mode allows, and it does not look
for the boundaries of words among Unicode characters, which takes more than a
finite automaton over bytes. Repetitions with counts do not occur, as their
closing brace ends a pattern in a log setting. -/
namespace Summand.Pattern

/-- Why a text cannot be matched. -/
inductive Fault where
  /-- It is malformed, or asks for what its mode does not have. -/
  | malformed
  /-- It looks for the boundaries of words in Unicode mode. -/
  | wordBoundary
  deriving Repr, DecidableEq

/-- A class that is open. -/
structure ClassScan where
  content : Content := {}
  /-- Whether only the opening bracket, a circumflex and hyphens have come. -/
  opening : Bool := true
  deriving Repr, DecidableEq

/-- A pattern as far as it has been read. -/
structure Scan where
  mode : Mode := {}
  /-- The content of the innermost group, or of the pattern. -/
  content : Content := {}
  /-- For each group that is open, the innermost first, the mode and the content
  around it. -/
  groups : List (Mode × Content) := []
  /-- The classes that are open, the innermost first. -/
  classes : List ClassScan := []
  /-- The names of groups. -/
  names : List (List Char) := []
  /-- Whether the boundary of a word in Unicode mode has come. -/
  hasBoundary : Bool := false
  deriving Repr, DecidableEq

namespace Scan

/-- Appends an item that does not contain others. -/
def addLeaf (scan : Scan) : Scan :=
  { scan with content := scan.content.add 0 }

/-- Appends an atom. -/
def addAtom? (scan : Scan) (atom : Atom) : Option Scan :=
  let isBoundary := scan.mode.unicode && atom = .wordBoundary
  if scan.mode.allowsItem atom then
    some { scan.addLeaf with hasBoundary := scan.hasBoundary || isBoundary }
  else none

/-- Opens a group whose content is read in a mode. -/
def openGroup (scan : Scan) (mode : Mode) : Scan :=
  { scan with mode, content := {}, groups := (scan.mode, scan.content) :: scan.groups }

/-- Takes over the head of a group. Names differ from each other. -/
def enter? (scan : Scan) : GroupHead → Option Scan
  | .plain => some (scan.openGroup scan.mode)
  | .named name =>
    if scan.names.contains name then none
    else some { scan.openGroup scan.mode with names := name :: scan.names }
  | .options mode => some (scan.openGroup mode)
  | .setting mode =>
    some { scan with mode, content.items := scan.content.items.addSetting }

/-- Closes the innermost group. -/
def leave? (scan : Scan) : Option Scan :=
  match scan.groups with
  | [] => none
  | (mode, outer) :: groups =>
    some { scan with mode, content := outer.add (scan.content.total + 1), groups }

/-- Opens a class, after its opening bracket. -/
def openClass? (scan : Scan) (text : List Char) : Option (Scan × List Char) :=
  let opened := { scan with classes := {} :: scan.classes }
  match scan.mode.skip text with
  | '^' :: rest => if scan.mode.allowsNegation then some (opened, rest) else none
  | rest => some (opened, rest)

/-- Closes a class. It becomes a part of the class around it, or an item. -/
def closeClass (scan : Scan) (closed : ClassScan) : List ClassScan → Scan
  | [] => { scan with content := scan.content.add (closed.content.total + 1), classes := [] }
  | outer :: around =>
    let content := outer.content.add (closed.content.total + 1)
    { scan with classes := { content, opening := false } :: around }

/-- Reads a member of a class or an end of a range, which begins with the
given character. -/
def readMember? (mode : Mode) (c : Char) (rest : List Char) : Option (Atom × List Char) :=
  if c = '\\' then Atom.read? mode rest else some (.literal c false, rest)

/-- What follows the hyphen of a range. A hyphen before the end of a class or
before another hyphen makes no range. -/
def afterHyphen? (mode : Mode) : List Char → Option (List Char)
  | '-' :: rest =>
    if mode.peek? rest = some ']' || mode.peek? rest = some '-' then none else some (mode.skip rest)
  | _ => none

/-- Reads a member or a range, which begins with the given character, and
tells what is left. The ends of a range are characters in order. -/
def readRange? (mode : Mode) (c : Char) (rest : List Char) : Option (List Char) := do
  let (first, rest) ← readMember? mode c rest
  let rest := mode.skip rest
  match afterHyphen? mode rest with
  | none => if mode.allowsMember first then some rest else none
  | some [] => none
  | some (c :: rest) =>
    let (last, rest) ← readMember? mode c rest
    match first, last with
    | .literal low _, .literal high _ =>
      if low ≤ high && mode.allowsMember first && mode.allowsMember last then some rest else none
    | _, _ => none

/-- Goes on within a class. A bracket right after the beginning is a member of
the class, and so are hyphens. -/
def readInClass? (scan : Scan) (inner : ClassScan) (around : List ClassScan) (c : Char)
    (rest : List Char) : Option (Scan × List Char) :=
  let put (content : Content) (opening : Bool) : Scan :=
    { scan with classes := { content, opening } :: around }
  if inner.opening && (c = '-' || (c = ']' && inner.content.items.count = 0)) then
    if scan.mode.allowsMember (.literal c false) then
      some (put (inner.content.add 0) (c = '-'), rest)
    else none
  else
    match c, rest with
    | ']', _ => some (scan.closeClass inner around, rest)
    | '[', _ =>
      match readClassName? rest with
      | some (negated, rest) =>
        if scan.mode.allowsNamed negated then some (put (inner.content.add 0) false, rest) else none
      | none => { scan with classes := { inner with opening := false } :: around }.openClass? rest
    | '&', '&' :: rest | '-', '-' :: rest | '~', '~' :: rest =>
      some (put inner.content.operate false, rest)
    | c, rest => do
      let rest ← readRange? scan.mode c rest
      return (put (inner.content.add 0) false, rest)

/-- Goes on outside of classes. -/
def readItem? (scan : Scan) (c : Char) (rest : List Char) : Option (Scan × List Char) :=
  match c with
  | '(' => do
    let (head, rest) ← GroupHead.read? scan.mode rest
    return (← scan.enter? head, rest)
  | ')' => do return (← scan.leave?, rest)
  | '|' => some ({ scan with content := scan.content.alternate }, rest)
  | '[' => scan.openClass? rest
  | '*' | '+' | '?' => do
    let items ← scan.content.items.repeatLast?
    let rest := if rest.head? = some '?' then rest.tail else rest
    return ({ scan with content.items := items }, rest)
  | '\x7b' => none
  | '\\' => do
    let (atom, rest) ← Atom.read? scan.mode rest
    return (← scan.addAtom? atom, rest)
  | '.' => if scan.mode.allowsAny then some (scan.addLeaf, rest) else none
  | '^' | '$' => some (scan.addLeaf, rest)
  | c => do return (← scan.addAtom? (.literal c false), rest)

/-- Reads on to the end. Each step takes a character at least, so a number of
steps above the number of characters is enough. -/
def read? (scan : Scan) : Nat → List Char → Option Scan
  | 0, _ => none
  | steps + 1, text =>
    match scan.mode.skip text, scan.classes with
    | [], _ => some scan
    | c :: rest, [] => do
      let (scan, rest) ← scan.readItem? c rest
      scan.read? steps rest
    | c :: rest, inner :: around => do
      let (scan, rest) ← scan.readInClass? inner around c rest
      scan.read? steps rest

/-- Whether nothing is open at the end, and nothing lies too deep. -/
def isComplete (scan : Scan) : Bool :=
  scan.groups.isEmpty && scan.classes.isEmpty && scan.content.total ≤ depthLimit

end Scan

/-- Why a text cannot be matched, if it cannot. -/
def fault? (text : String) : Option Fault :=
  match Scan.read? {} (text.length + 1) text.toList with
  | some scan =>
    if !scan.isComplete then some .malformed
    else if scan.hasBoundary then some .wordBoundary
    else none
  | none => some .malformed

end Summand.Pattern
