/-! Input is read line by line. A line reaches through its line feed; what
follows the last line feed is a line too, unless it is empty. Reading may fail
at the end of the bytes instead of finding the end of input there, and then
the bytes of the line in progress are used up. -/
namespace Summand

/-- The bytes still to be read, and whether reading fails after them. -/
structure Input where
  bytes : List UInt8
  broken : Bool := false
  deriving Repr, DecidableEq

/-- What an attempt to read a line finds. -/
inductive Reading where
  /-- A line, with its line feed if it has one, and the input after it. -/
  | line (bytes : List UInt8) (rest : Input)
  /-- The end of input. -/
  | ended
  /-- An error, after the given number of bytes. -/
  | failed (count : Nat)
  deriving Repr, DecidableEq

namespace Input

/-- Input over some bytes, with a failure at an offset if one is given. Only
an offset within the bytes or right after them is ever reached. -/
def ofBytes (bytes : List UInt8) (failure : Option Nat) : Input :=
  match failure with
  | none => { bytes }
  | some offset =>
    if offset ≤ bytes.length then { bytes := bytes.take offset, broken := true } else { bytes }

/-- The byte that ends a line. -/
def lineFeed : UInt8 := 10

/-- Reads the next line. -/
def readLine (input : Input) : Reading :=
  let head := input.bytes.takeWhile (· != lineFeed)
  match input.bytes.dropWhile (· != lineFeed) with
  | feed :: rest => .line (head ++ [feed]) { input with bytes := rest }
  | [] =>
    if input.broken then .failed head.length
    else if head.isEmpty then .ended
    else .line head { input with bytes := [] }

theorem length_lt_of_line {input rest : Input} {bytes : List UInt8}
    (read : input.readLine = .line bytes rest) : rest.bytes.length < input.bytes.length := by
  have parts := congrArg List.length
    (List.takeWhile_append_dropWhile (p := (· != lineFeed)) (l := input.bytes))
  rw [List.length_append] at parts
  simp only [readLine] at read
  split at read
  · next feed tail found =>
    cases read
    rw [found, List.length_cons] at parts
    simp only
    omega
  · split at read
    · cases read
    · split at read
      · cases read
      · next empty =>
        cases read
        have nonempty : 0 < (input.bytes.takeWhile (· != lineFeed)).length := by
          simpa [List.length_pos_iff] using empty
        simp only [List.length_nil]
        omega

end Input

/-- Whether a character can end a line. -/
def isLineEnd (c : Char) : Bool :=
  c = '\r' || c = '\n'

/-- A line without any of the line ends that close it. -/
def trimLineEnd (line : String) : String :=
  String.ofList (line.toList.reverse.dropWhile isLineEnd).reverse

end Summand
