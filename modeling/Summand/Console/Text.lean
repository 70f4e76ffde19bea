import Summand.Console.Sink
import Summand.Text.Utf8

/-! Text is written as UTF-8, piece by piece. -/
namespace Summand.Writing

/-- Writes a text. -/
def text (piece : String) : Writing Unit :=
  writeAll (Utf8.encode piece)

/-- Writes pieces of text in order, up to the first failure. -/
def pieces (parts : List String) : Writing Unit :=
  parts.forM text

end Summand.Writing
