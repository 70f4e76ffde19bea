import Summand.Console.Text
import Summand.Text.Numeral

/-! Text is colored by an escape sequence before it and a reset after it.
Once the color is set it is always reset, whether the text was written or not,
and what becomes of the reset is nobody's error. -/
namespace Summand

/-- A foreground color of a terminal. -/
inductive Color where
  /-- The terminal's own color. -/
  | default
  /-- A color of the palette. -/
  | palette (index : UInt8)
  | rgb (red green blue : UInt8)
  deriving Repr, DecidableEq

namespace Color

/-- The names of the first colors of the palette, in its order. -/
def paletteNames : List String :=
  ["black", "dark_red", "dark_green", "dark_yellow", "dark_blue", "dark_magenta", "dark_cyan",
   "grey", "dark_grey", "red", "green", "yellow", "blue", "magenta", "cyan", "white"]

/-- The color of a given name. -/
def ofName? (name : String) : Option Color :=
  if name = "reset" then some .default
  else (paletteNames.idxOf? name).map (.palette ·.toUInt8)

/-- The color that trees are drawn in: green. -/
def tree : Color := palette 10

/-- The pieces of the sequence that sets a color. -/
def escape (color : Color) : List String :=
  let byte (value : UInt8) := Numeral.write value.toNat
  match color with
  | default => ["\x1b[", "39", "m"]
  | palette index => ["\x1b[", "38;5;", byte index, "m"]
  | rgb red green blue => ["\x1b[", "38;2;", byte red, ";", byte green, ";", byte blue, "m"]

/-- The sequence that takes all colors back. -/
def reset : String := "\x1b[0m"

end Color

namespace Writing

/-- Writes with a foreground color, if one is given. When the color cannot be
set, nothing else is done. Otherwise the reset is tried once and a flush is
tried once, the flush even after a failed reset, and the outcome is that of
the writing in between. -/
def withForeground (color : Option Color) (writing : Writing α) : Writing α :=
  match color with
  | none => writing
  | some color => do
    pieces color.escape
    let outcome ← attempt writing
    let _ ← attempt (text Color.reset)
    let _ ← attempt flush
    match outcome with
    | .ok value => pure value
    | .error error => throw error

end Writing
end Summand
