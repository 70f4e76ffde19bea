/-! The parts of a pattern lie within each other, and how deep they may lie is
limited. The depth is found while the pattern is read: items form sequences,
and sequences are divided by bars, or in classes by operators. -/
namespace Summand.Pattern

/-- The depth to which the parts of a pattern may be nested. -/
def depthLimit : Nat := 250

/-- Items that stand one after the other. -/
structure Items where
  count : Nat := 0
  /-- The depth of the deepest item. -/
  depth : Nat := 0
  /-- The depth of the last item, if it can be repeated. -/
  last : Option Nat := none
  deriving Repr, DecidableEq

namespace Items

/-- Appends an item that can be repeated. -/
def add (items : Items) (depth : Nat) : Items :=
  { count := items.count + 1, depth := max items.depth depth, last := some depth }

/-- Appends an item that cannot be repeated. -/
def addSetting (items : Items) : Items :=
  { items with count := items.count + 1, last := none }

/-- Repeats the last item. -/
def repeatLast? (items : Items) : Option Items := do
  let depth := (← items.last) + 1
  return { items with depth := max items.depth depth, last := some depth }

/-- The depth of the whole: a single item stands for itself. -/
def total (items : Items) : Nat :=
  if items.count ≤ 1 then items.depth else items.depth + 1

end Items

/-- A content that is divided, or can be. -/
structure Content where
  /-- The depth of what stands before the last divider, if there is one. -/
  before : Option Nat := none
  items : Items := {}
  deriving Repr, DecidableEq

namespace Content

/-- Appends an item that can be repeated. -/
def add (content : Content) (depth : Nat) : Content :=
  { content with items := content.items.add depth }

/-- The depth of the whole. -/
def total (content : Content) : Nat :=
  match content.before with
  | none => content.items.total
  | some depth => max depth content.items.total + 1

/-- Begins a further alternative. All alternatives are on one level. -/
def alternate (content : Content) : Content :=
  { before := some (max (content.before.getD 0) content.items.total) }

/-- Begins the right operand of an operator. What stands before it is the left
one. -/
def operate (content : Content) : Content :=
  { before := some content.total }

end Content
end Summand.Pattern
