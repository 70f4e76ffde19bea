import Summand.Proofs.Delivery
import Summand.Proofs.Spelling
import Summand.Session.View

/-! A drawing determines its tree. The rows are read from the last to the first:
a row takes the nodes that stand deeper right below it as its children, so that
the column where its name begins is all that is used of its branches. Only the
places and the texts of the tokens are not drawn; trees that differ in nothing
else have the same drawing. -/
namespace Summand.TreeRecovery
open Delivery Scanning Spelling

/-- What a drawing shows of a token: its kind and its value. -/
def bareToken (token : Token) : Token := { token with position := 0, text := none }

/-- What a drawing shows of an expression. -/
def bareExpr : Expr → Expr
  | .number token => .number (bareToken token)
  | .binary left operator right => .binary (bareExpr left) (bareToken operator) (bareExpr right)

/-- What a drawing shows of a tree. -/
def bare : Node → Node
  | .token token => .token (bareToken token)
  | .expr expr => .expr (bareExpr expr)

/-- Reads the value behind the name in a row. -/
def readValue : List Char → Option Int
  | [] => none
  | _ :: digits => some (valueOf digits)

/-- Reads a row: the column where its name begins, and what the name and the value
behind it say. -/
def readRow? (line : List Char) : Option (Nat × Token) :=
  (leadingKind? (line.dropWhile (!·.isAlpha))).map fun (kind, rest) =>
    ((line.takeWhile (!·.isAlpha)).length,
      { kind, position := 0, text := none, value := readValue rest })

/-- The node over some children. Without children it is a token. -/
def join (token : Token) : List Node → Node
  | [.token number] => .expr (.number number)
  | [.expr left, .token operator, .expr right] => .expr (.binary left operator right)
  | _ => .token token

/-- Puts a row on top of the nodes below it, each given with its column. Those
that stand deeper, down to the first that does not, become its children. -/
def hang (row : Nat × Token) (below : List (Nat × Node)) : List (Nat × Node) :=
  let deeper := fun (node : Nat × Node) => decide (row.1 < node.1)
  (row.1, join row.2 ((below.takeWhile deeper).map Prod.snd)) :: below.dropWhile deeper

/-- Reads the tree off the bytes of a drawing. -/
def recover? (bytes : List UInt8) : Option Node := do
  let text ← Utf8.decode? bytes
  let rows ← (text.toList.splitOn '\n').dropLast.mapM readRow?
  (rows.foldr hang []).head?.map Prod.snd

/-- An indent is made of blanks and bars. -/
def Margin (indent : String) : Prop := ∀ c ∈ indent.toList, c = ' ' ∨ c = '│'

/-- What stands in a row in front of the name. -/
def front (row : Row) : List Char := row.indent.toList ++ (Row.branch row.isLast).toList

/-- What stands in a row behind the name. -/
def valueText : Option Int → List Char
  | some value => ' ' :: (Numeral.write value).toList
  | none => []

/-- The characters of a row, the line end left out. -/
def line (row : Row) : List Char := front row ++ (row.kind.name.toList ++ valueText row.value)

/-- The column where the name of a row with some indent begins. -/
def column (indent : String) : Nat := indent.length + 3

/-- What is to be read of a row. -/
def entry (row : Row) : Nat × Token :=
  (column row.indent, { kind := row.kind, position := 0, text := none, value := row.value })

theorem pieces_line (row : Row) : row.pieces.flatMap String.toList = line row ++ ['\n'] := by
  obtain ⟨indent, isLast, kind, value⟩ := row
  cases value <;> simp [Row.pieces, line, front, valueText]

theorem front_length (row : Row) : (front row).length = column row.indent := by
  have width : (Row.branch row.isLast).toList.length = 3 := by cases row.isLast <;> decide
  rw [front, List.length_append, width, String.length_toList, column]

theorem readValue_valueText (value : Option Int) : readValue (valueText value) = value := by
  cases value with
  | none => rfl
  | some value => rw [valueText, readValue, valueOf_write]

/-- No letter and no line end stands right behind the name in a row. -/
theorem valueText_plain (value : Option Int) :
    (∀ c ∈ (valueText value).head?, c.isAlpha = false) ∧ '\n' ∉ valueText value := by
  cases value with
  | none => simp [valueText]
  | some value =>
    have marks : '\n' ∉ (Numeral.write value).toList := fun member =>
      absurd (write_characters value _ member) (by decide)
    simp [valueText, marks]

theorem column_below (indent : String) (isLast : Bool) :
    column (indent ++ Row.below isLast) = column indent + 4 := by
  have width : (Row.below isLast).length = 4 := by cases isLast <;> decide
  rw [column, column, String.length_append, width, Nat.add_right_comm]

theorem margin_below {indent : String} (margin : Margin indent) (isLast : Bool) :
    Margin (indent ++ Row.below isLast) := by
  have bars : ∀ c ∈ (Row.below isLast).toList, c = ' ' ∨ c = '│' := by
    cases isLast <;> simp [Row.below]
  intro c member
  rw [String.toList_append, List.mem_append] at member
  exact member.elim (margin c) (bars c)

theorem rows_margin (expr : Expr) {indent : String} (margin : Margin indent) (isLast : Bool) :
    ∀ row ∈ expr.rows indent isLast, Margin row.indent := by
  induction expr generalizing indent isLast with
  | number token =>
    intro row member
    simp only [Expr.rows, List.mem_cons, List.not_mem_nil, or_false] at member
    rcases member with rfl | rfl
    · exact margin
    · exact margin_below margin isLast
  | binary left operator right leftRows rightRows =>
    have inner := margin_below margin isLast
    intro row member
    simp only [Expr.rows, List.mem_cons, List.mem_append] at member
    rcases member with rfl | member | rfl | member
    · exact margin
    · exact leftRows inner false row member
    · exact inner
    · exact rightRows inner true row member

/-- No letter and no line end stands in front of the name in a row. -/
theorem front_plain {row : Row} (margin : Margin row.indent) :
    ∀ c ∈ front row, c.isAlpha = false ∧ c ≠ '\n' := by
  have branch : ∀ c ∈ (Row.branch row.isLast).toList, c.isAlpha = false ∧ c ≠ '\n' := by
    cases row.isLast <;> simp [Row.branch]
  intro c member
  rcases List.mem_append.mp member with member | member
  · rcases margin c member with rfl | rfl <;> decide
  · exact branch c member

theorem line_plain {row : Row} (margin : Margin row.indent) : '\n' ∉ line row := by
  intro member
  rcases List.mem_append.mp member with member | member
  · exact (front_plain margin _ member).2 rfl
  · rcases List.mem_append.mp member with member | member
    · exact absurd (name_letters row.kind _ member) (by decide)
    · exact (valueText_plain row.value).2 member

/-- A row is read as what it shows. -/
theorem readRow?_line {row : Row} (margin : Margin row.indent) :
    readRow? (line row) = some (entry row) := by
  have name : ∀ c ∈ (row.kind.name.toList ++ valueText row.value).head?, (!c.isAlpha) = false := by
    obtain ⟨first, rest, begins⟩ := name_begins row.kind
    have letter := name_letters row.kind first (by simp [begins])
    simp [begins, letter]
  obtain ⟨before, behind⟩ := run_stops
    (fun c member => by simp [(front_plain margin c member).1]) name
  rw [readRow?, line, before, behind, leadingKind?_name row.kind (valueText_plain row.value).1,
    front_length]
  simp [entry, readValue_valueText]

/-- The lines of a drawing are its rows. -/
theorem splitOn_rows {rows : List Row} (margins : ∀ row ∈ rows, Margin row.indent) :
    (rows.flatMap fun row => line row ++ ['\n']).splitOn '\n' = rows.map line ++ [[]] := by
  induction rows with
  | nil => simp
  | cons row rows ih =>
    have plain : ∀ c ∈ line row, (c == '\n') = false := fun c member =>
      beq_eq_false_iff_ne.mpr fun same => line_plain (margins row (by simp)) (same ▸ member)
    have later := ih fun other member => margins other (by simp [member])
    rw [List.splitOn] at later ⊢
    rw [List.flatMap_cons, List.append_assoc, List.singleton_append,
      List.splitOnP_append_cons_of_forall_mem plain _ (by simp), later]
    rfl

theorem mapM_rows {rows : List Row} (margins : ∀ row ∈ rows, Margin row.indent) :
    (rows.map line).mapM readRow? = some (rows.map entry) := by
  induction rows with
  | nil => rfl
  | cons row rows ih =>
    have later := ih fun other member => margins other (by simp [member])
    rw [List.map_cons, List.mapM_cons, readRow?_line (margins row (by simp)), later]
    rfl

variable {below : List (Nat × Node)}

/-- Children that stand deeper hang on their row, in front of nodes that do not. -/
theorem hang_children (row : Nat × Token) (children : List (Nat × Node))
    (deeper : ∀ child ∈ children, row.1 < child.1) (shallow : ∀ node ∈ below.head?, node.1 ≤ row.1) :
    hang row (children ++ below) = (row.1, join row.2 (children.map Prod.snd)) :: below := by
  obtain ⟨inside, behind⟩ := run_stops
    (p := fun (node : Nat × Node) => decide (row.1 < node.1))
    (fun child member => decide_eq_true (deeper child member))
    (fun node first => decide_eq_false (Nat.not_lt.mpr (shallow node first)))
  simp only [hang, inside, behind]

/-- The row of a token stays a token, whatever its kind. -/
theorem hang_token (indent : String) (isLast : Bool) (token : Token)
    (shallow : ∀ node ∈ below.head?, node.1 ≤ column indent) :
    hang (entry (.ofToken indent isLast token)) below =
      (column indent, .token (bareToken token)) :: below :=
  hang_children _ [] (by simp) shallow

/-- The rows of an expression become the expression, in front of what stands no
deeper than it. -/
theorem hang_expr (expr : Expr) (indent : String) (isLast : Bool)
    (shallow : ∀ node ∈ below.head?, node.1 ≤ column indent) :
    ((expr.rows indent isLast).map entry).foldr hang below =
      (column indent, .expr (bareExpr expr)) :: below := by
  induction expr generalizing indent isLast below with
  | number token =>
    have inner := column_below indent isLast
    have deep : ∀ node ∈ below.head?, node.1 ≤ column (indent ++ Row.below isLast) :=
      fun node first => Nat.le_trans (shallow node first) (by omega)
    simp only [Expr.rows, List.map_cons, List.map_nil, List.foldr_cons, List.foldr_nil]
    rw [hang_token _ true token deep, inner]
    exact hang_children _ [(column indent + 4, .token (bareToken token))]
      (by simp [entry]) shallow
  | binary left operator right leftRows rightRows =>
    have inner := column_below indent isLast
    have deep : ∀ node ∈ below.head?, node.1 ≤ column (indent ++ Row.below isLast) :=
      fun node first => Nat.le_trans (shallow node first) (by omega)
    simp only [Expr.rows, List.map_cons, List.map_append, List.foldr_cons, List.foldr_append]
    rw [rightRows _ true deep, hang_token _ false operator (by simp), leftRows _ false (by simp),
      inner]
    exact hang_children _ [(column indent + 4, .expr (bareExpr left)),
      (column indent + 4, .token (bareToken operator)), (column indent + 4, .expr (bareExpr right))]
      (by simp [entry]) shallow

/-- The bytes of a drawing. -/
def drawn (node : Node) : List UInt8 := node.drawing.flatMap Utf8.encode

theorem node_margin (node : Node) : ∀ row ∈ node.rows, Margin row.indent := by
  have blank : Margin "" := by simp [Margin]
  cases node with
  | token token =>
    intro row member
    rw [Node.rows, List.mem_singleton] at member
    exact member ▸ blank
  | expr expr => exact rows_margin expr blank true

/-- The rows of a tree become the tree. -/
theorem hang_node (node : Node) :
    (node.rows.map entry).foldr hang [] = [(column "", bare node)] := by
  cases node with
  | token token => exact hang_token "" true token (by simp)
  | expr expr => exact hang_expr expr "" true (by simp)

/-- A tree is read off its drawing. -/
theorem recover?_drawn (node : Node) : recover? (drawn node) = some (bare node) := by
  have text : node.drawing.flatMap String.toList =
      node.rows.flatMap fun row => line row ++ ['\n'] := by
    rw [Node.drawing, List.flatMap_assoc]
    simp only [pieces_line]
  rw [recover?, drawn, decode?_pieces, Option.bind_eq_bind, Option.bind_some, String.toList_ofList,
    text, splitOn_rows (node_margin node), List.dropLast_concat,
    mapM_rows (node_margin node), Option.bind_eq_bind, Option.bind_some, hang_node]
  rfl

theorem rows_bare (expr : Expr) (indent : String) (isLast : Bool) :
    (bareExpr expr).rows indent isLast = expr.rows indent isLast := by
  induction expr generalizing indent isLast with
  | number token => rfl
  | binary left operator right leftRows rightRows =>
    simp only [bareExpr, Expr.rows, leftRows, rightRows]
    rfl

/-- Places and texts are not drawn. -/
theorem drawn_bare (node : Node) : drawn (bare node) = drawn node := by
  cases node with
  | token token => rfl
  | expr expr => rw [drawn, drawn, Node.drawing, Node.drawing, bare, Node.rows, rows_bare, Node.rows]

/-- A drawing determines its tree: the kind and the value of every token can be
read off it together with the shape of the tree, and two trees have the same
drawing exactly when they agree in these. -/
theorem drawing_determines_tree (first second : Node) :
    Emits (Writing.drawing first) () (drawn first) ∧
      recover? (drawn first) = some (bare first) ∧
      (drawn first = drawn second ↔ bare first = bare second) := by
  refine ⟨(writes_pieces first.drawing).emits, recover?_drawn first, ?_, ?_⟩
  · intro same
    have read := congrArg recover? same
    rw [recover?_drawn, recover?_drawn] at read
    exact Option.some.inj read
  · intro same
    rw [← drawn_bare first, same, drawn_bare]

end Summand.TreeRecovery
