import Mathlib.Data.List.Induction
import Summand.Proofs.TreeRecovery

/-! A place in a tree is the way down to it: the number of the child taken at each
step. Nodes that look alike still have places of their own. In dictionary order a
place comes in front of those below it, and of two places that part ways the one
through the earlier child comes first. The nodes of a tree in this order are the rows
of its drawing. -/
namespace Summand.Places
open TreeRecovery

/-- The node at a place, if the tree has one there. -/
def nodeAt? : Node → List Nat → Option Node
  | node, [] => some node
  | node, index :: place => node.children[index]?.bind fun child => nodeAt? child place

/-- Whether a place is that of a last child. The root counts as one. -/
def isLast (root : Node) (place : List Nat) : Bool :=
  match place.getLast? with
  | none => true
  | some index => (nodeAt? root place.dropLast).any (·.children.length = index + 1)

/-- Every node of a tree once, with its place, in the order of the places. -/
structure Walk (root : Node) (visits : List (List Nat × Node)) : Prop where
  complete : ∀ place node, (place, node) ∈ visits ↔ nodeAt? root place = some node
  ordered : visits.Pairwise fun first second => first.1 < second.1

/-- A visit to a tree, seen from further up: its root stands at some place. -/
def below (place : List Nat) (visit : List Nat × Node) : List Nat × Node :=
  (place ++ visit.1, visit.2)

/-- The nodes of an expression with their places, in the order of a walk. -/
def exprVisits : Expr → List (List Nat × Node)
  | .number token => [([], .expr (.number token)), ([0], .token token)]
  | .binary left operator right =>
    ([], .expr (.binary left operator right)) ::
      ((exprVisits left).map (below [0]) ++
        ([1], .token operator) :: (exprVisits right).map (below [2]))

/-- The nodes of a tree with their places, in the order of a walk. -/
def visits : Node → List (List Nat × Node)
  | .token token => [([], .token token)]
  | .expr expr => exprVisits expr

variable {root node : Node} {expr : Expr} {token : Token} {place : List Nat} {index : Nat}
  {seen : List (List Nat × Node)}

theorem nodeAt?_nil : nodeAt? root [] = some node ↔ node = root := by
  rw [nodeAt?, Option.some.injEq, eq_comm]

theorem nodeAt?_number (token : Token) (index : Nat) (place : List Nat) :
    nodeAt? (.expr (.number token)) (index :: place) =
      if index = 0 then nodeAt? (.token token) place else none := by
  cases index <;> simp [nodeAt?, Node.children, Expr.children]

theorem nodeAt?_binary (left right : Expr) (operator : Token) (index : Nat) (place : List Nat) :
    nodeAt? (.expr (.binary left operator right)) (index :: place) =
      if index = 0 then nodeAt? (.expr left) place
      else if index = 1 then nodeAt? (.token operator) place
      else if index = 2 then nodeAt? (.expr right) place else none := by
  match index with
  | 0 | 1 | 2 => simp [nodeAt?, Node.children, Expr.children]
  | index + 3 => simp [nodeAt?, Node.children, Expr.children]

/-- A token has no places but its own. -/
theorem nodeAt?_token : nodeAt? (.token token) place = some node ↔
    place = [] ∧ node = .token token := by
  cases place with
  | nil => simp [nodeAt?_nil]
  | cons index place => simp [nodeAt?, Node.children]

theorem nodeAt?_concat (root : Node) (place : List Nat) (index : Nat) :
    nodeAt? root (place ++ [index]) = (nodeAt? root place).bind (·.children[index]?) := by
  induction place generalizing root with
  | nil => simp [nodeAt?]
  | cons first place ih =>
    rw [List.cons_append, nodeAt?, nodeAt?, Option.bind_assoc]
    exact congrArg _ (funext ih)

theorem isLast_concat (found : nodeAt? root place = some node) (index : Nat) :
    isLast root (place ++ [index]) = decide (node.children.length = index + 1) := by
  simp [isLast, found]

theorem mem_below : (place, node) ∈ seen.map (below [index]) ↔
    ∃ later, place = index :: later ∧ (later, node) ∈ seen := by
  simp only [List.mem_map, below, Prod.mk.injEq, Prod.exists, List.singleton_append]
  constructor
  · rintro ⟨later, found, member, rfl, rfl⟩
    exact ⟨later, rfl, member⟩
  · rintro ⟨later, rfl, member⟩
    exact ⟨later, node, member, rfl, rfl⟩

theorem below_below (place : List Nat) (index : Nat) :
    below place ∘ below [index] = below (place ++ [index]) := by
  funext visit
  simp [below]

theorem exprVisits_complete (expr : Expr) (place : List Nat) (node : Node) :
    (place, node) ∈ exprVisits expr ↔ nodeAt? (.expr expr) place = some node := by
  induction expr generalizing place with
  | number token =>
    cases place with
    | nil => simp [exprVisits, nodeAt?_nil]
    | cons index place =>
      rw [nodeAt?_number]
      by_cases first : index = 0
      · simp [exprVisits, first, nodeAt?_token]
      · simp [exprVisits, first]
  | binary left operator right leftVisits rightVisits =>
    simp only [exprVisits, List.mem_cons, List.mem_append, mem_below, leftVisits, rightVisits]
    cases place with
    | nil => simp [nodeAt?_nil]
    | cons index place =>
      rw [nodeAt?_binary]
      match index with
      | 0 | 2 => simp
      | 1 => simp [nodeAt?_token]
      | index + 3 => simp

theorem below_ordered (ordered : seen.Pairwise fun first second => first.1 < second.1)
    (index : Nat) :
    (seen.map (below [index])).Pairwise fun first second => first.1 < second.1 := by
  rw [List.pairwise_map]
  exact ordered.imp fun before => List.cons_lt_cons_iff.mpr (.inr ⟨rfl, before⟩)

/-- Places that part at the first step are in the order of that step. -/
theorem parted_lt {first second place later : List Nat} {other : Nat}
    (left : first = index :: place) (right : second = other :: later) (before : index < other) :
    first < second := by
  rw [left, right]
  exact List.cons_lt_cons_iff.mpr (.inl before)

theorem exprVisits_ordered (expr : Expr) :
    (exprVisits expr).Pairwise fun first second => first.1 < second.1 := by
  have step : ∀ {index : Nat} {seen : List (List Nat × Node)}, ∀ visit ∈ seen.map (below [index]),
      ∃ place, visit.1 = index :: place := by
    intro index seen visit member
    obtain ⟨place, parted, _⟩ := mem_below.mp member
    exact ⟨place, parted⟩
  induction expr with
  | number token => simp [exprVisits]
  | binary left operator right leftVisits rightVisits =>
    refine List.pairwise_cons.mpr ⟨?_, List.pairwise_append.mpr
      ⟨below_ordered leftVisits 0, List.pairwise_cons.mpr ⟨?_, below_ordered rightVisits 2⟩, ?_⟩⟩
    · intro visit member
      have deeper : visit.1 ≠ [] := by
        rcases List.mem_append.mp member with inLeft | behind
        · obtain ⟨place, parted⟩ := step visit inLeft
          simp [parted]
        · rcases List.mem_cons.mp behind with rfl | inRight
          · simp
          · obtain ⟨place, parted⟩ := step visit inRight
            simp [parted]
      obtain ⟨index, place, parted⟩ := List.exists_cons_of_ne_nil deeper
      rw [parted]
      exact List.nil_lt_cons ..
    · intro visit inRight
      obtain ⟨place, parted⟩ := step visit inRight
      exact parted_lt rfl parted (by decide)
    · intro first inLeft second behind
      obtain ⟨place, parted⟩ := step first inLeft
      rcases List.mem_cons.mp behind with rfl | inRight
      · exact parted_lt parted rfl (by decide)
      · obtain ⟨later, partedToo⟩ := step second inRight
        exact parted_lt parted partedToo (by decide)

theorem visits_walk (root : Node) : Walk root (visits root) := by
  cases root with
  | token token => exact ⟨fun place node => by simp [visits, nodeAt?_token], by simp [visits]⟩
  | expr expr => exact ⟨exprVisits_complete expr, exprVisits_ordered expr⟩

/-! The rows of a drawing stand for the places of its tree. -/

/-- What stands in front of the branch of the node at a place: one part for each node
above it. -/
def margin (root : Node) (place : List Nat) : String :=
  String.join ((List.range place.length).map fun depth =>
    Row.below (isLast root (place.take depth)))

/-- The row of a node at a place. -/
def rowAt (root : Node) (visit : List Nat × Node) : Row :=
  { indent := margin root visit.1
    isLast := isLast root visit.1
    kind := visit.2.kind
    value := visit.2.value }

theorem margin_concat (root : Node) (place : List Nat) (index : Nat) :
    margin root (place ++ [index]) = margin root place ++ Row.below (isLast root place) := by
  have above : ∀ depth ∈ List.range place.length,
      Row.below (isLast root ((place ++ [index]).take depth)) =
        Row.below (isLast root (place.take depth)) := by
    intro depth member
    rw [List.take_append_of_le_length (Nat.le_of_lt (List.mem_range.mp member))]
  rw [margin, List.length_append, List.length_singleton, List.range_succ, List.map_append,
    String.join_append, List.map_congr_left above, List.map_singleton, List.take_left]
  simp [margin]

theorem margin_length (root : Node) (place : List Nat) :
    (margin root place).length = 4 * place.length := by
  induction place using List.reverseRecOn with
  | nil => rfl
  | append_singleton place index ih =>
    have width : (Row.below (isLast root place)).length = 4 := by
      cases isLast root place <;> decide
    rw [margin_concat, String.length_append, width, ih, List.length_append, List.length_singleton,
      Nat.mul_add]

/-- The rows of an expression that stands somewhere in a tree are those of its nodes. -/
theorem rows_visits (found : nodeAt? root place = some (.expr expr)) :
    expr.rows (margin root place) (isLast root place) =
      (exprVisits expr).map (rowAt root ∘ below place) := by
  induction expr generalizing place with
  | number token =>
    have last : isLast root (place ++ [0]) = true := isLast_concat found 0
    simp [Expr.rows, exprVisits, rowAt, below, Row.ofToken, margin_concat, last, Node.kind,
      Expr.kind, Node.value]
  | binary left operator right leftRows rightRows =>
    have child : ∀ index, nodeAt? root (place ++ [index]) =
        [Node.expr left, .token operator, .expr right][index]? := by
      intro index
      rw [nodeAt?_concat, found]
      rfl
    have last : ∀ index, isLast root (place ++ [index]) = decide (3 = index + 1) :=
      isLast_concat found
    have leftPart := leftRows (child 0)
    have rightPart := rightRows (child 2)
    rw [margin_concat, last, ← below_below, ← Function.comp_assoc, ← List.map_map] at leftPart rightPart
    have own : rowAt root (below place ([], .expr (.binary left operator right))) =
        { indent := margin root place, isLast := isLast root place, kind := .binaryExpression
          value := none } := by
      simp [rowAt, below, Node.kind, Expr.kind, Node.value]
    have middle : rowAt root (below place ([1], .token operator)) =
        .ofToken (margin root place ++ Row.below (isLast root place)) false operator := by
      simp [rowAt, below, Row.ofToken, margin_concat, last, Node.kind, Node.value]
    rw [Expr.rows, exprVisits, List.map_cons, List.map_append, List.map_cons, Function.comp_apply,
      Function.comp_apply, own, middle, ← leftPart, ← rightPart]
    rfl

theorem node_rows (root : Node) : root.rows = (visits root).map (rowAt root) := by
  cases root with
  | token token => rfl
  | expr expr => exact rows_visits (nodeAt?_nil.mpr rfl)

end Summand.Places
