import Mathlib.Data.List.Chain
import Summand.Proofs.TreeLines

/-! The branches of a drawing are connected. What leads down from a line is known from
what stands in front of the nodes right below it: a bar there leads down, and nothing
else does. The next line in a walk is that of a first child, or it takes up exactly what
led down from the line above, however deep that line was. So no bar ends in the air or
begins there. -/
namespace Summand.Branches
open Places Spelling TreeLines TreeRecovery

/-- A bar or a branch of a line that asks to be continued in the line below. -/
def LeadsDown (drawn : List Char) (column : Nat) : Prop :=
  drawn[column]? = some '├' ∨ drawn[column]? = some '│'

/-- A bar or a branch of a line that continues one in the line above. -/
def ComesDown (drawn : List Char) (column : Nat) : Prop :=
  drawn[column]? = some '│' ∨ drawn[column]? = some '├' ∨ drawn[column]? = some '└'

/-- The column of the branch of the node at a place. -/
def branchColumn (place : List Nat) : Nat := 4 * place.length

/-- The lines of a walk through a tree are connected. What leads down from a line is taken
up by the line below, which is there. What comes down to a line was led down by the line
above, unless it is the branch of a child right below its parent. Nothing comes down
from the branch of a last child. -/
structure Connected (root : Node) (seen : List (List Nat × Node)) : Prop where
  taken : ∀ index upper column, seen[index]? = some upper →
    LeadsDown (lineAt root upper) column →
      ∃ lower, seen[index + 1]? = some lower ∧ ComesDown (lineAt root lower) column
  led : ∀ index upper lower column, seen[index]? = some upper → seen[index + 1]? = some lower →
    ComesDown (lineAt root lower) column → LeadsDown (lineAt root upper) column ∨
      ((∃ step, lower.1 = upper.1 ++ [step]) ∧ column = branchColumn lower.1)
  closed : ∀ index upper lower column, seen[index]? = some upper → seen[index + 1]? = some lower →
    (lineAt root upper)[column]? = some '└' → ¬ ComesDown (lineAt root lower) column

/-- A bar in an indent. -/
def Bar (indent : String) (column : Nat) : Prop := indent.toList[column]? = some '│'

/-- What stands in front of the branches of the nodes right below a place. -/
def inner (root : Node) (place : List Nat) : String :=
  margin root place ++ Row.below (isLast root place)

/-- The second of two places has the line below that of the first: it is right below the
first, or its line takes up all that leads down from the line of the first. -/
def Follows (root : Node) (upper lower : List Nat) : Prop :=
  (∃ step, lower = upper ++ [step]) ∨ ∀ column,
    Bar (inner root upper) column ↔
      Bar (margin root lower) column ∨ column = (margin root lower).length

variable {root : Node} {row : Row} {expr : Expr} {place : List Nat}

theorem bar_within {indent : String} {column : Nat} (bar : Bar indent column) :
    column < indent.length := by
  rw [← String.length_toList]
  exact (List.getElem?_eq_some_iff.mp bar).1

theorem bar_below (indent : String) (isLast : Bool) (column : Nat) :
    Bar (indent ++ Row.below isLast) column ↔
      Bar indent column ∨ (isLast = false ∧ column = indent.length) := by
  have part : ∀ index, (Row.below isLast).toList[index]? = some '│' ↔
      isLast = false ∧ index = 0 := by
    intro index
    match index with
    | 0 | 1 | 2 | 3 => cases isLast <;> simp [Row.below]
    | index + 4 => cases isLast <;> simp [Row.below]
  rw [Bar, String.toList_append, List.getElem?_append, String.length_toList]
  by_cases before : column < indent.length
  · rw [if_pos before]
    exact ⟨.inl, fun bar => bar.resolve_right fun behind => by omega⟩
  · rw [if_neg before, part, Nat.sub_eq_zero_iff_le]
    constructor
    · rintro ⟨more, within⟩
      exact .inr ⟨more, by omega⟩
    · rintro (bar | ⟨more, rfl⟩)
      · exact absurd (bar_within bar) before
      · exact ⟨more, Nat.le_refl _⟩

/-- Behind the branch of a line there is no other branch and no bar. -/
theorem text_plain (row : Row) {glyph : Char} (drawn : glyph = '│' ∨ glyph = '├' ∨ glyph = '└') :
    glyph ∉ '─' :: '─' :: (row.kind.name.toList ++ valueText row.value) := by
  intro member
  simp only [List.mem_cons, List.mem_append] at member
  rcases member with dash | dash | name | value
  · rw [dash] at drawn
    revert drawn
    decide
  · rw [dash] at drawn
    revert drawn
    decide
  · have letter := name_letters row.kind glyph name
    rcases drawn with rfl | rfl | rfl <;> exact absurd letter (by decide)
  · cases held : row.value with
    | none => simp [held, valueText] at value
    | some number =>
      rw [held, valueText, List.mem_cons] at value
      have digit := value.imp_right (write_characters number glyph)
      rcases drawn with rfl | rfl | rfl <;> exact absurd digit (by decide)

/-- A line has bars where its indent has them and one branch behind the indent. -/
theorem glyph_iff {glyph : Char} (drawn : glyph = '│' ∨ glyph = '├' ∨ glyph = '└')
    (margin : Margin row.indent) (column : Nat) : (line row)[column]? = some glyph ↔
      (glyph = '│' ∧ Bar row.indent column) ∨
        (glyph = (if row.isLast then '└' else '├') ∧ column = row.indent.length) := by
  have parts : line row = row.indent.toList ++ (if row.isLast then '└' else '├') ::
      '─' :: '─' :: (row.kind.name.toList ++ valueText row.value) := by
    cases last : row.isLast <;> simp [line, front, Row.branch, last]
  rw [parts, List.getElem?_append, String.length_toList]
  by_cases before : column < row.indent.length
  · rw [if_pos before]
    constructor
    · intro found
      rcases margin glyph (List.mem_of_getElem? found) with rfl | rfl
      · simp at drawn
      · exact .inl ⟨rfl, found⟩
    · rintro (⟨rfl, bar⟩ | ⟨_, here⟩)
      · exact bar
      · omega
  · have outside : ¬ Bar row.indent column := fun bar => before (bar_within bar)
    rw [if_neg before]
    cases offset : column - row.indent.length with
    | zero =>
      obtain rfl : column = row.indent.length := by omega
      simp only [List.getElem?_cons_zero, Option.some.injEq, outside, and_false, false_or, and_true]
      exact eq_comm
    | succ index =>
      have later : column ≠ row.indent.length := by omega
      have plain := text_plain row drawn
      simp only [List.getElem?_cons_succ, outside, later, and_false, or_self, iff_false]
      exact fun found => plain (List.mem_of_getElem? found)

theorem leadsDown_iff (margin : Margin row.indent) (column : Nat) :
    LeadsDown (line row) column ↔ Bar (row.indent ++ Row.below row.isLast) column := by
  rw [LeadsDown, glyph_iff (by simp) margin, glyph_iff (by simp) margin, bar_below]
  cases row.isLast <;> simp [or_comm]

theorem comesDown_iff (margin : Margin row.indent) (column : Nat) :
    ComesDown (line row) column ↔ Bar row.indent column ∨ column = row.indent.length := by
  rw [ComesDown, glyph_iff (by simp) margin, glyph_iff (by simp) margin,
    glyph_iff (by simp) margin]
  cases row.isLast <;> simp

/-- The places of an expression that stands somewhere in a tree. -/
def placesFrom (place : List Nat) (expr : Expr) : List (List Nat) :=
  (exprVisits expr).map fun visit => place ++ visit.1

theorem placesFrom_number (place : List Nat) (token : Token) :
    placesFrom place (.number token) = [place, place ++ [0]] := by
  simp [placesFrom, exprVisits]

theorem placesFrom_binary (place : List Nat) (left right : Expr) (operator : Token) :
    placesFrom place (.binary left operator right) = place ::
      (placesFrom (place ++ [0]) left ++
        (place ++ [1]) :: placesFrom (place ++ [2]) right) := by
  simp [placesFrom, exprVisits, below, Function.comp_def]

theorem placesFrom_first (place : List Nat) (expr : Expr) :
    (placesFrom place expr).head? = some place := by
  cases expr <;> simp [placesFrom_number, placesFrom_binary]

/-- Below a last child nothing more leads down than from above, and below any other its own
bar. -/
theorem bar_inner (node : Node) (found : nodeAt? root place = some node) (step column : Nat) :
    Bar (inner root (place ++ [step])) column ↔ Bar (inner root place) column ∨
      (node.children.length ≠ step + 1 ∧ column = (inner root place).length) := by
  rw [inner, margin_concat, ← inner, isLast_concat found, bar_below]
  simp

/-- The walk through an expression goes from each place to one that follows it. At its end
no more leads down than what led down from the expression as a whole. -/
theorem placesFrom_follows (found : nodeAt? root place = some (.expr expr)) :
    (placesFrom place expr).IsChain (Follows root) ∧
      ∀ last ∈ (placesFrom place expr).getLast?, ∀ column,
        Bar (inner root last) column ↔ Bar (inner root place) column := by
  induction expr generalizing place with
  | number token =>
    have single : (Node.expr (.number token)).children.length = 1 := rfl
    rw [placesFrom_number]
    refine ⟨List.isChain_pair.mpr (.inl ⟨0, rfl⟩), fun last ends column => ?_⟩
    obtain rfl : place ++ [0] = last := by simpa using ends
    simp [bar_inner _ found, single]
  | binary left operator right leftChain rightChain =>
    have three : (Node.expr (.binary left operator right)).children.length = 3 := rfl
    have child : ∀ step, nodeAt? root (place ++ [step]) =
        [Node.expr left, .token operator, .expr right][step]? := by
      intro step
      rw [nodeAt?_concat, found]
      rfl
    obtain ⟨leftChained, leftEnds⟩ := leftChain (child 0)
    obtain ⟨rightChained, rightEnds⟩ := rightChain (child 2)
    -- The next of the three children takes up what led down to the one before it and the bar
    -- of that child, which has a sibling left.
    have next : ∀ step column, step < 2 → (Bar (inner root (place ++ [step])) column ↔
        Bar (margin root (place ++ [step + 1])) column ∨
          column = (margin root (place ++ [step + 1])).length) := by
      intro step column early
      have more : 3 ≠ step + 1 := by omega
      rw [bar_inner _ found, three, margin_concat]
      simp [more, inner]
    rw [placesFrom_binary]
    refine ⟨List.isChain_cons.mpr ⟨?_, List.isChain_append.mpr ⟨leftChained,
      List.isChain_cons.mpr ⟨?_, rightChained⟩, ?_⟩⟩, ?_⟩
    · intro second first
      rw [List.head?_append, placesFrom_first] at first
      obtain rfl : place ++ [0] = second := by simpa using first
      exact .inl ⟨0, rfl⟩
    · intro second first
      rw [placesFrom_first] at first
      obtain rfl : place ++ [2] = second := by simpa using first
      exact .inr fun column => next 1 column (by decide)
    · intro last ends second first
      obtain rfl : place ++ [1] = second := by simpa using first
      exact .inr fun column => (leftEnds last ends column).trans (next 0 column (by decide))
    · intro last ends column
      have present : placesFrom (place ++ [2]) right ≠ [] := by
        intro empty
        have first := placesFrom_first (place ++ [2]) right
        rw [empty] at first
        cases first
      rw [List.append_cons, ← List.cons_append, List.getLast?_append_of_ne_nil _ present] at ends
      rw [rightEnds last ends, bar_inner _ found, three]
      simp

theorem margin_blank (root : Node) (place : List Nat) : Margin (margin root place) := by
  induction place using List.reverseRecOn with
  | nil => simp [Margin, margin]
  | append_singleton place index ih =>
    rw [margin_concat]
    exact margin_below ih (isLast root place)

theorem rowAt_margin (root : Node) (visit : List Nat × Node) : Margin (rowAt root visit).indent :=
  margin_blank root visit.1

/-- What leads down from the line of a node. -/
theorem leads_inner (root : Node) (visit : List Nat × Node) (column : Nat) :
    LeadsDown (lineAt root visit) column ↔ Bar (inner root visit.1) column := by
  rw [← line_rowAt]
  exact leadsDown_iff (rowAt_margin root visit) column

/-- What comes down to the line of a node. -/
theorem comes_margin (root : Node) (visit : List Nat × Node) (column : Nat) :
    ComesDown (lineAt root visit) column ↔
      Bar (margin root visit.1) column ∨ column = (margin root visit.1).length := by
  rw [← line_rowAt]
  exact comesDown_iff (rowAt_margin root visit) column

theorem bar_root (root : Node) (column : Nat) : ¬ Bar (inner root []) column := by
  have blank : inner root [] = "" ++ Row.below true := rfl
  rw [blank, bar_below]
  simp [Bar]

/-- A walk through a tree goes from each place to one that follows it, and nothing leads
down from its end. -/
theorem visits_follow (root : Node) :
    (visits root).IsChain (fun upper lower => Follows root upper.1 lower.1) ∧
      ∀ last ∈ (visits root).getLast?, ∀ column, ¬ Bar (inner root last.1) column := by
  cases root with
  | token token =>
    refine ⟨List.isChain_singleton _, fun last ends column => ?_⟩
    obtain rfl : ([], Node.token token) = last := by simpa [visits] using ends
    exact bar_root _ column
  | expr expr =>
    have whole : nodeAt? (.expr expr) [] = some (.expr expr) := nodeAt?_nil.mpr rfl
    obtain ⟨chained, ends⟩ := placesFrom_follows whole
    have places : placesFrom [] expr = (visits (.expr expr)).map Prod.fst := by
      simp [placesFrom, visits]
    rw [places, List.isChain_map] at chained
    refine ⟨chained, fun last found column => ?_⟩
    have same := ends last.1 (by rw [places, List.getLast?_map, found]; rfl) column
    exact fun bar => bar_root _ column (same.mp bar)

/-- Nothing leads down from the branch of a last child. -/
theorem closes_inner {visit : List Nat × Node} {column : Nat}
    (closes : (lineAt root visit)[column]? = some '└') :
    column = (margin root visit.1).length ∧ ¬ Bar (inner root visit.1) column := by
  rw [← line_rowAt, glyph_iff (by simp) (rowAt_margin root visit)] at closes
  rcases closes with ⟨other, _⟩ | ⟨branch, here⟩
  · exact absurd other (by decide)
  · refine ⟨here, ?_⟩
    have last : isLast root visit.1 = true := by
      cases found : isLast root visit.1 <;> simp_all [rowAt]
    rw [inner, last, bar_below]
    rintro (bar | ⟨more, _⟩)
    · exact absurd (bar_within bar) (by rw [here]; exact Nat.lt_irrefl _)
    · cases more

theorem visits_next {index : Nat} {upper lower : List Nat × Node}
    (found : (visits root)[index]? = some upper) (next : (visits root)[index + 1]? = some lower) :
    Follows root upper.1 lower.1 := by
  obtain ⟨_, rfl⟩ := List.getElem?_eq_some_iff.mp found
  obtain ⟨within, rfl⟩ := List.getElem?_eq_some_iff.mp next
  exact List.isChain_iff_getElem.mp (visits_follow root).1 index within

theorem visits_end {index : Nat} {upper : List Nat × Node}
    (found : (visits root)[index]? = some upper) (none : (visits root)[index + 1]? = none)
    (column : Nat) : ¬ Bar (inner root upper.1) column := by
  have within := (List.getElem?_eq_some_iff.mp found).1
  have beyond := List.getElem?_eq_none_iff.mp none
  have place : (visits root).length - 1 = index := by omega
  apply (visits_follow root).2 upper
  rw [List.getLast?_eq_getElem?, place]
  exact found

/-- The branches of a drawing are connected: no bar ends in the air, none begins there and
none goes on below the branch of a last child. -/
theorem branches_connected (root : Node) : ∃ seen, Walk root seen ∧
    Drawn root (seen.map (lineAt root)) ∧ Connected root seen := by
  refine ⟨visits root, visits_walk root, drawn_visits root, ?_, ?_, ?_⟩
  · intro index upper column found leads
    rw [leads_inner] at leads
    cases next : (visits root)[index + 1]? with
    | none => exact absurd leads (visits_end found next column)
    | some lower =>
      refine ⟨lower, rfl, (comes_margin root lower column).mpr ?_⟩
      rcases visits_next found next with ⟨step, child⟩ | takes
      · rw [child, margin_concat]
        exact .inl leads
      · exact (takes column).mp leads
  · intro index upper lower column found next comes
    rw [comes_margin] at comes
    rw [leads_inner]
    rcases visits_next found next with ⟨step, child⟩ | takes
    · refine comes.imp (fun bar => ?_) fun here => ⟨⟨step, child⟩, ?_⟩
      · rwa [child, margin_concat] at bar
      · rwa [margin_length] at here
    · exact .inl ((takes column).mpr comes)
  · intro index upper lower column found next closes comes
    obtain ⟨here, nothing⟩ := closes_inner closes
    rw [comes_margin] at comes
    rcases visits_next found next with ⟨step, child⟩ | takes
    · rcases comes with bar | own
      · rw [child, margin_concat] at bar
        exact nothing bar
      · rw [here, child, margin_length, margin_length, List.length_append,
          List.length_singleton] at own
        omega
    · exact nothing ((takes column).mpr comes)

end Summand.Branches
