import Mathlib.Data.List.Chain
import Summand.Expr.BufferRequest

/-! Reading a sum takes the longest run of tokens that can be mended into one:
numbers and additive operators without two numbers in a row. The tree leans to
the left, and its leaves are that run with a placeholder wherever an operand is
due and no number follows. Which tokens are taken is defined apart from reading
and does not depend on how the buffer came to its cursor. -/
namespace Summand.SumReading
open TokenBuffer

/-- Tokens that can be mended into a sum. -/
def Mendable (tokens : List Token) : Prop :=
  (∀ token ∈ tokens, token.kind = .number ∨ token.kind = .plus ∨ token.kind = .minus) ∧
    tokens.IsChain fun first second => ¬ (first.kind = .number ∧ second.kind = .number)

/-- The longest of all prefixes that can be mended. -/
def LongestMendable (tokens taken : List Token) : Prop :=
  taken <+: tokens ∧ Mendable taken ∧
    ∀ other, other <+: tokens → Mendable other → other.length ≤ taken.length

/-- The mending at one place of a sum: a number without text and value, which has the
place for its position, if an operand is due there and the next token is no number. -/
def gap (index : Nat) (due : Bool) (next : Option Token) : List Token :=
  if due && !next.any (·.kind = .number) then
    [{ kind := .number, position := index, text := none, value := none }]
  else []

/-- The tokens of a sum with every gap mended. An operand is due after each
operator; whether one is due in front is given. -/
def mended (index : Nat) (due : Bool) : List Token → List Token
  | [] => gap index due none
  | token :: rest =>
    gap index due (some token) ++ token :: mended (index + 1) token.kind.isAdditive rest

/-- Every right operand is a number; everything else is on the left. -/
def LeansLeft : Expr → Prop
  | .number _ => True
  | .binary left _ right => LeansLeft left ∧ ∃ token, right = .number token

/-- The front of some tokens that reading takes, by whether an operand is due. -/
def sumRun (due : Bool) : List Token → List Token
  | [] => []
  | token :: rest =>
    if token.kind.isAdditive then token :: sumRun true rest
    else if due && token.kind = .number then token :: sumRun false rest
    else []

/-- Mendable tokens that may stand where an operand is due or not. -/
def MendableAt (due : Bool) (tokens : List Token) : Prop :=
  Mendable tokens ∧ (due = false → ∀ token ∈ tokens.head?, token.kind ≠ .number)

theorem additive_iff {kind : Kind} : kind.isAdditive = true ↔ kind = .plus ∨ kind = .minus := by
  simp [Kind.isAdditive]

theorem additive_not_number {kind : Kind} (additive : kind.isAdditive = true) : kind ≠ .number := by
  rcases additive_iff.mp additive with rfl | rfl <;> decide

theorem sumRun_front (due : Bool) (tokens : List Token) : sumRun due tokens <+: tokens := by
  induction tokens generalizing due with
  | nil => exact List.prefix_refl _
  | cons token rest ih =>
    simp only [sumRun]
    split
    · exact List.cons_prefix_cons.mpr ⟨rfl, ih true⟩
    · split
      · exact List.cons_prefix_cons.mpr ⟨rfl, ih false⟩
      · exact List.nil_prefix

theorem mendableAt_nil (due : Bool) : MendableAt due [] := by
  simp [MendableAt, Mendable]

/-- A first token of a mendable front is an operator, or a number that was due.
What follows it is mendable with an operand due exactly behind an operator. -/
theorem mendableAt_cons {due : Bool} {token : Token} {rest : List Token} :
    MendableAt due (token :: rest) ↔
      (token.kind.isAdditive = true ∧ MendableAt true rest) ∨
        (due = true ∧ token.kind = .number ∧ MendableAt false rest) := by
  constructor
  · rintro ⟨⟨members, chain⟩, front⟩
    have later : Mendable rest :=
      ⟨fun other member => members other (by simp [member]), chain.tail⟩
    rcases members token (by simp) with number | operator
    · have wanted : due = true := by
        by_contra refused
        exact front (by simpa using refused) token rfl number
      exact Or.inr ⟨wanted, number, later,
        fun _ next first second => chain.rel_head? first ⟨number, second⟩⟩
    · exact Or.inl ⟨additive_iff.mpr operator, later, by simp⟩
  · rintro (⟨additive, ⟨members, chain⟩, _⟩ | ⟨wanted, number, ⟨members, chain⟩, front⟩)
    · refine ⟨⟨?_, List.isChain_cons.mpr ⟨?_, chain⟩⟩, ?_⟩
      · intro other member
        rcases List.mem_cons.mp member with rfl | member
        · exact Or.inr (additive_iff.mp additive)
        · exact members other member
      · exact fun _ _ both => additive_not_number additive both.1
      · intro _ other first
        cases first
        exact additive_not_number additive
    · refine ⟨⟨?_, List.isChain_cons.mpr ⟨?_, chain⟩⟩, fun refused => by simp [wanted] at refused⟩
      · intro other member
        rcases List.mem_cons.mp member with rfl | member
        · exact Or.inl number
        · exact members other member
      · exact fun next first both => front rfl next first both.2

theorem sumRun_mendable (due : Bool) (tokens : List Token) : MendableAt due (sumRun due tokens) := by
  induction tokens generalizing due with
  | nil => exact mendableAt_nil due
  | cons token rest ih =>
    simp only [sumRun]
    split
    · rename_i additive
      exact mendableAt_cons.mpr (Or.inl ⟨additive, ih true⟩)
    · split
      · rename_i wanted
        simp only [Bool.and_eq_true, decide_eq_true_eq] at wanted
        exact mendableAt_cons.mpr (Or.inr ⟨wanted.1, wanted.2, ih false⟩)
      · exact mendableAt_nil due

theorem sumRun_longest {due : Bool} {tokens other : List Token} (front : other <+: tokens)
    (mendable : MendableAt due other) : other <+: sumRun due tokens := by
  induction other generalizing due tokens with
  | nil => exact List.nil_prefix
  | cons first others ih =>
    cases tokens with
    | nil => simp at front
    | cons token rest =>
      obtain ⟨rfl, behind⟩ := List.cons_prefix_cons.mp front
      rcases mendableAt_cons.mp mendable with ⟨additive, later⟩ | ⟨wanted, number, later⟩
      · simpa [sumRun, additive] using ih behind later
      · simpa [sumRun, Kind.isAdditive, wanted, number] using ih behind later

/-- What reading takes is the longest mendable prefix. -/
theorem sumRun_longestMendable (tokens : List Token) : LongestMendable tokens (sumRun true tokens) :=
  ⟨sumRun_front true tokens, (sumRun_mendable true tokens).1,
    fun _ front mendable => (sumRun_longest front ⟨mendable, by simp⟩).length_le⟩

/-- The tokens from the cursor on. -/
def ahead (buffer : TokenBuffer) : List Token := buffer.tokens.drop buffer.cursor

theorem ahead_inside {buffer : TokenBuffer} (inside : buffer.cursor ≤ buffer.body.size) :
    ahead buffer = buffer.current :: ahead buffer.advance := by
  have bound : buffer.cursor < buffer.tokens.length := by
    simpa [tokens] using Nat.lt_succ_of_le inside
  have found : buffer.tokens[buffer.cursor] = buffer.current := by
    rcases Nat.lt_or_eq_of_le inside with inside | last
    · simp [tokens, current, tokenAt, inside]
    · simp [tokens, current, tokenAt, last]
  rw [ahead, List.drop_eq_getElem_cons bound, found]
  rfl

theorem ahead_outside {buffer : TokenBuffer} (outside : buffer.body.size < buffer.cursor) :
    ahead buffer = [] := by
  simpa [ahead, tokens] using Nat.succ_le_of_lt outside

theorem current_outside {buffer : TokenBuffer} (outside : buffer.body.size ≤ buffer.cursor) :
    buffer.current = .endOfFile buffer.sourceLength := by
  simp [current, tokenAt, outside]

/-- A current token that is not the end of file is one of the tokens ahead. -/
theorem ahead_of_kind {buffer : TokenBuffer} (kind : buffer.current.kind ≠ .endOfFile) :
    ahead buffer = buffer.current :: ahead buffer.advance := by
  apply ahead_inside
  by_contra outside
  exact kind (by rw [current_outside (by omega)]; rfl)

/-- The buffer after some more tokens have been taken. -/
def moved (buffer : TokenBuffer) (count : Nat) : TokenBuffer :=
  { buffer with cursor := buffer.cursor + count }

theorem moved_moved (buffer : TokenBuffer) (first second : Nat) :
    moved (moved buffer first) second = moved buffer (first + second) := by
  simp [moved, Nat.add_assoc]

theorem sumRun_additive {due : Bool} {buffer : TokenBuffer}
    (additive : buffer.current.kind.isAdditive = true) :
    sumRun due (ahead buffer) = buffer.current :: sumRun true (ahead buffer.advance) := by
  have kind : buffer.current.kind ≠ .endOfFile := by
    rcases additive_iff.mp additive with kind | kind <;> simp [kind]
  rw [ahead_of_kind kind, sumRun, if_pos additive]

theorem sumRun_number {buffer : TokenBuffer} (number : buffer.current.kind = .number) :
    sumRun true (ahead buffer) = buffer.current :: sumRun false (ahead buffer.advance) := by
  rw [ahead_of_kind (by simp [number])]
  simp [sumRun, Kind.isAdditive, number]

/-- Without a number under the cursor it makes no difference whether an operand
is due. -/
theorem sumRun_not_number {buffer : TokenBuffer} (other : buffer.current.kind ≠ .number) :
    sumRun true (ahead buffer) = sumRun false (ahead buffer) := by
  rcases Nat.lt_or_ge buffer.body.size buffer.cursor with outside | inside
  · rw [ahead_outside outside]
    rfl
  · rw [ahead_inside inside]
    simp [sumRun, other]

theorem sumRun_stops {buffer : TokenBuffer} (ends : ¬ buffer.current.kind.isAdditive = true) :
    sumRun false (ahead buffer) = [] := by
  rcases Nat.lt_or_ge buffer.body.size buffer.cursor with outside | inside
  · rw [ahead_outside outside]
    rfl
  · rw [ahead_inside inside]
    simp [sumRun, ends]

theorem mended_due {index : Nat} {tokens : List Token}
    (front : ∀ token ∈ tokens.head?, token.kind ≠ .number) :
    mended index true tokens = .placeholder .number index :: mended index false tokens := by
  cases tokens with
  | nil => rfl
  | cons token rest => simp [mended, gap, front token rfl, Token.placeholder]

theorem mended_number {index : Nat} {due : Bool} {token : Token} {rest : List Token}
    (number : token.kind = .number) :
    mended index due (token :: rest) = token :: mended (index + 1) false rest := by
  simp [mended, gap, number, Kind.isAdditive]

theorem mended_not_due (index : Nat) (token : Token) (rest : List Token) :
    mended index false (token :: rest) = token :: mended (index + 1) token.kind.isAdditive rest := by
  simp [mended, gap]

theorem expect_hit {buffer : TokenBuffer} {kind : Kind} (same : buffer.current.kind = kind) :
    (buffer.expect kind).value = (buffer.current, buffer.advance) := by
  simp [expect, same, pure]

theorem expect_miss {buffer : TokenBuffer} {kind : Kind} (other : buffer.current.kind ≠ kind) :
    (buffer.expect kind).value = (.placeholder kind buffer.cursor, buffer) := by
  simp [expect, other, bind, pure]

/-- A mended sum consists of its tokens and of placeholders for numbers. -/
theorem mem_mended {due : Bool} {index : Nat} {tokens : List Token} {leaf : Token}
    (member : leaf ∈ mended index due tokens) :
    leaf ∈ tokens ∨ ∃ place, leaf = .placeholder .number place := by
  have mending : ∀ {index due next}, leaf ∈ gap index due next → leaf = .placeholder .number index := by
    intro index due next member
    unfold gap at member
    split at member
    · exact List.mem_singleton.mp member
    · cases member
  induction tokens generalizing index due with
  | nil => exact .inr ⟨index, mending member⟩
  | cons token rest ih =>
    rcases List.mem_append.mp member with member | member
    · exact .inr ⟨index, mending member⟩
    · rcases List.mem_cons.mp member with rfl | member
      · exact .inl (List.mem_cons_self ..)
      · exact (ih member).imp_left (List.mem_cons_of_mem _)

/-- Without its placeholders a mended sum is what it was. -/
theorem mended_present {due : Bool} {index : Nat} {tokens : List Token}
    (present : ∀ token ∈ tokens, token.isMissing = false) :
    (mended index due tokens).filter (!·.isMissing) = tokens := by
  have mending : ∀ index due next, (gap index due next).filter (!·.isMissing) = [] := by
    intro index due next
    unfold gap
    split <;> rfl
  induction tokens generalizing index due with
  | nil => exact mending index due none
  | cons token rest ih =>
    rw [mended, List.filter_append, mending, List.nil_append,
      List.filter_cons_of_pos (by simp [present token (List.mem_cons_self ..)]),
      ih fun other member => present other (List.mem_cons_of_mem _ member)]

/-- Reading an operand takes the number that begins the run, or mends the gap
that begins it, and leaves the run that no operand is due in. -/
theorem operand_exact (buffer : TokenBuffer) : ∃ token taken,
    buffer.operand.value = (.number token, moved buffer taken) ∧
      (sumRun true (ahead buffer)).length =
        taken + (sumRun false (ahead (moved buffer taken))).length ∧
      mended buffer.cursor true (sumRun true (ahead buffer)) = token ::
        mended (moved buffer taken).cursor false (sumRun false (ahead (moved buffer taken))) := by
  by_cases number : buffer.current.kind = .number
  · refine ⟨buffer.current, 1, ?_, ?_, ?_⟩
    · simp only [operand, bind, pure, expect_hit number]
      rfl
    · rw [sumRun_number number, List.length_cons, Nat.add_comm]
      rfl
    · rw [sumRun_number number, mended_number number]
      rfl
  · refine ⟨.placeholder .number buffer.cursor, 0, ?_, ?_, ?_⟩
    · simp only [operand, bind, pure, expect_miss number]
      rfl
    · rw [sumRun_not_number number, Nat.zero_add]
      rfl
    · rw [sumRun_not_number number]
      exact mended_due ((sumRun_mendable false _).2 rfl)

/-- Extending a sum takes the run that no operand is due in, appends it with
its gaps mended to the leaves, and keeps a tree that leans to the left. -/
theorem extendSum_exact (left : Expr) (buffer : TokenBuffer) :
    (extendSum left buffer).value.2 =
        moved buffer (sumRun false (ahead buffer)).length ∧
      (extendSum left buffer).value.1.leaves =
        left.leaves ++ mended buffer.cursor false (sumRun false (ahead buffer)) ∧
      (LeansLeft left → LeansLeft (extendSum left buffer).value.1) := by
  induction left, buffer using extendSum.induct with
  | case1 left buffer additive right ih =>
    obtain ⟨token, taken, read, length, leaves⟩ := operand_exact buffer.advance
    have rightRead : right.value = (.number token, moved buffer.advance taken) := read
    rw [extendSum, dif_pos additive]
    simp only [show buffer.advance.operand = right from rfl]
    obtain ⟨final, laterLeaves, leans⟩ := ih
    simp only [rightRead] at final laterLeaves leans ⊢
    refine ⟨?_, ?_, ?_⟩
    · have begun : moved buffer.advance taken = moved buffer (1 + taken) := moved_moved buffer 1 taken
      rw [final, sumRun_additive additive, List.length_cons, length, begun, moved_moved]
      congr 1
      omega
    · rw [laterLeaves, sumRun_additive additive, mended_not_due, additive]
      simp only [Expr.leaves, List.append_assoc, List.cons_append, List.nil_append]
      rw [← leaves]
      rfl
    · exact fun leansLeft => leans ⟨leansLeft, token, rfl⟩
  | case2 left buffer ends =>
    rw [extendSum, dif_neg ends, sumRun_stops ends]
    simp [pure, moved, mended, gap]

/-- Reading a sum takes the longest mendable prefix of the tokens ahead. -/
theorem parse_exact (buffer : TokenBuffer) :
    buffer.parse.value.2 = moved buffer (sumRun true (ahead buffer)).length ∧
      buffer.parse.value.1.leaves = mended buffer.cursor true (sumRun true (ahead buffer)) ∧
      LeansLeft buffer.parse.value.1 := by
  obtain ⟨token, taken, read, length, leaves⟩ := operand_exact buffer
  have whole : buffer.parse.value = (extendSum (.number token) (moved buffer taken)).value := by
    simp only [parse, bind, read]
  obtain ⟨final, laterLeaves, leans⟩ := extendSum_exact (.number token) (moved buffer taken)
  rw [whole]
  refine ⟨?_, ?_, leans trivial⟩
  · rw [final, moved_moved, length]
  · rw [laterLeaves, leaves]
    rfl

/-- Reading stops in front of something that is no additive operator. -/
theorem extendSum_ends (left : Expr) (buffer : TokenBuffer) :
    (extendSum left buffer).value.2.current.kind.isAdditive = false := by
  induction left, buffer using extendSum.induct with
  | case1 left buffer additive right ih =>
    rw [extendSum, dif_pos additive]
    exact ih
  | case2 left buffer ends =>
    rw [extendSum, dif_neg ends]
    simpa [pure] using ends

theorem parse_ends (buffer : TokenBuffer) :
    buffer.parse.value.2.current.kind.isAdditive = false :=
  extendSum_ends _ _

/-- The end of file is out of reach: a run that begins before or at it ends
before or at it. -/
theorem run_ends_before_file {buffer : TokenBuffer} (inside : buffer.cursor ≤ buffer.body.size) :
    buffer.cursor + (sumRun true (ahead buffer)).length ≤ buffer.body.size := by
  have front := sumRun_front true (ahead buffer)
  by_contra beyond
  have length : (ahead buffer).length = buffer.body.size + 1 - buffer.cursor := by
    simp [ahead, tokens]
  have whole : sumRun true (ahead buffer) = ahead buffer := front.eq_of_length_le (by omega)
  have last : Token.endOfFile buffer.sourceLength ∈ ahead buffer := by
    rw [ahead, tokens, List.drop_append_of_le_length (by simpa using inside)]
    simp
  rcases (sumRun_mendable true (ahead buffer)).1.1 _ (whole.symm ▸ last) with kind | kind | kind <;>
    cases kind

/-- An expression with a single leaf is a number. -/
theorem number_of_leaf {expr : Expr} {token : Token} (leaves : expr.leaves = [token]) :
    expr = .number token := by
  cases expr with
  | number found =>
    cases leaves
    rfl
  | binary left operator right =>
    have nonempty : ∀ expr : Expr, expr.leaves ≠ [] := fun expr => by cases expr <;> simp [Expr.leaves]
    have size := congrArg List.length leaves
    have first := List.length_pos_iff.mpr (nonempty left)
    simp only [Expr.leaves, List.length_append, List.length_cons, List.length_nil] at size
    omega

/-- A tree that leans to the left is determined by its leaves. -/
theorem leansLeft_unique {first second : Expr} (leans : LeansLeft first)
    (leansToo : LeansLeft second) (leaves : first.leaves = second.leaves) : first = second := by
  induction first generalizing second with
  | number token => exact (number_of_leaf leaves.symm).symm
  | binary left operator right ih _ =>
    obtain ⟨leansIn, last, rfl⟩ := leans
    cases second with
    | number other => cases number_of_leaf leaves
    | binary leftToo operatorToo rightToo =>
      obtain ⟨leansInToo, lastToo, rfl⟩ := leansToo
      obtain ⟨same, ends⟩ := List.append_inj' leaves rfl
      cases ends
      rw [ih leansIn leansInToo same]

/-- Whatever happened to the buffer of a source before, reading a sum takes the
longest mendable prefix of the tokens ahead and nothing else, leaves the buffer
as it is, and gives the tree that leans to the left over that prefix with its
gaps mended. The end of file is never taken; behind it there is nothing but a
gap. -/
theorem parse_takes_longest_sum (source : String) (history : List Request) :
    let buffer := ((TokenBuffer.ofSource source).value.answerAll history).value.2
    ∃ taken, LongestMendable (buffer.tokens.drop buffer.cursor) taken ∧
      buffer.parse.value.2 = { buffer with cursor := buffer.cursor + taken.length } ∧
      LeansLeft buffer.parse.value.1 ∧
      buffer.parse.value.1.leaves = mended buffer.cursor true taken ∧
      (buffer.cursor ≤ buffer.body.size → buffer.cursor + taken.length ≤ buffer.body.size) ∧
      (buffer.body.size < buffer.cursor → buffer.parse.value =
        (.number { kind := .number, position := buffer.cursor, text := none, value := none },
          buffer)) := by
  intro buffer
  obtain ⟨final, leaves, leans⟩ := parse_exact buffer
  refine ⟨sumRun true (ahead buffer), sumRun_longestMendable _, final, leans, leaves,
    run_ends_before_file, fun outside => ?_⟩
  rw [ahead_outside outside] at final leaves
  exact Prod.ext (number_of_leaf leaves) final

end Summand.SumReading
