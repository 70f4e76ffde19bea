import Summand.Proofs.SourceReading

/-! Sums read one after another off a buffer use up the front of its tokens that sums
can be made of, and lose nothing of it. As long as some of the front is left, each sum
takes some of it: a sum ends in front of a number or behind the front, and the next one
begins with that number. Behind the front there is nothing but a missing number, however
often a sum is read. -/
namespace Summand.Exhaustion
open Significance SourceReading SumReading TokenBuffer

/-- A token that sums can be made of. -/
def Summable (token : Token) : Prop :=
  token.kind = .number ∨ token.kind = .plus ∨ token.kind = .minus

instance : DecidablePred Summable := fun token =>
  inferInstanceAs (Decidable (token.kind = .number ∨ token.kind = .plus ∨ token.kind = .minus))

/-- The longest front of some tokens that sums can be made of. -/
def LongestFront (tokens front : List Token) : Prop :=
  front <+: tokens ∧ (∀ token ∈ front, Summable token) ∧
    ∀ other, other <+: tokens → (∀ token ∈ other, Summable token) → other.length ≤ front.length

/-- A buffer behind some sums that are read off it one after another. -/
def behind (buffer : TokenBuffer) : Nat → TokenBuffer
  | 0 => buffer
  | count + 1 => (behind buffer count).parse.value.2

/-- The sum that is read behind some others. -/
def sum (buffer : TokenBuffer) (count : Nat) : Expr := (behind buffer count).parse.value.1

/-- The tokens of a sum that are no placeholders. -/
def present (expr : Expr) : List Token := expr.leaves.filter (!·.isMissing)

/-- All tokens in some sums that are read one after another. -/
def read (buffer : TokenBuffer) (count : Nat) : List Token :=
  (List.range count).flatMap fun turn => present (sum buffer turn)

/-- How a buffer fares when sums are read off it, beside the front of its tokens. -/
structure Uses (buffer : TokenBuffer) (front : List Token) (count : Nat) : Prop where
  /-- The sums are what a history of such requests answers. -/
  history : (buffer.answerAll (List.replicate count .parse)).value =
    ((List.range count).map fun turn =>
      (.tree (sum buffer turn), (behind buffer (turn + 1)).current), behind buffer count)
  /-- The tokens stay. -/
  kept : (behind buffer count).tokens = buffer.tokens
  /-- What was read is the front up to the cursor. -/
  used : read buffer count = front.take (behind buffer count).cursor
  /-- As many sums as there are tokens in the front use it up, and more do no more. -/
  exhausted : front.length ≤ count →
    (behind buffer count).cursor = front.length ∧ read buffer count = front
  /-- Until the front is used up every sum takes some of it. -/
  progress : (behind buffer count).cursor < front.length →
    (behind buffer count).cursor < (behind buffer (count + 1)).cursor
  /-- A sum that takes something begins with a number of the source, unless it is the first. -/
  begins : 0 < count → (behind buffer (count + 1)).cursor ≠ (behind buffer count).cursor →
    (behind buffer count).cursor + 1 ≤ (behind buffer (count + 1)).cursor ∧
      ∃ leaf ∈ (sum buffer count).leaves.head?, leaf.kind = .number ∧ leaf.isMissing = false
  /-- Behind the front a sum is a missing number and takes nothing. -/
  stuck : (behind buffer count).cursor = front.length →
    sum buffer count =
        .number { kind := .number, position := front.length, text := none, value := none } ∧
      behind buffer (count + 1) = behind buffer count

variable {buffer : TokenBuffer} {tokens : List Token}

/-- The front of what is ahead of the cursor. -/
def front (buffer : TokenBuffer) : List Token := (ahead buffer).takeWhile (Summable ·)

theorem summable_iff {token : Token} :
    Summable token ↔ token.kind = .number ∨ token.kind.isAdditive = true := by
  rw [Summable, additive_iff]

theorem takeWhile_longestFront (tokens : List Token) :
    LongestFront tokens (tokens.takeWhile (Summable ·)) := by
  refine ⟨List.takeWhile_prefix _, fun token member => by simpa using List.mem_takeWhile_imp member,
    fun other inside summable => ?_⟩
  obtain ⟨later, rfl⟩ := inside
  rw [List.takeWhile_append_of_pos (by simpa using summable), List.length_append]
  exact Nat.le_add_right ..

/-- What a sum takes consists of tokens that sums can be made of. -/
theorem sumRun_summable (due : Bool) (tokens : List Token) :
    ∀ token ∈ sumRun due tokens, Summable token :=
  (sumRun_mendable due tokens).1.1

/-- A sum takes nothing only if no sum can be made of the first token. -/
theorem sumRun_nil (nothing : sumRun true tokens = []) : tokens.takeWhile (Summable ·) = [] := by
  cases tokens with
  | nil => rfl
  | cons token rest =>
    rw [List.takeWhile_cons, if_neg]
    rw [decide_eq_true_eq, summable_iff]
    rintro (number | additive)
    · simp [sumRun, number, Kind.isAdditive] at nothing
    · simp [sumRun, additive] at nothing

/-- Reading a sum takes the first tokens of the front and leaves the others. -/
theorem front_parse (buffer : TokenBuffer) :
    front buffer = sumRun true (ahead buffer) ++ front buffer.parse.value.2 := by
  obtain ⟨rest, split⟩ := sumRun_front true (ahead buffer)
  have left : ahead buffer.parse.value.2 = rest := by
    have dropped := congrArg (List.drop (sumRun true (ahead buffer)).length) split
    rw [List.drop_left] at dropped
    rw [(parse_exact buffer).1, dropped, ahead, ahead, List.drop_drop]
    rfl
  rw [front, front, left, ← List.takeWhile_append_of_pos (by simpa using sumRun_summable true _),
    split]

theorem parse_tokens (buffer : TokenBuffer) : buffer.parse.value.2.tokens = buffer.tokens := by
  rw [(parse_exact buffer).1]
  rfl

theorem parse_cursor_length (buffer : TokenBuffer) : buffer.parse.value.2.cursor =
    buffer.cursor + (sumRun true (ahead buffer)).length := by
  rw [(parse_exact buffer).1]
  rfl

theorem behind_tokens (buffer : TokenBuffer) (count : Nat) :
    (behind buffer count).tokens = buffer.tokens := by
  induction count with
  | zero => rfl
  | succ count ih => exact (parse_tokens _).trans ih

/-- The tokens in a sum are those that reading it takes, if the buffer has only tokens with a
text. -/
theorem present_parse (spelled : ∀ token ∈ buffer.tokens, token.isMissing = false) :
    present buffer.parse.value.1 = sumRun true (ahead buffer) := by
  rw [present, (parse_exact buffer).2.1]
  apply mended_present
  intro token member
  exact spelled token (List.mem_of_mem_drop ((sumRun_front true _).subset member))

/-- The front of a buffer is what is read off it and what is left of it. -/
theorem front_behind (spelled : ∀ token ∈ buffer.tokens, token.isMissing = false) (count : Nat) :
    front buffer = read buffer count ++ front (behind buffer count) ∧
      (behind buffer count).cursor = buffer.cursor + (read buffer count).length := by
  induction count with
  | zero => exact ⟨rfl, rfl⟩
  | succ count ih =>
    obtain ⟨split, cursor⟩ := ih
    have taken : present (sum buffer count) = sumRun true (ahead (behind buffer count)) :=
      present_parse (by rwa [behind_tokens])
    have more : read buffer (count + 1) =
        read buffer count ++ sumRun true (ahead (behind buffer count)) := by
      rw [read, List.range_succ, List.flatMap_append, List.flatMap_singleton, taken]
      rfl
    constructor
    · rw [more, List.append_assoc, split]
      exact congrArg _ (front_parse _)
    · rw [more, List.length_append, ← Nat.add_assoc, ← cursor]
      exact parse_cursor_length _

/-- Each sum makes what is left of the front shorter until nothing is left. -/
theorem front_shrinks (buffer : TokenBuffer) (count : Nat) :
    (front (behind buffer count)).length ≤ (front buffer).length - count := by
  induction count with
  | zero => exact Nat.le_refl _
  | succ count ih =>
    have split := congrArg List.length (front_parse (behind buffer count))
    rw [List.length_append] at split
    have left : front (behind buffer (count + 1)) = front (behind buffer count).parse.value.2 := rfl
    rw [left]
    rcases Nat.eq_zero_or_pos (sumRun true (ahead (behind buffer count))).length with none | more
    · have empty : front (behind buffer count) = [] := sumRun_nil (List.length_eq_zero_iff.mp none)
      rw [empty, List.length_nil] at split
      omega
    · omega

theorem behind_parse (buffer : TokenBuffer) (count : Nat) :
    behind buffer.parse.value.2 count = behind buffer (count + 1) := by
  induction count with
  | zero => rfl
  | succ count ih => rw [behind, ih]; rfl

/-- Requests for sums are answered by the sums one after another. -/
theorem answerAll_sums (buffer : TokenBuffer) (count : Nat) :
    (buffer.answerAll (List.replicate count .parse)).value =
      ((List.range count).map fun turn =>
        (.tree (sum buffer turn), (behind buffer (turn + 1)).current), behind buffer count) := by
  induction count generalizing buffer with
  | zero => rfl
  | succ count ih =>
    have later := ih buffer.parse.value.2
    have first : (buffer.answerAll (List.replicate (count + 1) .parse)).value =
        ((.tree buffer.parse.value.1, buffer.parse.value.2.current) ::
          (buffer.parse.value.2.answerAll (List.replicate count .parse)).value.1,
        (buffer.parse.value.2.answerAll (List.replicate count .parse)).value.2) := rfl
    rw [first, later, List.range_succ_eq_map, List.map_cons, List.map_map, behind_parse]
    simp only [sum, behind_parse, Function.comp_def]
    rfl

/-- A sum that is not the first and takes something begins with a number: the sum in front of
it did not end at an operator. -/
theorem parse_begins (ends : buffer.current.kind.isAdditive = false)
    (takes : sumRun true (ahead buffer) ≠ []) :
    buffer.current.kind = .number ∧ buffer.current ∈ buffer.parse.value.1.leaves.head? := by
  have number : buffer.current.kind = .number := by
    by_contra other
    exact takes (by rw [sumRun_not_number other, sumRun_stops (by simp [ends])])
  refine ⟨number, ?_⟩
  rw [(parse_exact buffer).2.1, sumRun_number number, mended_number number]
  rfl

/-- Where nothing is left to take, a sum is a missing number. -/
theorem parse_stuck (nothing : sumRun true (ahead buffer) = []) :
    buffer.parse.value = (.number (.placeholder .number buffer.cursor), buffer) := by
  obtain ⟨final, leaves, _⟩ := parse_exact buffer
  rw [nothing] at final leaves
  exact Prod.ext (number_of_leaf leaves) final

theorem spelled_ofSource (source : String) :
    ∀ token ∈ (TokenBuffer.ofSource source).value.tokens, token.isMissing = false := by
  intro token member
  rw [tokens_ofSource] at member
  rcases List.mem_append.mp member with member | last
  · exact (kept_piece member).1
  · rw [List.mem_singleton.mp last]
    rfl

/-- A sum behind some others begins with a number of the buffer if it takes something. -/
theorem sum_begins (spelled : ∀ token ∈ buffer.tokens, token.isMissing = false) (count : Nat)
    (takes : sumRun true (ahead (behind buffer (count + 1))) ≠ []) :
    ∃ leaf ∈ (sum buffer (count + 1)).leaves.head?, leaf.kind = .number ∧ leaf.isMissing = false := by
  obtain ⟨number, first⟩ := parse_begins (parse_ends (behind buffer count)) takes
  have inside : ahead (behind buffer (count + 1)) = (behind buffer (count + 1)).current :: _ :=
    ahead_of_kind (by rw [show (behind buffer (count + 1)).current.kind = _ from number]; decide)
  refine ⟨_, first, number, spelled _ ?_⟩
  rw [← behind_tokens buffer (count + 1)]
  exact List.mem_of_mem_drop (inside ▸ List.mem_cons_self)

/-- A buffer whose cursor stands in front of its tokens. -/
theorem uses (spelled : ∀ token ∈ buffer.tokens, token.isMissing = false)
    (start : buffer.cursor = 0) (count : Nat) : Uses buffer (front buffer) count := by
  obtain ⟨split, cursor⟩ := front_behind spelled count
  rw [start, Nat.zero_add] at cursor
  have step : (behind buffer (count + 1)).cursor = _ := parse_cursor_length (behind buffer count)
  have left := congrArg List.length (front_parse (behind buffer count))
  rw [List.length_append] at left
  have size := congrArg List.length split
  rw [List.length_append, ← cursor] at size
  constructor
  case history => exact answerAll_sums buffer count
  case kept => exact behind_tokens buffer count
  case used => rw [split, cursor, List.take_left]
  case exhausted =>
    intro enough
    have shorter := front_shrinks buffer count
    have empty : front (behind buffer count) = [] := List.length_eq_zero_iff.mp (by omega)
    rw [empty, List.append_nil] at split
    exact ⟨by rw [cursor, split], split.symm⟩
  case progress =>
    intro unfinished
    have taken : 0 < (sumRun true (ahead (behind buffer count))).length := by
      rw [List.length_pos_iff]
      intro nothing
      have empty : front (behind buffer count) = [] := sumRun_nil nothing
      rw [empty, List.length_nil] at size
      omega
    omega
  case begins =>
    intro later moves
    obtain ⟨earlier, rfl⟩ := Nat.exists_eq_succ_of_ne_zero later.ne'
    have takes : sumRun true (ahead (behind buffer (earlier + 1))) ≠ [] := by
      intro nothing
      rw [nothing] at step
      exact moves step
    have taken := List.length_pos_iff.mpr takes
    exact ⟨by omega, sum_begins spelled earlier takes⟩
  case stuck =>
    intro done
    have nothing : sumRun true (ahead (behind buffer count)) = [] :=
      List.length_eq_zero_iff.mp (by omega)
    have whole := parse_stuck nothing
    rw [done] at whole
    exact ⟨congrArg Prod.fst whole, congrArg Prod.snd whole⟩

/-- Sums read one after another off the buffer of a source use up the longest front of its
tokens that sums can be made of, in order and without a gap. At the latest when as many
sums have been read as the front has tokens, it is used up for good. Until then each sum
takes something, and all but the first begin with a number of the source. -/
theorem sums_use_up_front (source : String) :
    ∃ front, LongestFront (TokenBuffer.ofSource source).value.tokens front ∧
      ∀ count, Uses (TokenBuffer.ofSource source).value front count := by
  have start : (TokenBuffer.ofSource source).value.cursor = 0 := by simp [ofSource_value]
  exact ⟨front _, takeWhile_longestFront _, uses (spelled_ofSource source) start⟩

end Summand.Exhaustion
