import Summand.Proofs.Significance
import Summand.Proofs.SumReading

/-! A grammar of characters: a sentence is numbers joined by plus and minus signs,
with any trivia in front of each number and each sign and at the end. The tokens
kept of a sentence take turns as the sentence does, a source whose kept tokens take
turns so is a sentence, and it is one in one way only. -/
namespace Summand.Grammar
open Scanning Segmentation Significance SumReading

/-- A number in a sentence, with the trivia in front of it. -/
structure Operand where
  gap : List Char
  digits : List Char
  idle : ∀ c ∈ gap, Trivia c
  numeric : ∀ c ∈ digits, isNumeric c = true
  nonempty : digits ≠ []

/-- A sign in a sentence, with the trivia in front of it and the number behind it. -/
structure Addend where
  gap : List Char
  sign : Char
  operand : Operand
  idle : ∀ c ∈ gap, Trivia c
  additive : sign = '+' ∨ sign = '-'

/-- A number, any number of addends, and trivia. -/
structure Sentence where
  first : Operand
  addends : List Addend
  trailer : List Char
  idle : ∀ c ∈ trailer, Trivia c

def Operand.characters (operand : Operand) : List Char := operand.gap ++ operand.digits

def Addend.characters (addend : Addend) : List Char :=
  addend.gap ++ addend.sign :: addend.operand.characters

/-- The source that a sentence is. -/
def Sentence.characters (sentence : Sentence) : List Char :=
  sentence.first.characters ++ (sentence.addends.flatMap Addend.characters ++ sentence.trailer)

/-- The token of an operand that begins at some position. -/
def Operand.token (position : Nat) (operand : Operand) : Token :=
  { kind := .number
    position := position + operand.gap.length
    text := some (String.ofList operand.digits)
    value := some ((Numeral.read? operand.digits).getD 0 : Nat) }

/-- The token of the sign of an addend that begins at some position. -/
def Addend.operator (position : Nat) (addend : Addend) : Token :=
  { kind := if addend.sign = '+' then .plus else .minus
    position := position + addend.gap.length
    text := some (String.ofList [addend.sign])
    value := none }

/-- The token of the number of an addend that begins at some position. -/
def Addend.number (position : Nat) (addend : Addend) : Token :=
  addend.operand.token (position + addend.gap.length + 1)

/-- Adds addends, which begin at some position, to an expression from the left. -/
def sumFrom (position : Nat) (left : Expr) : List Addend → Expr
  | [] => left
  | addend :: addends =>
    sumFrom (position + addend.characters.length)
      (.binary left (addend.operator position) (.number (addend.number position))) addends

/-- The tree of a sentence. -/
def Sentence.tree (sentence : Sentence) : Expr :=
  sumFrom sentence.first.characters.length (.number (sentence.first.token 0)) sentence.addends

/-- The tokens of addends that begin at some position. -/
def addendTokens (position : Nat) : List Addend → List Token
  | [] => []
  | addend :: addends =>
    addend.operator position :: addend.number position ::
      addendTokens (position + addend.characters.length) addends

/-- The tokens of a sentence. -/
def Sentence.tokens (sentence : Sentence) : List Token :=
  sentence.first.token 0 :: addendTokens sentence.first.characters.length sentence.addends

/-- Tokens in which no operand is missing: numbers and additive operators take
turns, and a number comes last. Whether a number is due in front is given. -/
def Complete (due : Bool) : List Token → Prop
  | [] => due = false
  | token :: rest =>
    if due then token.kind = .number ∧ Complete false rest
    else token.kind.isAdditive = true ∧ Complete true rest

variable {due : Bool} {position : Nat} {source rest : List Char}

theorem sumFrom_leaves (position : Nat) (left : Expr) (addends : List Addend) :
    (sumFrom position left addends).leaves = left.leaves ++ addendTokens position addends := by
  induction addends generalizing position left with
  | nil => simp [sumFrom, addendTokens]
  | cons addend addends ih =>
    rw [sumFrom, ih]
    simp [Expr.leaves, addendTokens]

theorem sumFrom_leansLeft (position : Nat) {left : Expr} (leans : LeansLeft left)
    (addends : List Addend) : LeansLeft (sumFrom position left addends) := by
  induction addends generalizing position left with
  | nil => exact leans
  | cons addend addends ih => exact ih _ ⟨leans, _, rfl⟩

theorem Sentence.tree_leaves (sentence : Sentence) : sentence.tree.leaves = sentence.tokens :=
  sumFrom_leaves ..

theorem Sentence.tree_leansLeft (sentence : Sentence) : LeansLeft sentence.tree := by
  have single : LeansLeft (.number (sentence.first.token 0)) := trivial
  exact sumFrom_leansLeft _ single _

theorem operator_additive (position : Nat) (addend : Addend) :
    (addend.operator position).kind.isAdditive = true := by
  simp only [Addend.operator]
  split <;> rfl

theorem addendTokens_complete (position : Nat) (addends : List Addend) :
    Complete false (addendTokens position addends) := by
  induction addends generalizing position with
  | nil => rfl
  | cons addend addends ih => exact ⟨operator_additive position addend, rfl, ih _⟩

theorem Sentence.tokens_complete (sentence : Sentence) : Complete true sentence.tokens :=
  ⟨rfl, addendTokens_complete ..⟩

/-! The tokens kept of a sentence are the tokens of the sentence. -/

theorem sign_operator {sign : Char} (additive : sign = '+' ∨ sign = '-') :
    Kind.ofOperator? sign = some (if sign = '+' then .plus else .minus) := by
  rcases additive with rfl | rfl <;> rfl

theorem sign_not_numeric {sign : Char} (additive : sign = '+' ∨ sign = '-') :
    isNumeric sign = false := by
  rcases additive with rfl | rfl <;> exact (operator_plain rfl).1

theorem sign_not_trivia {sign : Char} (additive : sign = '+' ∨ sign = '-') : ¬ Trivia sign := by
  rintro ⟨_, absent⟩
  rcases additive with rfl | rfl <;> simp [operators] at absent

theorem numeric_not_trivia {c : Char} (numeric : isNumeric c = true) : ¬ Trivia c := by
  rintro ⟨other, _⟩
  simp [numeric] at other

theorem numeric_fuses {c : Char} (numeric : isNumeric c = true) : fuses c = isNumeric := by
  funext d
  have blank : isBlank c = false := by
    by_contra blank
    simp [blank_not_numeric (by simpa using blank)] at numeric
  simp [fuses, numeric, blank]

theorem kept_operand (position : Nat) (operand : Operand)
    (boundary : ∀ d ∈ rest.head?, isNumeric d = false) :
    kept position (operand.characters ++ rest) =
      operand.token position :: kept (position + operand.characters.length) rest := by
  obtain ⟨gap, digits, idle, numeric, nonempty⟩ := operand
  obtain ⟨c, run, rfl⟩ := List.exists_cons_of_ne_nil nonempty
  have first := numeric c (by simp)
  have joins : ∀ d ∈ run, fuses c d = true := by
    rw [numeric_fuses first]
    exact fun d member => numeric d (by simp [member])
  rw [Operand.characters, List.append_assoc, kept_gap position idle,
    kept_run _ (numeric_not_trivia first) joins (by rwa [numeric_fuses first]),
    ofChar_number_iff.mpr first, ofRun_eq, List.length_append, Nat.add_assoc]
  rfl

theorem kept_sign (position : Nat) (addend : Addend) (rest : List Char) :
    kept position (addend.gap ++ addend.sign :: rest) =
      addend.operator position :: kept (position + addend.gap.length + 1) rest := by
  rw [kept_gap position addend.idle, kept_operator _ (sign_operator addend.additive),
    Addend.operator]
  congr 1
  unfold Token.ofRun
  split <;> rfl

/-- What follows a number of a sentence does not continue it. -/
theorem behind_not_numeric (addends : List Addend) {trailer : List Char}
    (idle : ∀ c ∈ trailer, Trivia c) :
    ∀ d ∈ (addends.flatMap Addend.characters ++ trailer).head?, isNumeric d = false := by
  intro d first
  cases addends with
  | nil => exact (idle d (List.mem_of_mem_head? first)).1
  | cons addend addends =>
    obtain ⟨gap, sign, operand, trivia, additive⟩ := addend
    cases gap with
    | nil =>
      cases first
      exact sign_not_numeric additive
    | cons c gap =>
      cases first
      exact (trivia d (by simp)).1

theorem kept_addends (position : Nat) (addends : List Addend) {trailer : List Char}
    (idle : ∀ c ∈ trailer, Trivia c) :
    kept position (addends.flatMap Addend.characters ++ trailer) =
      addendTokens position addends := by
  induction addends generalizing position with
  | nil =>
    have blank := kept_gap position idle []
    rwa [List.append_nil, kept_nil] at blank
  | cons addend addends ih =>
    rw [List.flatMap_cons, Addend.characters, List.append_assoc, List.append_assoc, List.cons_append,
      kept_sign, kept_operand _ _ (behind_not_numeric addends idle), ih, addendTokens,
      Addend.number, Addend.characters]
    congr 3
    simp only [List.length_append, List.length_cons]
    omega

theorem kept_sentence (sentence : Sentence) : kept 0 sentence.characters = sentence.tokens := by
  rw [Sentence.characters, kept_operand _ _ (behind_not_numeric _ sentence.idle),
    kept_addends _ _ sentence.idle, Nat.zero_add]
  rfl

/-! A source whose kept tokens are complete is spelled as a sentence. -/

/-- Characters spelled as addends and trivia. -/
def Tail (source : List Char) : Prop :=
  ∃ (addends : List Addend) (trailer : List Char), (∀ c ∈ trailer, Trivia c) ∧
    source = addends.flatMap Addend.characters ++ trailer

theorem numeric_of_joins {c : Char} {run : List Char} (number : Kind.ofChar c = .number)
    (joins : ∀ d ∈ run, fuses c d = true) : ∀ d ∈ c :: run, isNumeric d = true := by
  have first := ofChar_number_iff.mp number
  rw [numeric_fuses first] at joins
  exact List.forall_mem_cons.mpr ⟨first, joins⟩

theorem sign_of_joins {c : Char} {run : List Char} (additive : (Kind.ofChar c).isAdditive = true)
    (joins : ∀ d ∈ run, fuses c d = true) : (c = '+' ∨ c = '-') ∧ run = [] := by
  have fits : Fits (Kind.ofChar c) (c :: run) := fits_iff.mpr ⟨rfl, joins⟩
  rcases additive_iff.mp additive with kind | kind
  · rw [kind] at fits
    cases fits
    exact ⟨.inl rfl, rfl⟩
  · rw [kind] at fits
    cases fits
    exact ⟨.inr rfl, rfl⟩

/-- Whether an operand is due carries through the tokens: a number closes the
operand that was due, and an operator makes the next one due. -/
theorem spelled_of_complete {tokens : List Token} (complete : Complete due tokens)
    (reads : kept position source = tokens) :
    if due then ∃ operand : Operand, ∃ rest, source = operand.characters ++ rest ∧ Tail rest
    else Tail source := by
  induction tokens generalizing due position source with
  | nil =>
    obtain rfl : due = false := complete
    exact ⟨[], source, kept_eq_nil reads, rfl⟩
  | cons token later ih =>
    obtain ⟨gap, c, run, behind, rfl, idle, _, joins, _, rfl, rfl⟩ := kept_eq_cons reads
    cases due with
    | true =>
      obtain ⟨number, complete⟩ := complete
      rw [ofRun_kind] at number
      exact ⟨⟨gap, c :: run, idle, numeric_of_joins number joins, by simp⟩, behind,
        (List.append_assoc ..).symm, ih complete rfl⟩
    | false =>
      obtain ⟨additive, complete⟩ := complete
      rw [ofRun_kind] at additive
      obtain ⟨sign, rfl⟩ := sign_of_joins additive joins
      obtain ⟨operand, rest, rfl, addends, trailer, trivia, rfl⟩ := ih complete rfl
      exact ⟨⟨gap, c, operand, idle, sign⟩ :: addends, trailer, trivia, by simp [Addend.characters]⟩

/-! A source is spelled as a sentence in at most one way. -/

theorem run_unique {α : Type} {p : α → Bool} {run runToo later laterToo : List α}
    (inside : ∀ d ∈ run, p d = true) (insideToo : ∀ d ∈ runToo, p d = true)
    (boundary : ∀ d ∈ later.head?, p d = false) (boundaryToo : ∀ d ∈ laterToo.head?, p d = false)
    (same : run ++ later = runToo ++ laterToo) : run = runToo ∧ later = laterToo := by
  obtain ⟨taken, left⟩ := run_stops inside boundary
  obtain ⟨takenToo, leftToo⟩ := run_stops insideToo boundaryToo
  rw [same] at taken left
  exact ⟨taken.symm.trans takenToo, left.symm.trans leftToo⟩

theorem gap_unique {gap gapToo rest restToo : List Char} {c d : Char}
    (idle : ∀ c ∈ gap, Trivia c) (idleToo : ∀ c ∈ gapToo, Trivia c) (significant : ¬ Trivia c)
    (significantToo : ¬ Trivia d) (same : gap ++ c :: rest = gapToo ++ d :: restToo) :
    gap = gapToo ∧ c :: rest = d :: restToo :=
  run_unique (p := (Trivia ·)) (by simpa using idle) (by simpa using idleToo)
    (by simpa using significant) (by simpa using significantToo) same

theorem operand_unique {operand other : Operand} {rest restToo : List Char}
    (boundary : ∀ d ∈ rest.head?, isNumeric d = false)
    (boundaryToo : ∀ d ∈ restToo.head?, isNumeric d = false)
    (same : operand.characters ++ rest = other.characters ++ restToo) :
    operand = other ∧ rest = restToo := by
  obtain ⟨gap, digits, idle, numeric, nonempty⟩ := operand
  obtain ⟨gapToo, digitsToo, idleToo, numericToo, nonemptyToo⟩ := other
  obtain ⟨c, run, rfl⟩ := List.exists_cons_of_ne_nil nonempty
  obtain ⟨d, runToo, rfl⟩ := List.exists_cons_of_ne_nil nonemptyToo
  simp only [Operand.characters, List.append_assoc, List.cons_append] at same
  obtain ⟨rfl, behind⟩ := gap_unique idle idleToo (numeric_not_trivia (numeric c (by simp)))
    (numeric_not_trivia (numericToo d (by simp))) same
  obtain ⟨digits, later⟩ := run_unique numeric numericToo boundary boundaryToo behind
  cases digits
  exact ⟨rfl, later⟩

theorem addends_not_idle (addend : Addend) (addends : List Addend) (trailer : List Char) :
    ¬ ∀ c ∈ (addend :: addends).flatMap Addend.characters ++ trailer, Trivia c := by
  intro idle
  have sign := idle addend.sign (by simp [Addend.characters])
  exact sign_not_trivia addend.additive sign

theorem addends_unique {addends others : List Addend} {trailer trailerToo : List Char}
    (idle : ∀ c ∈ trailer, Trivia c) (idleToo : ∀ c ∈ trailerToo, Trivia c)
    (same : addends.flatMap Addend.characters ++ trailer =
      others.flatMap Addend.characters ++ trailerToo) :
    addends = others ∧ trailer = trailerToo := by
  induction addends generalizing others with
  | nil =>
    cases others with
    | nil => exact ⟨rfl, same⟩
    | cons other others => exact absurd (same ▸ idle) (addends_not_idle other others trailerToo)
  | cons addend addends ih =>
    cases others with
    | nil => exact absurd (same ▸ idleToo) (addends_not_idle addend addends trailer)
    | cons other others =>
      obtain ⟨gap, sign, operand, trivia, additive⟩ := addend
      obtain ⟨gapToo, signToo, operandToo, triviaToo, additiveToo⟩ := other
      simp only [List.flatMap_cons, Addend.characters, List.append_assoc, List.cons_append] at same
      obtain ⟨rfl, behind⟩ := gap_unique trivia triviaToo (sign_not_trivia additive)
        (sign_not_trivia additiveToo) same
      obtain ⟨rfl, numbers⟩ := List.cons.inj behind
      obtain ⟨rfl, later⟩ := operand_unique (behind_not_numeric addends idle)
        (behind_not_numeric others idleToo) numbers
      obtain ⟨rfl, trailers⟩ := ih later
      exact ⟨rfl, trailers⟩

theorem sentence_unique {sentence other : Sentence}
    (same : sentence.characters = other.characters) : sentence = other := by
  obtain ⟨first, addends, trailer, idle⟩ := sentence
  obtain ⟨firstToo, addendsToo, trailerToo, idleToo⟩ := other
  obtain ⟨rfl, later⟩ := operand_unique (behind_not_numeric addends idle)
    (behind_not_numeric addendsToo idleToo) same
  obtain ⟨rfl, rfl⟩ := addends_unique idle idleToo later
  rfl

/-- A source is spelled as a sentence exactly when its kept tokens are complete. -/
theorem complete_iff_sentence (source : String) : Complete true (kept 0 source.toList) ↔
    ∃ sentence : Sentence, sentence.characters = source.toList := by
  constructor
  · intro complete
    obtain ⟨first, _, spelled, addends, trailer, idle, rfl⟩ := spelled_of_complete complete rfl
    exact ⟨⟨first, addends, trailer, idle⟩, spelled.symm⟩
  · rintro ⟨sentence, spelled⟩
    rw [← spelled, kept_sentence]
    exact sentence.tokens_complete

end Summand.Grammar
