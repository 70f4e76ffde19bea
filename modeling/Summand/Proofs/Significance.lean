import Summand.Proofs.Segmentation
import Summand.Token.Buffer

/-! The grammar cares about numerals and operators and about no other character.
Which tokens of a source are kept for it can be told character by character: any
other character only moves what follows it one place on, a run of numerals is one
number, and an operator stands for itself. -/
namespace Summand.Significance
open TokenStream Scanning Segmentation

/-- A character that the grammar does not care about. -/
def Trivia (c : Char) : Prop := isNumeric c = false ∧ c ∉ operators

instance : DecidablePred Trivia := fun c => inferInstanceAs (Decidable (_ ∧ c ∉ operators))

theorem trivia_iff {c : Char} : (Kind.ofChar c).isTrivia = true ↔ Trivia c := by
  simp only [Kind.isTrivia, Bool.or_eq_true, decide_eq_true_eq, ofChar_whiteSpace_iff,
    ofChar_bad_iff, Trivia]
  constructor
  · rintro (blank | ⟨numeric, _, absent⟩)
    · refine ⟨blank_not_numeric blank, operator_kind_none_iff.mp ?_⟩
      by_contra operator
      obtain ⟨kind, found⟩ := Option.ne_none_iff_exists'.mp operator
      simp [(operator_plain found).2] at blank
    · exact ⟨numeric, absent⟩
  · rintro ⟨numeric, absent⟩
    cases blank : isBlank c with
    | true => exact .inl rfl
    | false => exact .inr ⟨numeric, rfl, absent⟩

/-- The tokens from some position on that are kept for the grammar. -/
def kept (position : Nat) (source : List Char) : List Token :=
  (TokenStream.mk position source).drain.value.1.filter (!·.kind.isTrivia)

variable {position : Nat} {c d : Char} {gap run others rest source : List Char}
  {token : Token} {tokens : List Token}

theorem kept_nil (position : Nat) : kept position [] = [] := by
  rw [kept, drain_at_end]
  rfl

/-- A token in front is kept unless its first character is trivia. -/
theorem kept_front (position : Nat) (c : Char) (others : List Char) :
    kept position (c :: others) =
      (if Trivia c then [] else [(frontToken position c others).value]) ++
        kept (afterFront position c others).position (afterFront position c others).rest := by
  have kind : (frontToken position c others).value.kind = Kind.ofChar c := ofRun_kind ..
  rw [kept, drain_at_char, List.filter_cons, kind]
  by_cases trivia : Trivia c
  · rw [if_pos trivia, if_neg (by simp [trivia_iff.mpr trivia])]
    rfl
  · have other : (Kind.ofChar c).isTrivia = false := by
      rw [Bool.eq_false_iff]
      exact fun found => trivia (trivia_iff.mp found)
    rw [if_neg trivia, if_pos (by simp [other])]
    rfl

theorem fuses_congr (joined : fuses c d = true) : fuses c = fuses d := by
  obtain ⟨same, _⟩ := fuses_iff.mp joined
  funext e
  rw [Bool.eq_iff_iff, fuses_iff, fuses_iff, same]

/-- Trivia in front only moves what follows it. -/
theorem kept_trivia (position : Nat) (trivia : Trivia c) (others : List Char) :
    kept position (c :: others) = kept (position + 1) others := by
  rw [kept_front, if_pos trivia, List.nil_append]
  cases others with
  | nil => rfl
  | cons d others =>
    cases joined : fuses c d with
    | false => simp [afterFront, frontRun, joined]
    | true =>
      -- Both are white space, and what is left of the run behind the second is
      -- what is left of it behind the first.
      have blank : Trivia d := by
        rw [← trivia_iff, ← (fuses_iff.mp joined).1, trivia_iff]
        exact trivia
      rw [kept_front, if_pos blank, List.nil_append, afterFront, afterFront, ← fuses_congr joined,
        frontRun, frontRun, ← fuses_congr joined, List.takeWhile_cons, List.dropWhile_cons,
        if_pos joined, if_pos joined]
      simp [Nat.add_assoc, Nat.add_comm]

theorem kept_gap (position : Nat) (trivia : ∀ c ∈ gap, Trivia c) (rest : List Char) :
    kept position (gap ++ rest) = kept (position + gap.length) rest := by
  induction gap generalizing position with
  | nil => rfl
  | cons c gap ih =>
    rw [List.cons_append, kept_trivia position (trivia c (by simp)),
      ih (position + 1) fun d member => trivia d (by simp [member])]
    rw [List.length_cons, Nat.add_assoc, Nat.add_comm 1]

/-- A run of characters that is not trivia is a token, up to the first character
that does not join it. -/
theorem kept_run (position : Nat) (significant : ¬ Trivia c) (joins : ∀ d ∈ run, fuses c d = true)
    (boundary : ∀ d ∈ rest.head?, fuses c d = false) : kept position (c :: run ++ rest) =
      (Token.ofRun (.ofChar c) position (c :: run)).value ::
        kept (position + (c :: run).length) rest := by
  obtain ⟨inside, behind⟩ := run_stops joins boundary
  rw [List.cons_append, kept_front, if_neg significant, frontToken, afterFront, frontRun, inside, behind]
  rfl

/-- An operator is a token by itself, whatever follows it. -/
theorem kept_operator {kind : Kind} (position : Nat) (operator : Kind.ofOperator? c = some kind)
    (rest : List Char) : kept position (c :: rest) =
      (Token.ofRun kind position [c]).value :: kept (position + 1) rest := by
  have significant : ¬ Trivia c := by
    rintro ⟨_, absent⟩
    rw [operator_kind_none_iff.mpr absent] at operator
    cases operator
  have alone : ∀ d ∈ rest.head?, fuses c d = false := by
    obtain ⟨number, blank, _⟩ := operator_kind_plain operator
    intro d _
    rw [Bool.eq_false_iff, ne_eq, fuses_iff, ofChar_of_operator operator]
    rintro ⟨_, kind | kind⟩
    · exact number kind
    · exact blank kind
  have single : ∀ d ∈ [], fuses c d = true := by simp
  rw [← ofChar_of_operator operator]
  exact kept_run position significant single alone

/-- Every source is a gap of trivia and what stands behind it. -/
theorem gap_split (source : List Char) : ∃ gap rest, source = gap ++ rest ∧
    (∀ c ∈ gap, Trivia c) ∧ ∀ c ∈ rest.head?, ¬ Trivia c := by
  refine ⟨source.takeWhile (Trivia ·), source.dropWhile (Trivia ·),
    List.takeWhile_append_dropWhile.symm, ?_, ?_⟩
  · intro c member
    simpa using List.mem_takeWhile_imp member
  · intro c first
    simpa using dropWhile_boundary first

/-- Nothing is kept of trivia alone. -/
theorem kept_eq_nil (empty : kept position source = []) : ∀ c ∈ source, Trivia c := by
  obtain ⟨gap, rest, rfl, trivia, significant⟩ := gap_split source
  rw [kept_gap position trivia] at empty
  cases rest with
  | nil => simpa using trivia
  | cons c others =>
    rw [kept_front, if_neg (significant c rfl)] at empty
    cases empty

/-- The first token kept of a source is a run of characters behind a gap. -/
theorem kept_eq_cons (begins : kept position source = token :: tokens) :
    ∃ gap c run rest, source = gap ++ (c :: run ++ rest) ∧ (∀ d ∈ gap, Trivia d) ∧ ¬ Trivia c ∧
      (∀ d ∈ run, fuses c d = true) ∧ (∀ d ∈ rest.head?, fuses c d = false) ∧
      token = (Token.ofRun (.ofChar c) (position + gap.length) (c :: run)).value ∧
      tokens = kept (position + gap.length + (c :: run).length) rest := by
  obtain ⟨gap, behind, rfl, trivia, significant⟩ := gap_split source
  rw [kept_gap position trivia] at begins
  cases behind with
  | nil =>
    rw [kept_nil] at begins
    cases begins
  | cons c others =>
    have joins : ∀ d ∈ others.takeWhile (fuses c), fuses c d = true :=
      fun d member => List.mem_takeWhile_imp member
    have boundary : ∀ d ∈ (others.dropWhile (fuses c)).head?, fuses c d = false :=
      fun d first => dropWhile_boundary first
    have read := kept_run (position + gap.length) (significant c rfl) joins boundary
    rw [List.cons_append, List.takeWhile_append_dropWhile, begins] at read
    obtain ⟨first, later⟩ := List.cons.inj read
    exact ⟨gap, c, _, _, by rw [List.cons_append, List.takeWhile_append_dropWhile], trivia,
      significant c rfl, joins, boundary, first, later⟩

/-- What is kept stands in the source, and is not its end. -/
theorem kept_piece (member : token ∈ kept position source) :
    token.isMissing = false ∧ token.kind ≠ .endOfFile := by
  have cut := (drain_cut position source).1
  have piece := (List.mem_filter.mp member).1
  obtain ⟨text, spelled, _⟩ := cut.present token piece
  refine ⟨by simp [Token.isMissing, spelled], fun ends => ?_⟩
  have fits := cut.fitting token piece
  rw [ends] at fits
  exact fits

/-- A buffer holds what is kept of its source. -/
theorem ofSource_value (source : String) : (TokenBuffer.ofSource source).value =
    { body := (kept 0 source.toList).toArray, sourceLength := source.length, cursor := 0 } := by
  have ended := (drain_cut 0 source.toList).2
  simp only [TokenBuffer.ofSource, bind, pure, kept, TokenStream.ofSource]
  rw [ended, Nat.zero_add, String.length_toList]

end Summand.Significance
