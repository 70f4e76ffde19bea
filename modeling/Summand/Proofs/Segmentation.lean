import Mathlib.Data.List.Chain
import Summand.Proofs.Scanning

/-! A source is cut into tokens in exactly one way. What a correct cut is does
not mention reading: the texts join to the source, each token stands where the
texts before it end, its text fits its kind, and neighbours that could have
been one token are one token. Reading everything gives such a cut, and any
other such cut has the same kinds, positions and texts. -/
namespace Summand.Segmentation
open TokenStream Scanning

/-- The characters a token stands for. -/
def characters (token : Token) : List Char := (token.text.getD "").toList

/-- Which characters a kind of token may stand for. The end of file stands for
none, and expressions are no tokens. -/
def Fits : Kind → List Char → Prop
  | .number, run => ∀ c ∈ run, isNumeric c = true
  | .whiteSpace, run => ∀ c ∈ run, isBlank c = true
  | .plus, run => run = ['+']
  | .minus, run => run = ['-']
  | .star, run => run = ['*']
  | .slash, run => run = ['/']
  | .leftParen, run => run = ['(']
  | .rightParen, run => run = [')']
  | .bad, run => ∃ c, run = [c] ∧ isNumeric c = false ∧ isBlank c = false ∧ c ∉ operators
  | .endOfFile, _ => False
  | .numberExpression, _ => False
  | .binaryExpression, _ => False

/-- Two neighbours that are not both numbers and not both white space. -/
def Apart (first second : Token) : Prop :=
  ¬ (first.kind = .number ∧ second.kind = .number) ∧
    ¬ (first.kind = .whiteSpace ∧ second.kind = .whiteSpace)

/-- A correct cut of characters that begin at some position of a source, the
end of file left out. -/
structure Cut (start : Nat) (source : List Char) (pieces : List Token) : Prop where
  joined : pieces.flatMap characters = source
  present : ∀ piece ∈ pieces, ∃ text, piece.text = some text ∧ text ≠ ""
  placed : ∀ before piece after, pieces = before ++ piece :: after →
    piece.position = start + (before.flatMap characters).length
  fitting : ∀ piece ∈ pieces, Fits piece.kind (characters piece)
  apart : pieces.IsChain Apart
  valued : ∀ piece ∈ pieces, piece.value.isSome = true → piece.kind = .number

/-- A correct list of all tokens of a source: a correct cut, closed by the end
of file. -/
def Segments (source : String) (tokens : List Token) : Prop :=
  ∃ pieces last, tokens = pieces ++ [last] ∧ Cut 0 source.toList pieces ∧
    last.kind = .endOfFile ∧ last.text = some "\u0000" ∧ last.value = none ∧
    last.position = source.length

/-- What a cut is judged by: everything about a token but its value. -/
def outline (token : Token) : Kind × Nat × Option String :=
  (token.kind, token.position, token.text)

private theorem fits_operator {kind : Kind} {c : Char} {rest : List Char}
    (operator : Kind.ofOperator? c = some kind) : Fits kind (c :: rest) ↔ rest = [] := by
  unfold Kind.ofOperator? at operator
  split at operator <;> cases operator <;> simp [Fits]

private theorem alone {c : Char} {rest : List Char} (number : Kind.ofChar c ≠ .number)
    (blank : Kind.ofChar c ≠ .whiteSpace) (joins : ∀ d ∈ rest, fuses c d = true) : rest = [] := by
  rw [List.eq_nil_iff_forall_not_mem]
  intro d member
  rcases (fuses_iff.mp (joins d member)).2 with kind | kind
  · exact number kind
  · exact blank kind

private theorem kind_of_fits {kind : Kind} {c : Char} {rest : List Char}
    (fits : Fits kind (c :: rest)) : kind = Kind.ofChar c ∧ ∀ d ∈ rest, fuses c d = true := by
  cases kind with
  | number =>
    have head := ofChar_number_iff.mpr (fits c (by simp))
    refine ⟨head.symm, fun d member => fuses_iff.mpr ⟨?_, Or.inl head⟩⟩
    exact head.trans (ofChar_number_iff.mpr (fits d (by simp [member]))).symm
  | whiteSpace =>
    have head := ofChar_whiteSpace_iff.mpr (fits c (by simp))
    refine ⟨head.symm, fun d member => fuses_iff.mpr ⟨?_, Or.inr head⟩⟩
    exact head.trans (ofChar_whiteSpace_iff.mpr (fits d (by simp [member]))).symm
  | bad =>
    obtain ⟨d, same, plain⟩ := fits
    cases same
    exact ⟨(ofChar_bad_iff.mpr plain).symm, by simp⟩
  | plus | minus | star | slash | leftParen | rightParen =>
    cases fits
    exact ⟨(ofChar_of_operator rfl).symm, by simp⟩
  | endOfFile | numberExpression | binaryExpression => cases fits

private theorem joined_kind {c : Char} {rest : List Char} (joins : ∀ d ∈ rest, fuses c d = true) :
    ∀ d ∈ c :: rest, Kind.ofChar d = Kind.ofChar c := by
  intro d member
  rcases List.mem_cons.mp member with rfl | later
  · rfl
  · exact (fuses_iff.mp (joins d later)).1.symm

private theorem fits_of_joins {c : Char} {rest : List Char}
    (joins : ∀ d ∈ rest, fuses c d = true) : Fits (Kind.ofChar c) (c :: rest) := by
  cases numeric : isNumeric c with
  | true =>
    have head := ofChar_number_iff.mpr numeric
    rw [head]
    exact fun d member => ofChar_number_iff.mp ((joined_kind joins d member).trans head)
  | false =>
    have number : Kind.ofChar c ≠ .number := fun kind => by
      simp [ofChar_number_iff.mp kind] at numeric
    cases blank : isBlank c with
    | true =>
      have head := ofChar_whiteSpace_iff.mpr blank
      rw [head]
      exact fun d member => ofChar_whiteSpace_iff.mp ((joined_kind joins d member).trans head)
    | false =>
      have space : Kind.ofChar c ≠ .whiteSpace := fun kind => by
        simp [ofChar_whiteSpace_iff.mp kind] at blank
      have single := alone number space joins
      subst single
      cases operator : Kind.ofOperator? c with
      | none =>
        have plain := And.intro numeric (And.intro blank (operator_kind_none_iff.mp operator))
        rw [ofChar_bad_iff.mpr plain]
        exact ⟨c, rfl, plain⟩
      | some kind =>
        rw [ofChar_of_operator operator]
        exact (fits_operator operator).mpr rfl

/-- A text fits the kind of its first character and no other kind, and it does
so exactly when the rest of it joins that character. -/
theorem fits_iff {kind : Kind} {c : Char} {rest : List Char} :
    Fits kind (c :: rest) ↔ kind = Kind.ofChar c ∧ ∀ d ∈ rest, fuses c d = true := by
  constructor
  · exact kind_of_fits
  · rintro ⟨rfl, joins⟩
    exact fits_of_joins joins

/-- Neighbours that fit their kinds are apart exactly when the character where
the second begins does not join the first. -/
theorem apart_iff {first second : Token} {c d : Char} (left : first.kind = Kind.ofChar c)
    (right : second.kind = Kind.ofChar d) : Apart first second ↔ fuses c d = false := by
  rw [Bool.eq_false_iff, ne_eq, fuses_iff, Apart, left, right]
  constructor
  · rintro ⟨number, blank⟩ ⟨same, kind | kind⟩
    · exact number ⟨kind, same ▸ kind⟩
    · exact blank ⟨kind, same ▸ kind⟩
  · intro other
    exact ⟨fun both => other ⟨both.1.trans both.2.symm, Or.inl both.1⟩,
      fun both => other ⟨both.1.trans both.2.symm, Or.inr both.1⟩⟩

private theorem characters_of_text {piece : Token} {text : String} (spelled : piece.text = some text) :
    characters piece = text.toList := by
  simp [characters, spelled]

/-- A piece with a text that is not empty begins with some character, and its
kind is the kind of that character. -/
private theorem piece_shape {piece : Token} (present : ∃ text, piece.text = some text ∧ text ≠ "")
    (fits : Fits piece.kind (characters piece)) :
    ∃ c run, piece.text = some (String.ofList (c :: run)) ∧ characters piece = c :: run ∧
      piece.kind = Kind.ofChar c ∧ ∀ d ∈ run, fuses c d = true := by
  obtain ⟨text, spelled, nonempty⟩ := present
  have same := characters_of_text spelled
  cases letters : text.toList with
  | nil => exact absurd (String.toList_eq_nil_iff.mp letters) nonempty
  | cons c run =>
    rw [letters] at same
    rw [same, fits_iff] at fits
    refine ⟨c, run, ?_, same, fits⟩
    rw [spelled, ← letters, String.ofList_toList]

theorem Cut.head_kind {start : Nat} {source : List Char} {pieces : List Token}
    (cut : Cut start source pieces) {piece : Token} (first : piece ∈ pieces.head?) :
    ∃ d, d ∈ source.head? ∧ piece.kind = Kind.ofChar d := by
  cases pieces with
  | nil => cases first
  | cons found rest =>
    cases first
    obtain ⟨d, run, _, spelled, kind, _⟩ := piece_shape (cut.present piece (by simp))
      (cut.fitting piece (by simp))
    refine ⟨d, ?_, kind⟩
    rw [← cut.joined, List.flatMap_cons, spelled]
    rfl

theorem Cut.tail {start : Nat} {source : List Char} {piece : Token} {rest : List Token}
    (cut : Cut start source (piece :: rest)) :
    Cut (start + (characters piece).length) (rest.flatMap characters) rest where
  joined := rfl
  present other member := cut.present other (by simp [member])
  placed before other after split := by
    have place := cut.placed (piece :: before) other after (by simp [split])
    simpa [Nat.add_assoc] using place
  fitting other member := cut.fitting other (by simp [member])
  apart := cut.apart.tail
  valued other member := cut.valued other (by simp [member])

/-- Any correct cut begins the way reading begins: its first piece is the token
in front, and the other pieces cut what follows that token. -/
theorem cut_begins {start : Nat} {source : List Char} {piece : Token} {rest : List Token}
    (cut : Cut start source (piece :: rest)) :
    ∃ c others, source = c :: others ∧ outline piece = outline (frontToken start c others).value ∧
      Cut (afterFront start c others).position (afterFront start c others).rest rest := by
  obtain ⟨c, run, text, spelled, kind, joins⟩ := piece_shape (cut.present piece (by simp))
    (cut.fitting piece (by simp))
  have boundary : ∀ d ∈ (rest.flatMap characters).head?, fuses c d = false := by
    intro d first
    cases rest with
    | nil => cases first
    | cons next later =>
      obtain ⟨found, head, nextKind⟩ := cut.tail.head_kind (List.head?_cons ▸ Option.mem_some_self next)
      cases Option.mem_unique head first
      exact (apart_iff kind nextKind).mp (cut.apart.rel_head? rfl)
  have place := cut.placed [] piece rest rfl
  obtain ⟨taken, left⟩ := run_stops joins boundary
  refine ⟨c, run ++ rest.flatMap characters, ?_, ?_, ?_⟩
  · rw [← cut.joined, List.flatMap_cons, spelled, List.cons_append]
  · simp only [outline, frontToken, frontRun, taken, ofRun_kind, ofRun_position, ofRun_text]
    simpa [kind, text] using place
  · simpa only [afterFront, frontRun, taken, left, ← spelled] using cut.tail

theorem frontToken_characters (start : Nat) (c : Char) (others : List Char) :
    characters (frontToken start c others).value = frontRun c others :=
  (characters_of_text (ofRun_text ..)).trans String.toList_ofList

/-- The token in front, followed by a correct cut of the rest, is a correct cut. -/
theorem cut_of_front {start : Nat} {c : Char} {others : List Char} {rest : List Token}
    (cut : Cut (afterFront start c others).position (afterFront start c others).rest rest) :
    Cut start (c :: others) ((frontToken start c others).value :: rest) where
  joined := by
    rw [List.flatMap_cons, frontToken_characters, cut.joined]
    exact frontRun_append c others
  present := by
    intro piece member
    rcases List.mem_cons.mp member with rfl | member
    · exact ⟨_, ofRun_text .., by simp [frontRun]⟩
    · exact cut.present piece member
  placed := by
    intro before piece after split
    cases before with
    | nil =>
      cases split
      simp [frontToken]
    | cons first before =>
      obtain ⟨rfl, later⟩ := List.cons.inj split
      rw [cut.placed before piece after later, List.flatMap_cons, frontToken_characters,
        List.length_append, afterFront, Nat.add_assoc]
  fitting := by
    intro piece member
    rcases List.mem_cons.mp member with rfl | member
    · rw [frontToken_characters]
      exact fits_iff.mpr ⟨ofRun_kind .., fun d inside => List.mem_takeWhile_imp inside⟩
    · exact cut.fitting piece member
  apart := by
    refine List.isChain_cons.mpr ⟨fun next first => ?_, cut.apart⟩
    obtain ⟨d, head, kind⟩ := cut.head_kind first
    exact (apart_iff (ofRun_kind ..) kind).mpr (dropWhile_boundary head)
  valued := by
    intro piece member held
    rcases List.mem_cons.mp member with rfl | member
    · exact (ofRun_kind ..).trans (ofRun_value_number held)
    · exact cut.valued piece member held

/-- Reading everything from some position on gives a correct cut of what is
left, and ends behind its last character. -/
theorem drain_cut (start : Nat) (source : List Char) :
    Cut start source (TokenStream.mk start source).drain.value.1 ∧
      (TokenStream.mk start source).drain.value.2 = ⟨start + source.length, []⟩ := by
  apply read_induction (motive := fun stream => Cut stream.position stream.rest
    stream.drain.value.1 ∧ stream.drain.value.2 = ⟨stream.position + stream.rest.length, []⟩)
  · intro position
    rw [drain_at_end]
    exact ⟨⟨rfl, by simp, by simp, by simp, by simp, by simp⟩, rfl⟩
  · intro position c others later
    obtain ⟨cut, ended⟩ := later
    rw [drain_at_char]
    refine ⟨cut_of_front cut, ended.trans ?_⟩
    have whole := congrArg List.length (frontRun_append c others)
    rw [List.length_append] at whole
    simp only [afterFront, TokenStream.mk.injEq, and_true]
    omega

/-- Any correct cut agrees with reading everything. -/
theorem cut_outlines {start : Nat} {source : List Char} {pieces : List Token}
    (cut : Cut start source pieces) :
    pieces.map outline = (TokenStream.mk start source).drain.value.1.map outline := by
  induction pieces generalizing start source with
  | nil =>
    have empty : source = [] := cut.joined.symm
    rw [empty, drain_at_end]
  | cons piece rest ih =>
    obtain ⟨c, others, rfl, same, later⟩ := cut_begins cut
    rw [drain_at_char, List.map_cons, List.map_cons, same, ih later]

/-- All tokens of a source are a correct cut of it, closed by the end of file. -/
theorem tokenize_eq (source : String) : (ofSource source).tokenize.value.1 =
    (ofSource source).drain.value.1 ++ [.endOfFile source.length] := by
  have ended := (drain_cut 0 source.toList).2
  simp only [tokenize, bind, pure]
  rw [ofSource, ended, Nat.zero_add, String.length_toList]

/-- Reading a source gives a correct list of its tokens, and every correct list
of its tokens has the same kinds, positions and texts in the same order. -/
theorem tokenize_only_segmentation (source : String) :
    Segments source (ofSource source).tokenize.value.1 ∧
      ∀ tokens, Segments source tokens →
        tokens.map outline = (ofSource source).tokenize.value.1.map outline := by
  rw [tokenize_eq]
  constructor
  · exact ⟨_, _, rfl, (drain_cut 0 source.toList).1, rfl, rfl, rfl, rfl⟩
  · rintro tokens ⟨pieces, last, rfl, cut, kind, text, _, position⟩
    rw [List.map_append, List.map_append, cut_outlines cut]
    simp [outline, kind, text, position, Token.endOfFile, ofSource]

end Summand.Segmentation
