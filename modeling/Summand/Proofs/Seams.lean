import Summand.Proofs.Significance

/-! What is kept of a source is local. A source may be cut anywhere but inside a run
of numerals: the tokens kept of the whole are those kept of the two parts, each in its
own place, and what stands in front of a part only moves them. Each token stands in
the source where its position says, and they stand there in order. -/
namespace Summand.Seams
open Scanning Segmentation Significance

variable {position : Nat} {c d : Char} {run front back source : List Char} {token : Token}

/-- What holds at the end of a source, and holds in front of trivia and in front of a
run of other characters whenever it holds behind them, holds of every source. -/
theorem kept_induction {motive : Nat → List Char → Prop} (atEnd : ∀ position, motive position [])
    (atTrivia : ∀ position c others, Trivia c → motive (position + 1) others →
      motive position (c :: others))
    (atRun : ∀ position c run rest, ¬ Trivia c → (∀ d ∈ run, fuses c d = true) →
      (∀ d ∈ rest.head?, fuses c d = false) → motive (position + (c :: run).length) rest →
      motive position (c :: run ++ rest)) :
    ∀ position source, motive position source
  | position, [] => atEnd position
  | position, c :: others => by
    by_cases trivia : Trivia c
    · apply atTrivia position c others trivia
      exact kept_induction atEnd atTrivia atRun (position + 1) others
    · have split : c :: others.takeWhile (fuses c) ++ others.dropWhile (fuses c) = c :: others :=
        frontRun_append c others
      rw [← split]
      apply atRun position c _ _ trivia
      · exact fun d member => List.mem_takeWhile_imp member
      · exact fun d first => dropWhile_boundary first
      · exact kept_induction atEnd atTrivia atRun _ (others.dropWhile (fuses c))
termination_by _ source => source.length
decreasing_by
  · exact Nat.lt_succ_self _
  · exact Nat.lt_succ_of_le (List.dropWhile_sublist _).length_le

/-- A place between two parts of a source where no run of numerals is cut. -/
def Seam (front back : List Char) : Prop :=
  ∀ c ∈ front.getLast?, ∀ d ∈ back.head?, ¬ (isNumeric c = true ∧ isNumeric d = true)

theorem Seam.behind (before : List Char) (seam : Seam (before ++ front) back) :
    Seam front back := by
  intro c last
  apply seam
  rw [Option.mem_def] at last
  simp [List.getLast?_append, last]

/-- Of the characters that are not trivia only numerals join each other. -/
theorem significant_fuses (significant : ¬ Trivia c) (joined : fuses c d = true) :
    isNumeric c = true ∧ isNumeric d = true := by
  obtain ⟨same, number | blank⟩ := fuses_iff.mp joined
  · exact ⟨ofChar_number_iff.mp number, ofChar_number_iff.mp (same ▸ number)⟩
  · exact absurd (trivia_iff.mp (by simp [blank, Kind.isTrivia])) significant

/-- A run that ends at a seam is not continued behind it. -/
theorem seam_boundary (significant : ¬ Trivia c) (joins : ∀ d ∈ run, fuses c d = true)
    (seam : Seam (c :: run) back) : ∀ d ∈ back.head?, fuses c d = false := by
  intro d first
  rw [Bool.eq_false_iff]
  intro joined
  obtain ⟨numeric, next⟩ := significant_fuses significant joined
  obtain ⟨last, ends⟩ : ∃ last, last ∈ (c :: run).getLast? := ⟨_, List.getLast?_cons⟩
  apply seam last ends d first
  refine ⟨?_, next⟩
  rcases List.mem_cons.mp (List.mem_of_mem_getLast? ends) with rfl | member
  · exact numeric
  · exact (significant_fuses significant (joins last member)).2

/-- What is kept of a source is what is kept of its parts on both sides of a seam. -/
theorem kept_append (seam : Seam front back) (position : Nat) :
    kept position (front ++ back) =
      kept position front ++ kept (position + front.length) back := by
  induction position, front using kept_induction with
  | atEnd position => rw [kept_nil]; rfl
  | atTrivia position c others trivia ih =>
    rw [List.cons_append, kept_trivia position trivia, kept_trivia position trivia,
      ih (seam.behind [c]), List.length_cons, Nat.add_assoc, Nat.add_comm 1]
  | atRun position c run rest significant joins boundary ih =>
    -- The run ends where it ended before, also when nothing of the front is left behind it.
    have boundaryToo : ∀ d ∈ (rest ++ back).head?, fuses c d = false := by
      cases rest with
      | nil => exact seam_boundary significant joins (by simpa using seam)
      | cons first rest => exact boundary
    rw [List.append_assoc, kept_run position significant joins boundaryToo,
      kept_run position significant joins boundary, ih (seam.behind _), List.cons_append,
      List.length_append, Nat.add_assoc]

/-- A token a number of places further on. -/
def moveOn (count : Nat) (token : Token) : Token :=
  { token with position := token.position + count }

theorem ofRun_moveOn (kind : Kind) (position count : Nat) (run : List Char) :
    (Token.ofRun kind (position + count) run).value =
      moveOn count (Token.ofRun kind position run).value := by
  rw [ofRun_eq, ofRun_eq]
  rfl

/-- A source in another place has its tokens in another place and no others. -/
theorem kept_moveOn (position count : Nat) (source : List Char) :
    kept (position + count) source = (kept position source).map (moveOn count) := by
  induction position, source using kept_induction with
  | atEnd position => rw [kept_nil, kept_nil]; rfl
  | atTrivia position c others trivia ih =>
    rw [kept_trivia _ trivia, kept_trivia _ trivia, Nat.add_right_comm, ih]
  | atRun position c run rest significant joins boundary ih =>
    rw [kept_run _ significant joins boundary, kept_run _ significant joins boundary,
      Nat.add_right_comm, ih, ofRun_moveOn, List.map_cons]

/-- A token that is kept stands in the source at its position. -/
theorem kept_stands (member : token ∈ kept position source) : ∃ before after,
    source = before ++ (characters token ++ after) ∧ token.position = position + before.length ∧
      token.text = some (String.ofList (characters token)) ∧ characters token ≠ [] := by
  have cut := (drain_cut position source).1
  have piece := (List.mem_filter.mp member).1
  obtain ⟨before, after, split⟩ := List.append_of_mem piece
  obtain ⟨text, spelled, nonempty⟩ := cut.present token piece
  have spelling : characters token = text.toList := by simp [characters, spelled]
  refine ⟨before.flatMap characters, after.flatMap characters, ?_, cut.placed _ _ _ split, ?_, ?_⟩
  · rw [← cut.joined, split, List.flatMap_append, List.flatMap_cons]
  · rw [spelling, String.ofList_toList, spelled]
  · rwa [spelling, ne_eq, String.toList_eq_nil_iff]

/-- A token that is kept lies within the source. -/
theorem kept_within (member : token ∈ kept position source) :
    position ≤ token.position ∧ token.position < position + source.length := by
  obtain ⟨before, after, rfl, placed, _, nonempty⟩ := kept_stands member
  have present := List.length_pos_iff.mpr nonempty
  simp only [List.length_append]
  omega

/-- The tokens that are kept stand in order. -/
theorem kept_sorted (position : Nat) (source : List Char) :
    (kept position source).Pairwise (·.position < ·.position) := by
  induction position, source using kept_induction with
  | atEnd position => rw [kept_nil]; exact .nil
  | atTrivia position c others trivia ih => rwa [kept_trivia position trivia]
  | atRun position c run rest significant joins boundary ih =>
    rw [kept_run position significant joins boundary, List.pairwise_cons, ofRun_position]
    refine ⟨fun token member => ?_, ih⟩
    have behind := (kept_within member).1
    rw [List.length_cons] at behind
    omega

end Summand.Seams
