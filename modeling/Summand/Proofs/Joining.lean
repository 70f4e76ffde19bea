import Summand.Proofs.NumeralValue
import Summand.Proofs.Seams

/-! The tokens of a source put together from two are those of the parts, those of the
second further on. Only the two tokens that meet may become one, and they do so exactly
when the characters that meet are both numerals or both white space. -/
namespace Summand.Joining
open NumeralValue Scanning Seams Segmentation Significance TokenStream

/-- Two sources whose last and first characters are both numerals or both white space. -/
def Joins (first second : String) : Prop :=
  ∃ c ∈ first.toList.getLast?, ∃ d ∈ second.toList.head?,
    (isNumeric c = true ∧ isNumeric d = true) ∨ (isBlank c = true ∧ isBlank d = true)

/-- The token that two tokens make together. It has the kind and the position of the
first and both texts, and if they are numbers the worth of all digits. -/
def fusion (first second : Token) : Token :=
  let text := first.text.getD "" ++ second.text.getD ""
  { kind := first.kind, position := first.position, text := some text
    value := if first.kind = .number then some (worth text.toList) else none }

/-- The tokens from some position on, the end of file left out. -/
def drained (position : Nat) (source : List Char) : List Token :=
  (TokenStream.mk position source).drain.value.1

/-- Two parts of a source that no token runs across. -/
def Parted (front back : List Char) : Prop :=
  ∀ c ∈ front.getLast?, ∀ d ∈ back.head?, fuses c d = false

variable {position : Nat} {c d : Char} {run front back rest : List Char}

theorem tokenize_drained (source : String) : (ofSource source).tokenize.value.1 =
    drained 0 source.toList ++ [.endOfFile source.length] :=
  tokenize_eq source

theorem drained_nil (position : Nat) : drained position [] = [] := by
  rw [drained, drain_at_end]

/-- A run in front of something that does not join it is one token. -/
theorem drained_run (position : Nat) (joins : ∀ d ∈ run, fuses c d = true)
    (boundary : ∀ d ∈ rest.head?, fuses c d = false) : drained position (c :: run ++ rest) =
      (Token.ofRun (.ofChar c) position (c :: run)).value ::
        drained (position + (c :: run).length) rest := by
  obtain ⟨inside, behind⟩ := run_stops joins boundary
  rw [drained, List.cons_append, drain_at_char, frontToken, afterFront, frontRun, inside, behind]
  rfl

/-- What holds at the end of a source, and holds in front of a run whenever it holds behind
it, holds of every source. -/
theorem run_induction {motive : Nat → List Char → Prop} (atEnd : ∀ position, motive position [])
    (atRun : ∀ position c run rest, (∀ d ∈ run, fuses c d = true) →
      (∀ d ∈ rest.head?, fuses c d = false) → motive (position + (c :: run).length) rest →
      motive position (c :: run ++ rest)) (position : Nat) (source : List Char) :
    motive position source := by
  apply read_induction (motive := fun stream => motive stream.position stream.rest) atEnd
  intro position c others later
  have split : c :: others.takeWhile (fuses c) ++ others.dropWhile (fuses c) = c :: others :=
    frontRun_append c others
  show motive position (c :: others)
  rw [← split]
  apply atRun position c _ _ (fun d member => List.mem_takeWhile_imp member)
    (fun d first => dropWhile_boundary first)
  exact later

/-- The last character of a run is joined by what joins the first. -/
theorem fuses_last (joins : ∀ d ∈ run, fuses c d = true) {last : Char}
    (ends : last ∈ (c :: run).getLast?) : fuses last = fuses c := by
  rcases List.mem_cons.mp (List.mem_of_getLast? ends) with rfl | member
  · rfl
  · exact (fuses_congr (joins last member)).symm

/-- A run is parted from what its first character does not join. -/
theorem parted_run (joins : ∀ d ∈ run, fuses c d = true) :
    Parted (c :: run) back ↔ ∀ d ∈ back.head?, fuses c d = false := by
  obtain ⟨last, ends⟩ : ∃ last, last ∈ (c :: run).getLast? := ⟨_, List.getLast?_cons⟩
  constructor
  · intro parted d first
    rw [← fuses_last joins ends]
    exact parted last ends d first
  · intro boundary e endsToo d first
    rw [fuses_last joins endsToo]
    exact boundary d first

/-- Whether parts are parted does not hang on what stands in front of the first. -/
theorem parted_append (nonempty : rest ≠ []) (front back : List Char) :
    Parted (front ++ rest) back ↔ Parted rest back := by
  rw [Parted, List.getLast?_append_of_ne_nil _ nonempty, ← Parted]

/-- The tokens of a source are those of its parts if the parts are parted. -/
theorem drained_append (parted : Parted front back) (position : Nat) :
    drained position (front ++ back) =
      drained position front ++ drained (position + front.length) back := by
  induction position, front using run_induction with
  | atEnd position => rw [drained_nil]; rfl
  | atRun position c run rest joins boundary ih =>
    -- The run ends where it ended before, also when nothing of the front is left behind it.
    have both : (∀ d ∈ (rest ++ back).head?, fuses c d = false) ∧ Parted rest back := by
      cases rest with
      | nil => exact ⟨(parted_run joins).mp (by simpa using parted), by simp [Parted]⟩
      | cons first rest => exact ⟨boundary, (parted_append (by simp) _ _).mp parted⟩
    rw [List.append_assoc, drained_run position joins both.1, drained_run position joins boundary,
      ih both.2, List.cons_append, List.length_append, Nat.add_assoc]

/-- A source in another place has its tokens in another place and no others. -/
theorem drained_moveOn (position count : Nat) (source : List Char) :
    drained (position + count) source = (drained position source).map (moveOn count) := by
  induction position, source using run_induction with
  | atEnd position => rw [drained_nil, drained_nil]; rfl
  | atRun position c run rest joins boundary ih =>
    rw [drained_run _ joins boundary, drained_run _ joins boundary, Nat.add_right_comm, ih,
      ofRun_moveOn, List.map_cons]

/-- A source that is not empty ends with a run that is parted from what stands in front
of it. -/
theorem last_run (source : List Char) (nonempty : source ≠ []) : ∃ front c run,
    source = front ++ c :: run ∧ (∀ d ∈ run, fuses c d = true) ∧ Parted front (c :: run) := by
  -- Where the source stands does not matter here.
  have position : Nat := 0
  induction position, source using run_induction with
  | atEnd position => exact absurd rfl nonempty
  | atRun position c run rest joins boundary ih =>
    cases rest with
    | nil => exact ⟨[], c, run, by simp, joins, by simp [Parted]⟩
    | cons first others =>
      obtain ⟨front, e, last, split, joinsLast, parted⟩ := ih (by simp)
      refine ⟨c :: run ++ front, e, last, by rw [split, List.append_assoc], joinsLast, ?_⟩
      cases front with
      | nil =>
        rw [split] at boundary
        rw [List.append_nil]
        exact (parted_run joins).mpr boundary
      | cons f front => exact (parted_append (by simp) _ _).mpr parted

theorem joins_iff {first second : String} : Joins first second ↔
    ∃ c ∈ first.toList.getLast?, ∃ d ∈ second.toList.head?, fuses c d = true := by
  simp only [Joins, fuses, Bool.or_eq_true, Bool.and_eq_true]

theorem parted_of_not_joins {first second : String} (apart : ¬ Joins first second) :
    Parted first.toList second.toList := by
  intro c ends d begins
  rw [Bool.eq_false_iff]
  exact fun fused => apart (joins_iff.mpr ⟨c, ends, d, begins, fused⟩)

/-- Two tokens of runs that join make the token of the joined run. -/
theorem fusion_runs (kind other : Kind) (position place : Nat) (run later : List Char) :
    fusion (Token.ofRun kind position run).value (Token.ofRun other place later).value =
      (Token.ofRun kind position (run ++ later)).value := by
  simp only [ofRun_worth, fusion, Option.getD_some, ← String.ofList_append, String.toList_ofList]

theorem drained_last (position : Nat) (joins : ∀ d ∈ run, fuses c d = true) :
    drained position (c :: run) = [(Token.ofRun (.ofChar c) position (c :: run)).value] := by
  have boundary : ∀ d ∈ ([] : List Char).head?, fuses c d = false := by simp
  have whole := drained_run position joins boundary
  rwa [List.append_nil, drained_nil] at whole

/-- Where the last run of one source and the first of another join, the tokens of both
together are the tokens of each, but for the two that meet. -/
theorem drained_fused (joins : ∀ e ∈ run, fuses c e = true) (parted : Parted front (c :: run))
    (fused : fuses c d = true) (others : List Char) : ∃ before last next after,
    drained 0 (front ++ c :: run) = before ++ [last] ∧
      drained 0 (d :: others) = next :: after ∧
      drained 0 ((front ++ c :: run) ++ d :: others) =
        before ++ fusion last next :: after.map (moveOn (front ++ c :: run).length) ∧
      last.kind = Kind.ofChar c ∧ next.kind = Kind.ofChar d := by
  have same : fuses c = fuses d := fuses_congr fused
  obtain ⟨later, behind, rfl, joinsLater, boundary⟩ : ∃ later behind, others = later ++ behind ∧
      (∀ e ∈ later, fuses d e = true) ∧ ∀ e ∈ behind.head?, fuses d e = false :=
    ⟨_, _, List.takeWhile_append_dropWhile.symm, fun e member => List.mem_takeWhile_imp member,
      fun e first => dropWhile_boundary first⟩
  have joinsAll : ∀ e ∈ run ++ d :: later, fuses c e = true := by
    rw [List.forall_mem_append, List.forall_mem_cons]
    exact ⟨joins, fused, same ▸ joinsLater⟩
  have regrouped : (front ++ c :: run) ++ d :: (later ++ behind) =
      front ++ (c :: (run ++ d :: later) ++ behind) := by
    simp
  have partedAll : Parted front (c :: (run ++ d :: later) ++ behind) := parted
  refine ⟨drained 0 front, (Token.ofRun (.ofChar c) (0 + front.length) (c :: run)).value,
    (Token.ofRun (.ofChar d) 0 (d :: later)).value, drained (0 + (d :: later).length) behind,
    ?_, ?_, ?_, ofRun_kind .., ofRun_kind ..⟩
  · rw [drained_append parted, drained_last _ joins]
  · rw [← List.cons_append, drained_run 0 joinsLater boundary]
  · have place : 0 + front.length + (c :: (run ++ d :: later)).length =
        0 + (d :: later).length + (front ++ c :: run).length := by
      simp only [List.length_cons, List.length_append]
      omega
    rw [regrouped, drained_append partedAll, drained_run _ joinsAll (same ▸ boundary), fusion_runs,
      place, drained_moveOn]
    rfl

/-- Where the characters that meet join, the tokens that meet are of one kind, of the two
kinds that join, and are one token of the whole. -/
theorem drained_joined {first second : List Char}
    (joins : ∃ c ∈ first.getLast?, ∃ d ∈ second.head?, fuses c d = true) :
    ∃ before last next after,
      drained 0 first = before ++ [last] ∧ drained 0 second = next :: after ∧
        last.kind = next.kind ∧ (last.kind = .number ∨ last.kind = .whiteSpace) ∧
        drained 0 (first ++ second) =
          before ++ fusion last next :: after.map (moveOn first.length) := by
  obtain ⟨c, ends, d, begins, fused⟩ := joins
  have nonempty : first ≠ [] := by
    rintro rfl
    cases ends
  obtain ⟨front, e, run, rfl, joinsRun, parted⟩ := last_run first nonempty
  obtain ⟨others, rfl⟩ := List.head?_eq_some_iff.mp begins
  -- The last character of the first source may stand deep in its last run.
  rw [List.getLast?_append_of_ne_nil _ (by simp)] at ends
  have fusedRun : fuses e d = true := fuses_last joinsRun ends ▸ fused
  obtain ⟨before, last, next, after, ofFirst, ofSecond, ofBoth, kind, kindNext⟩ :=
    drained_fused joinsRun parted fusedRun others
  obtain ⟨same, merges⟩ := fuses_iff.mp fusedRun
  rw [← kind] at merges
  exact ⟨before, last, next, after, ofFirst, ofSecond, by rw [kind, kindNext, same], merges, ofBoth⟩

/-- The tokens of two sources put together are the tokens of the first and those of the
second, moved on by the length of the first. If the sources join, the last token of the
first and the first of the second, which are of one kind, are one token instead, at the
position of the former, with both texts, and with the value of the joined digits if they
are numbers. -/
theorem tokens_of_joined_sources (first second : String) :
    let front := (ofSource first).drain.value.1
    let back := (ofSource second).drain.value.1
    let whole := (ofSource (first ++ second)).tokenize.value.1
    let ended := moveOn first.length (.endOfFile second.length)
    ((ofSource first).tokenize.value.1 = front ++ [.endOfFile first.length] ∧
      (ofSource second).tokenize.value.1 = back ++ [.endOfFile second.length]) ∧
    (¬ Joins first second → whole = front ++ back.map (moveOn first.length) ++ [ended]) ∧
    (Joins first second → ∃ before last next after,
      front = before ++ [last] ∧ back = next :: after ∧ last.kind = next.kind ∧
        (last.kind = .number ∨ last.kind = .whiteSpace) ∧
        whole = before ++ fusion last next :: after.map (moveOn first.length) ++ [ended]) := by
  intro front back whole ended
  have source : whole = drained 0 (first.toList ++ second.toList) ++ [ended] := by
    simp only [whole, ended]
    rw [tokenize_drained, String.toList_append, String.length_append, Nat.add_comm]
    rfl
  refine ⟨⟨tokenize_drained first, tokenize_drained second⟩, ?_, ?_⟩
  · intro apart
    have moved := drained_moveOn 0 first.toList.length second.toList
    rw [source, drained_append (parted_of_not_joins apart), moved, String.length_toList]
    rfl
  · intro joins
    obtain ⟨before, last, next, after, ofFirst, ofSecond, same, merges, ofBoth⟩ :=
      drained_joined (joins_iff.mp joins)
    rw [String.length_toList] at ofBoth
    refine ⟨before, last, next, after, ofFirst, ofSecond, same, merges, ?_⟩
    rw [source, ofBoth]

/-- Digits of both sources make one number, and the token after them moves on. -/
theorem digits_join_across_sources : Joins "1+2" "34*" ∧ ∃ before last next after,
    (ofSource "1+2").drain.value.1 = before ++ [last] ∧
      (ofSource "34*").drain.value.1 = next :: after ∧ last.kind = next.kind ∧
      (last.kind = .number ∨ last.kind = .whiteSpace) ∧
      (ofSource "1+234*").tokenize.value.1 =
        before ++ fusion last next :: after.map (moveOn 3) ++ [moveOn 3 (.endOfFile 3)] := by
  have joins : Joins "1+2" "34*" :=
    ⟨'2', rfl, '3', rfl, .inl ⟨by decide +kernel, by decide +kernel⟩⟩
  exact ⟨joins, (tokens_of_joined_sources "1+2" "34*").2.2 joins⟩

end Summand.Joining
