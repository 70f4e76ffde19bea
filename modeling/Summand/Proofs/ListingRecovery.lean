import Summand.Proofs.Dialogue
import Summand.Proofs.Segmentation
import Summand.Proofs.Spelling

/-! A listing loses nothing of its source. Texts are listed as they are, so that a
line of the listing may be cut by line feeds, and a text may look like the end of
its line or like further lines. But the name in front of a text says how far the
text goes: a number up to the first character that is not numeric, white space up
to the first that is not blank, and any other text has one character. -/
namespace Summand.ListingRecovery
open Delivery Dialogue Evaluation Scanning Segmentation Spelling

/-- The apostrophe that stands on both sides of a text. -/
def quote : Char := '\x27'

/-- Parts a text of some kind from what follows it. -/
def readText : Kind → List Char → List Char × List Char
  | .number, text => (text.takeWhile isNumeric, text.dropWhile isNumeric)
  | .whiteSpace, text => (text.takeWhile isBlank, text.dropWhile isBlank)
  | _, text => (text.take 1, text.drop 1)

/-- Reads what follows the text in a line: nothing, or a value. -/
def readField (field : List Char) : Option Int :=
  (field.dropPrefix? " | val=".toList).map valueOf

/-- Reads the line in front of a listing. Where its token stands in the source is
known from the lines before. -/
def readLine? (position : Nat) (listing : List Char) : Option (Token × List Char) := do
  let (kind, rest) ← leadingKind? listing
  let rest ← rest.dropPrefix? " : '".toList
  let (text, rest) := readText kind rest
  let rest ← rest.dropPrefix? [quote]
  let value := readField (rest.takeWhile (· != '\n'))
  pure ({ kind, position, text := some (String.ofList text), value },
    (rest.dropWhile (· != '\n')).drop 1)

theorem readText_rest (kind : Kind) (text : List Char) :
    (readText kind text).2.length ≤ text.length := by
  unfold readText
  split
  · exact (List.dropWhile_sublist _).length_le
  · exact (List.dropWhile_sublist _).length_le
  · exact (List.drop_sublist ..).length_le

theorem dropPrefix?_length {text front rest : List Char} (cut : text.dropPrefix? front = some rest) :
    text.length = front.length + rest.length := by
  obtain ⟨found, rfl, same⟩ := List.dropPrefix?_eq_some_iff.mp cut
  rw [List.length_append, eq_of_beq same]

theorem readLine?_shorter {position : Nat} {listing rest : List Char} {token : Token}
    (read : readLine? position listing = some (token, rest)) : rest.length < listing.length := by
  simp only [readLine?, Option.bind_eq_bind, Option.bind_eq_some_iff, Option.pure_def,
    Option.some.injEq, Prod.mk.injEq] at read
  obtain ⟨⟨kind, behindKind⟩, named, behindFront, front, behindText, closed, _, rfl⟩ := read
  have named : behindKind.length ≤ listing.length := by
    obtain ⟨_, _, same⟩ := Option.map_eq_some_iff.mp named
    cases same
    exact (List.dropWhile_sublist _).length_le
  have front := dropPrefix?_length front
  have text := readText_rest kind behindFront
  have closed := dropPrefix?_length closed
  have last : ((behindText.dropWhile (· != '\n')).drop 1).length ≤ behindText.length :=
    ((List.drop_sublist ..).trans (List.dropWhile_sublist _)).length_le
  have wide : " : '".toList.length = 4 := by decide
  dsimp only at front text closed
  omega

/-- Reads the lines of a listing. -/
def readLines? (position : Nat) (listing : List Char) : Option (List Token) :=
  if listing = [] then some []
  else
    match _ : readLine? position listing with
    | none => none
    | some (token, rest) =>
      (readLines? (position + (characters token).length) rest).map (token :: ·)
termination_by listing.length
decreasing_by exact readLine?_shorter ‹_›

/-- Reads the tokens off the bytes of a listing. -/
def recover? (bytes : List UInt8) : Option (List Token) := do
  let text ← Utf8.decode? bytes
  readLines? 0 text.toList

/-- What follows the text in a line, up to the line end. -/
def field : Option Int → String
  | some value => " | val=" ++ Numeral.write value
  | none => ""

theorem readField_field (value : Option Int) : readField (field value).toList = value := by
  cases value with
  | none => simp [readField, field, List.dropPrefix?]
  | some value =>
    rw [readField, field, String.toList_append, List.dropPrefix?_append_of_beq _ (by simp),
      Option.map_some, valueOf_write]

theorem field_plain (value : Option Int) : ∀ c ∈ (field value).toList, (c != '\n') = true := by
  intro c member
  cases value with
  | none => simp [field] at member
  | some value =>
    have label : ∀ c ∈ " | val=".toList, (c != '\n') = true := by simp
    rw [field, String.toList_append] at member
    rcases List.mem_append.mp member with member | member
    · exact label c member
    · rcases write_characters value c member with rfl | digit
      · decide
      · exact bne_iff_ne.mpr fun same => by simp [same] at digit

/-- A text ends at the apostrophe behind it. -/
theorem readText_quote {kind : Kind} {text rest : List Char} (fits : Fits kind text) :
    readText kind (text ++ quote :: rest) = (text, quote :: rest) := by
  have plain : isNumeric quote = false ∧ isBlank quote = false := by decide
  cases kind with
  | number =>
    obtain ⟨inside, behind⟩ := run_stops fits
      (show ∀ c ∈ (quote :: rest).head?, isNumeric c = false by simp [plain])
    rw [readText, inside, behind]
  | whiteSpace =>
    obtain ⟨inside, behind⟩ := run_stops fits
      (show ∀ c ∈ (quote :: rest).head?, isBlank c = false by simp [plain])
    rw [readText, inside, behind]
  | bad =>
    obtain ⟨c, rfl, _⟩ := fits
    rfl
  | plus | minus | star | slash | leftParen | rightParen =>
    cases fits
    rfl
  | endOfFile | numberExpression | binaryExpression => cases fits

/-- The characters of a token's line. -/
def line (token : Token) : List Char := (token.listing ++ ["\n"]).flatMap String.toList

theorem line_eq {token : Token} {text : String} (spelled : token.text = some text) : line token =
    token.kind.name.toList ++ (" : '".toList ++ (text.toList ++
      (quote :: ((field token.value).toList ++ ['\n'])))) := by
  obtain ⟨kind, position, _, value⟩ := token
  cases spelled
  cases value <;> simp [line, Token.listing, field, quote]

/-- A line is read as its token, whatever follows it. -/
theorem readLine?_line {token : Token} {text : String} (spelled : token.text = some text)
    (fits : Fits token.kind text.toList) (rest : List Char) :
    readLine? token.position (line token ++ rest) = some (token, rest) := by
  obtain ⟨value, behind⟩ := run_stops (field_plain token.value)
    (show ∀ c ∈ ('\n' :: rest).head?, (c != '\n') = false by simp)
  have closed : ∀ later, (quote :: later).dropPrefix? [quote] = some later := by
    simp [List.dropPrefix?]
  rw [line_eq spelled]
  simp only [List.append_assoc, List.cons_append, List.nil_append]
  rw [readLine?, leadingKind?_name token.kind (by simp), Option.bind_eq_bind, Option.bind_some]
  dsimp only
  rw [List.dropPrefix?_append_of_beq _ (by simp), Option.bind_eq_bind, Option.bind_some,
    readText_quote fits]
  dsimp only
  rw [closed, Option.bind_some, value, behind, readField_field]
  obtain ⟨kind, position, _, value⟩ := token
  cases spelled
  simp

/-- The lines of a correct cut are read as the cut. -/
theorem readLines?_cut {start : Nat} {source : List Char} {pieces : List Token}
    (cut : Cut start source pieces) : readLines? start (pieces.flatMap line) = some pieces := by
  induction pieces generalizing start source with
  | nil => simp [readLines?]
  | cons piece rest ih =>
    obtain ⟨text, spelled, _⟩ := cut.present piece (by simp)
    have place : piece.position = start := by simpa using cut.placed [] piece rest rfl
    have spelt : characters piece = text.toList := by simp [characters, spelled]
    have read := readLine?_line spelled (spelt ▸ cut.fitting piece (by simp)) (rest.flatMap line)
    rw [place] at read
    have nonempty : line piece ++ rest.flatMap line ≠ [] := by simp [line]
    have behind := ih cut.tail
    rw [List.flatMap_cons, readLines?, if_neg nonempty]
    split
    · rename_i missed
      rw [read] at missed
      cases missed
    · rename_i found
      cases read.symm.trans found
      rw [behind]
      rfl

/-- The bytes of the listing of a source. -/
def listing (source : String) : List UInt8 :=
  (listed (TokenStream.ofSource source).drain.value.1).flatMap Utf8.encode

theorem listing_decodes (source : String) : Utf8.decode? (listing source) =
    some (String.ofList ((TokenStream.ofSource source).drain.value.1.flatMap line)) := by
  rw [listing, decode?_pieces, listed, List.flatMap_assoc]
  rfl

/-- The tokens of a source are read off its listing. -/
theorem recover?_listing (source : String) :
    recover? (listing source) = some (TokenStream.ofSource source).drain.value.1 := by
  rw [recover?, listing_decodes, Option.bind_eq_bind, Option.bind_some, String.toList_ofList]
  exact readLines?_cut (drain_cut 0 source.toList).1

/-- Sources with the same listing are the same. -/
theorem listing_injective {source other : String} (same : listing source = listing other) :
    source = other := by
  have joined := fun source : String => (drain_cut 0 source.toList).1.joined
  have read := (recover?_listing source).symm.trans (same ▸ recover?_listing other)
  have texts := congrArg (List.flatMap characters) (Option.some.inj read)
  exact String.toList_inj.mp ((joined source).symm.trans (texts.trans (joined other)))

/-- A listing loses nothing. All tokens of a source before the end of file, with
their kinds, places, texts and values, are read off what is written for it, and
their texts join to the source again; so no two sources have the same listing. -/
theorem listing_determines_source (source : String) :
    Delivers (Session.listTokens source) (.ok ()) (listing source) 0 ∧
      (∃ tokens, (TokenStream.ofSource source).tokenize.value.1 =
          tokens ++ [.endOfFile source.length] ∧
        recover? (listing source) = some tokens ∧ tokens.flatMap characters = source.toList) ∧
      ∀ other, listing other = listing source → other = source := by
  have joined := (drain_cut 0 source.toList).1.joined
  refine ⟨?_, ⟨_, tokenize_eq source, recover?_listing source, joined⟩, ?_⟩
  · exact delivers_carried (listStream_carries _) (writes_pieces _).emits
  · exact fun other same => listing_injective same

end Summand.ListingRecovery
