import Mathlib.Data.List.DropRight
import Summand.Log.Filter
import Summand.Proofs.AsciiBytes
import Summand.Proofs.Scanning

/-! A log setting is read part by part, and a part is cut into pieces at places that are
counted in bytes. Reading breaks off where such a place lies within a character; whatever
else is wrong with a part only draws a complaint. A place can be off only because white
space was passed over in front of it, and even so not in a part that is all ASCII. -/
namespace Summand.SettingReading
open AsciiBytes Directive

/-- How many bytes some characters take. -/
def width (characters : List Char) : Nat := (characters.flatMap String.utf8EncodeChar).length

/-- A place in the bytes of a text that has no character on both sides. -/
def Between (text : String) (place : Nat) : Prop :=
  ∃ front back, text.toList = front ++ back ∧ place = width front

/-- Reading a part moves over places between characters only. -/
def Aligned (text : String) : Prop :=
  ∀ front, front <+: trimmed text → Between text (width front)

/-- A log setting that is read without breaking a character. -/
def Unbroken (setting : Option String) : Prop :=
  ∀ part ∈ Parts.ofText ',' (setting.getD ""), parse part ≠ .error .splitCharacter

/-- The place where the piece at hand begins, if one is at hand. -/
def start? : Stage → Option Nat
  | .head first | .span first | .field first | .level first => some first
  | .start | .fieldEnd | .closed => none

/-- Reading has got to a place between characters, and the piece at hand began at another one
in front of it. -/
structure Placed (text : String) (stage : Stage) (place : Nat) : Prop where
  between : Between text place
  begins : ∀ first ∈ start? stage, Between text first ∧ first ≤ place

/-- A step that gets to such a place, or fails without breaking a character. -/
def Keeps (text : String) (place : Nat) : Except Directive.Fault (Directive × Stage) → Prop
  | .ok (_, stage) => Placed text stage place
  | .error fault => fault ≠ .splitCharacter

variable {text : String} {directive : Directive} {stage : Stage} {first last place : Nat}

theorem width_append (front back : List Char) :
    width (front ++ back) = width front + width back := by
  simp [width]

theorem width_cons (c : Char) (characters : List Char) :
    width (c :: characters) = c.utf8Size + width characters := by
  simp [width, String.length_utf8EncodeChar]

theorem width_eq_zero {characters : List Char} (nothing : width characters = 0) :
    characters = [] := by
  cases characters with
  | nil => rfl
  | cons c characters =>
    have positive := c.utf8Size_pos
    rw [width_cons] at nothing
    omega

theorem width_ascii {characters : List Char} (ascii : ∀ c ∈ characters, Ascii c) :
    width characters = characters.length := by
  induction characters with
  | nil => rfl
  | cons c characters ih =>
    rw [List.forall_mem_cons] at ascii
    rw [width, List.flatMap_cons, List.length_append, encodeChar_ascii ascii.1]
    exact (congrArg (1 + ·) (ih ascii.2)).trans (Nat.add_comm ..)

theorem width_text (text : String) : width text.toList = text.utf8ByteSize := by
  rw [width, ← Utf8.encode, Utf8.encode_eq_toByteArray, Array.length_toList]
  rfl

theorem between_end (text : String) : Between text text.utf8ByteSize :=
  ⟨text.toList, [], (List.append_nil _).symm, (width_text text).symm⟩

theorem Between.le_end (between : Between text place) : place ≤ text.utf8ByteSize := by
  obtain ⟨front, back, split, rfl⟩ := between
  rw [← width_text, split, width_append]
  exact Nat.le_add_right ..

/-- Between two places between characters a piece can be cut out. -/
theorem cut_between (begins : Between text first) (ends : Between text last)
    (order : first ≤ last) : ∃ piece, cut text first last = .ok piece := by
  obtain ⟨front, back, split, rfl⟩ := begins
  obtain ⟨longer, rest, splitLonger, rfl⟩ := ends
  have inside : front <+: longer := by
    rcases List.prefix_or_prefix_of_prefix ⟨back, split.symm⟩ ⟨rest, splitLonger.symm⟩ with
      inside | ⟨middle, rfl⟩
    · exact inside
    · rw [width_append] at order
      have nothing : middle = [] := width_eq_zero (by omega)
      exact ⟨[], by simp [nothing]⟩
  obtain ⟨middle, rfl⟩ := inside
  have written : ∀ characters : List Char,
      Utf8.decode? (characters.flatMap String.utf8EncodeChar) = some (String.ofList characters) :=
    fun characters => Utf8.decode?_eq_some_iff.mpr (by rw [Utf8.encode, String.toList_ofList])
  refine ⟨String.ofList middle, ?_⟩
  rw [cut, Utf8.encode, splitLonger, List.flatMap_append, width, width, List.take_left,
    List.flatMap_append, List.take_left, List.drop_left, written, written]

/-- A piece that begins right behind a character of one byte begins between characters. -/
theorem placed_behind {c : Char} (between : Between text (place + c.utf8Size))
    (single : c.utf8Size = 1) (begins : ∀ first ∈ start? stage, first = place + 1) :
    Placed text stage (place + c.utf8Size) where
  between := between
  begins first member := by
    rw [begins first member, ← single]
    exact ⟨between, Nat.le_refl _⟩

theorem Placed.onward {c : Char} (placed : Placed text stage place)
    (between : Between text (place + c.utf8Size)) : Placed text stage (place + c.utf8Size) where
  between := between
  begins first member :=
    ⟨(placed.begins first member).1, Nat.le_add_right_of_le (placed.begins first member).2⟩

/-- What is at hand can be cut out, so only what is done with it matters. -/
theorem Placed.cut_then (placed : Placed text stage place) (begins : start? stage = some first)
    {next : String → Except Directive.Fault (Directive × Stage)} {behind : Nat}
    (keeps : ∀ piece, Keeps text behind (next piece)) :
    Keeps text behind (cut text first place >>= next) := by
  obtain ⟨piece, found⟩ :=
    cut_between (placed.begins first begins).1 placed.between (placed.begins first begins).2
  rw [found]
  exact keeps piece

theorem readField_keeps (field : String) : readField field ≠ .error .splitCharacter := by
  unfold readField
  split
  · split <;> simp
  · simp

/-- No step of reading breaks a character. -/
theorem advance_keeps (directive : Directive) {c : Char} (placed : Placed text stage place)
    (between : Between text (place + c.utf8Size)) :
    Keeps text (place + c.utf8Size) (advance text directive stage place c) := by
  unfold advance
  split
  -- A directive begins, with a bracket or with another character.
  · exact placed_behind between rfl (by rintro _ ⟨⟩; rfl)
  · split
    · refine ⟨between, ?_⟩
      rintro _ ⟨⟩
      exact ⟨placed.between, Nat.le_add_right ..⟩
    · exact Directive.Fault.noConfusion
  -- A target ends.
  · exact placed.cut_then rfl fun _ => placed_behind between rfl (by rintro _ ⟨⟩; rfl)
  · exact placed.cut_then rfl fun _ => placed_behind between rfl (by rintro _ ⟨⟩; rfl)
  -- A span ends.
  · exact placed.cut_then rfl fun _ => placed_behind between rfl (by rintro _ ⟨⟩)
  · exact placed.cut_then rfl fun _ => placed_behind between rfl (by rintro _ ⟨⟩; rfl)
  -- A field ends.
  · refine placed.cut_then rfl fun condition => ?_
    dsimp only
    split
    · exact Directive.Fault.noConfusion
    · cases read : readField condition with
      | error fault => exact fun same => readField_keeps condition (same ▸ read)
      | ok rule => exact placed_behind between rfl (by rintro _ ⟨⟩)
  -- Brackets close, and a level begins.
  · exact placed_behind between rfl (by rintro _ ⟨⟩)
  · exact placed_behind between rfl (by rintro _ ⟨⟩; rfl)
  · exact Directive.Fault.noConfusion
  · exact Directive.Fault.noConfusion
  -- The piece at hand goes on.
  · exact placed.onward between

theorem complete_keeps (placed : Placed text stage place) :
    complete text directive stage ≠ .error .splitCharacter := by
  have whole : ∀ first ∈ start? stage, ∃ piece, cut text first text.utf8ByteSize = .ok piece :=
    fun first begins => cut_between (placed.begins first begins).1 (between_end text)
      (placed.begins first begins).1.le_end
  cases stage with
  | head first =>
    obtain ⟨word, found⟩ := whole first rfl
    simp only [complete, found, bind, Except.bind]
    split <;> rintro ⟨⟩
  | level first =>
    obtain ⟨word, found⟩ := whole first rfl
    simp only [complete, found, bind, Except.bind]
    split
    · rintro ⟨⟩
    · split <;> rintro ⟨⟩
  | closed | start | span first | field first | fieldEnd => rintro ⟨⟩

/-- Reading over places between characters breaks none of them. -/
theorem readFrom_keeps {rest : List Char} (placed : Placed text stage place)
    (aligned : ∀ front, front <+: rest → Between text (place + width front)) :
    readFrom text directive stage place rest ≠ .error .splitCharacter := by
  induction rest generalizing directive stage place with
  | nil => exact complete_keeps placed
  | cons c rest ih =>
    have between : Between text (place + c.utf8Size) := by
      have first := aligned [c] ⟨rest, rfl⟩
      rwa [width_cons] at first
    have keeps := advance_keeps directive placed between
    rw [readFrom]
    cases stepped : advance text directive stage place c with
    | error fault =>
      rw [stepped] at keeps
      exact fun same => keeps (Except.error.inj same)
    | ok next =>
      rw [stepped] at keeps
      refine ih keeps fun front inside => ?_
      have further := aligned (c :: front) (List.cons_prefix_cons.mpr ⟨rfl, inside⟩)
      rwa [width_cons, ← Nat.add_assoc] at further

theorem parse_keeps (aligned : Aligned text) : parse text ≠ .error .splitCharacter := by
  refine readFrom_keeps ⟨aligned [] List.nil_prefix, ?_⟩ fun front inside => ?_
  · rintro _ ⟨⟩
  · rw [Nat.zero_add]
    exact aligned front inside

/-- Where no white space is passed over in front, places are those in the text itself. -/
theorem aligned_of_visible (visible : ∀ c ∈ text.toList.head?, isBlank c = false) :
    Aligned text := by
  have kept : text.toList.dropWhile isBlank = text.toList :=
    (Scanning.run_stops (show ∀ c ∈ [], isBlank c = true by simp) visible).2
  intro front inside
  have whole : trimmed text <+: text.toList := by
    rw [trimmed, kept]
    exact List.rdropWhile_prefix isBlank text.toList
  obtain ⟨back, split⟩ := inside.trans whole
  exact ⟨front, back, split.symm, rfl⟩

/-- In ASCII every place is between characters. -/
theorem aligned_of_ascii (ascii : ∀ c ∈ text.toList, Ascii c) : Aligned text := by
  intro front inside
  have part : trimmed text <:+: text.toList :=
    (List.rdropWhile_prefix isBlank _).isInfix.trans (List.dropWhile_suffix isBlank).isInfix
  have inner : front <:+: text.toList := inside.isInfix.trans part
  have counted : width front = front.length :=
    width_ascii fun c member => ascii c (inner.subset member)
  refine ⟨text.toList.take front.length, text.toList.drop front.length,
    (List.take_append_drop ..).symm, ?_⟩
  rw [counted, width_ascii fun c member => ascii c (List.mem_of_mem_take member),
    List.length_take, Nat.min_eq_left inner.length_le]

theorem message?_eq_none {fault : Directive.Fault} :
    fault.message? = none ↔ fault = .splitCharacter := by
  constructor
  · intro silent
    cases fault with
    | splitCharacter => rfl
    | malformed | unknownLevel => cases silent
    | badPattern fault => cases fault <;> cases silent
  · rintro rfl
    rfl

/-- Reading breaks off exactly if a character of some part is broken. -/
theorem ofParts_aborted (parts : List String) : (LogSetting.ofParts parts).aborted = true ↔
    ∃ part ∈ parts, parse part = .error .splitCharacter := by
  induction parts with
  | nil => simp [LogSetting.ofParts]
  | cons part parts ih =>
    simp only [LogSetting.ofParts, List.mem_cons, exists_eq_or_imp]
    cases read : parse part with
    | ok directive => simpa using ih
    | error fault =>
      cases message : fault.message? with
      | none =>
        obtain rfl := message?_eq_none.mp message
        exact iff_of_true rfl (.inl rfl)
      | some complaint =>
        have other : fault ≠ .splitCharacter := by
          rintro rfl
          cases message
        simpa [message, other] using ih

theorem read_aborted (setting : Option String) :
    (LogSetting.read setting).aborted = true ↔ ¬ Unbroken setting := by
  rw [LogSetting.read, ofParts_aborted, Unbroken]
  push Not
  constructor
  · rintro ⟨part, member, broken⟩
    exact ⟨part, List.mem_of_mem_filter member, broken⟩
  · rintro ⟨part, member, broken⟩
    refine ⟨part, List.mem_filter.mpr ⟨member, ?_⟩, broken⟩
    rw [Bool.not_eq_true', Bool.eq_false_iff, ne_eq, String.isEmpty_iff]
    rintro rfl
    exact parse_keeps (aligned_of_ascii (by simp)) broken

/-- A setting is read whole if no part of it both begins with white space and has a character
beyond ASCII. -/
theorem unbroken_of_plain {setting : Option String}
    (plain : ∀ part ∈ Parts.ofText ',' (setting.getD ""),
      (∀ c ∈ part.toList.head?, isBlank c = false) ∨ ∀ c ∈ part.toList, Ascii c) :
    Unbroken setting := by
  intro part member
  rcases plain part member with visible | ascii
  · exact parse_keeps (aligned_of_visible visible)
  · exact parse_keeps (aligned_of_ascii ascii)

end Summand.SettingReading
