import Summand.Cli.Outcome
import Summand.Proofs.Printing
import Summand.Proofs.SettingReading

/-! A command line states choices, each once, and there are many ways to put every one of
them. Reading takes them up one after another, and an expression that follows its option
stays open until something settles it; but what it comes to, once settled, depends on the
choices alone. So all ways of stating the same choices ask for the same session. -/
namespace Summand.CommandLines
open AsciiBytes Cli Evaluation Printing SettingReading

/-- Something that a command line can ask for. -/
inductive Choice where
  | tokens
  | noColor
  | expression (value : String)
  deriving Repr, DecidableEq

/-- The parameter that a choice is made by. -/
def Choice.parameter : Choice → Parameter
  | tokens => .tokens
  | noColor => .noColor
  | expression _ => .expression

/-- The choices that options consist of. -/
def choices (options : Options) : List Choice :=
  (if options.tokens then [.tokens] else []) ++ (if options.noColor then [.noColor] else []) ++
    options.expression.toList.map .expression

/-- A way to state a choice, or two choices in one argument. -/
inductive Phrase where
  /-- `-t`, or `--tokens`. -/
  | tokens (long : Bool)
  /-- `--no-color`. -/
  | noColor
  /-- `-x V` or `--expression V`, where `V` is an argument of its own. -/
  | followed (long : Bool) (value : String) (plain : value.toList.head? ≠ some '-')
  /-- `-xV`, or `-txV`. -/
  | attached (bundled : Bool) (value : String) (present : value ≠ "")
    (plain : value.toList.head? ≠ some '=')
  /-- `-x=V`, or `-tx=V`. -/
  | assigned (bundled : Bool) (value : String)
  /-- `--expression=V`. -/
  | assignedLong (value : String)

/-- The arguments that a phrase is made of. -/
def Phrase.arguments : Phrase → List String
  | tokens long => [if long then "--tokens" else "-t"]
  | noColor => ["--no-color"]
  | followed long value _ => [if long then "--expression" else "-x", value]
  | attached bundled value _ _ => [(if bundled then "-tx" else "-x") ++ value]
  | assigned bundled value => [(if bundled then "-tx=" else "-x=") ++ value]
  | assignedLong value => ["--expression=" ++ value]

/-- The choices that a phrase states. -/
def Phrase.choices : Phrase → List Choice
  | tokens _ => [.tokens]
  | noColor => [.noColor]
  | followed _ value _ | assignedLong value => [.expression value]
  | attached bundled value _ _ | assigned bundled value =>
    (if bundled then [.tokens] else []) ++ [.expression value]

/-- The command line of some phrases, which a double dash may end. -/
def commandLine (phrases : List Phrase) (closed : Bool) : List String :=
  phrases.flatMap Phrase.arguments ++ if closed then ["--"] else []

/-- Phrases that state every choice of some options once, in any order, and no other. -/
def States (phrases : List Phrase) (options : Options) : Prop :=
  (phrases.flatMap Phrase.choices).Perm (choices options)

/-- A choice that options leave open. -/
def Open (options : Options) (choice : Choice) : Prop :=
  choice.parameter ∉ (choices options).map Choice.parameter

/-- The session that a command line asks for where no color can be shown: one expression, or the
lines of the input. -/
def asked (options : Options) (input : List UInt8) : Session Unit :=
  let view : View := { mode := if options.tokens then .tokens else .tree, color := false }
  match options.expression with
  | some expression => view.evaluate expression
  | none => view.run (.ofBytes input none)

/-- The exit status for an outcome of a session. -/
def status : Except IoError Unit → Nat
  | .ok () => 0
  | .error _ => 1

/-- Running the program writes what the session that is asked for writes, and exits as it ends. -/
def Obeys (options : Options) (arguments : List String) (input : List UInt8)
    (setting : Option String) : Prop :=
  let outcome := Outcome.ofArguments arguments input setting
  outcome.output = printed (asked options input) ∧
    outcome.exit = status (trial (asked options input) {}).1

/-- Whether options have made a choice. -/
def Made (options : Options) : Choice → Prop
  | .tokens => options.tokens = true
  | .noColor => options.noColor = true
  | .expression value => options.expression = some value

/-- Options with one more choice. -/
def add (options : Options) : Choice → Options
  | .tokens => { options with tokens := true }
  | .noColor => { options with noColor := true }
  | .expression value => { options with expression := some value }

/-- Options become others by choices that are open when their turn comes. -/
def Adds : Options → List Choice → Options → Prop
  | before, [], after => before = after
  | before, choice :: later, after => Open before choice ∧ Adds (add before choice) later after

variable {options before middle after : Options} {choice : Choice} {first later : List Choice}
  {progress next : Progress}

theorem choices_mem : choice ∈ choices options ↔ Made options choice := by
  cases choice <;> simp [choices, Made]

/-- Options are settled by their choices. -/
theorem choices_inj (same : (choices before).Perm (choices after)) : before = after := by
  have made : ∀ choice, Made before choice ↔ Made after choice := fun choice => by
    rw [← choices_mem, ← choices_mem, same.mem_iff]
  have tokens : before.tokens = after.tokens := Bool.eq_iff_iff.mpr (made .tokens)
  have noColor : before.noColor = after.noColor := Bool.eq_iff_iff.mpr (made .noColor)
  have expression : before.expression = after.expression :=
    Option.ext fun value => made (.expression value)
  cases before
  cases after
  simp_all

theorem choices_once (options : Options) : ((choices options).map Choice.parameter).Nodup := by
  obtain ⟨tokens, noColor, expression⟩ := options
  cases tokens <;> cases noColor <;> cases expression <;> simp [choices, Choice.parameter]

theorem choices_add (opened : Open options choice) :
    (choices (add options choice)).Perm (choices options ++ [choice]) := by
  obtain ⟨tokens, noColor, expression⟩ := options
  cases choice with
  | tokens =>
    cases tokens with
    | false => exact (List.perm_append_singleton ..).symm
    | true => exact absurd List.mem_cons_self opened
  | noColor =>
    cases noColor with
    | false =>
      simp only [choices, add, if_true, Bool.false_eq_true, if_false, List.append_nil,
        List.append_assoc]
      exact List.perm_append_comm.append_left _
    | true => simp [Open, choices, Choice.parameter] at opened
  | expression value =>
    cases expression with
    | none =>
      simp only [choices, add, Option.toList_none, List.map_nil, List.append_nil]
      exact List.Perm.refl _
    | some other => simp [Open, choices, Choice.parameter] at opened

/-- Choices that make up some options together with those made already are open when their
turn comes. -/
theorem adds_of_perm (made : (choices before ++ later).Perm (choices after)) :
    Adds before later after := by
  induction later generalizing before with
  | nil =>
    rw [List.append_nil] at made
    exact choices_inj made
  | cons choice later ih =>
    have once := (made.map Choice.parameter).nodup_iff.mpr (choices_once after)
    rw [List.map_append, List.nodup_append] at once
    have opened : Open before choice := fun already =>
      once.2.2 _ already choice.parameter List.mem_cons_self rfl
    refine ⟨opened, ih ?_⟩
    have turned := (choices_add opened).append_right later
    rw [List.append_assoc, List.singleton_append] at turned
    exact turned.trans made

theorem Adds.split (adds : Adds before (first ++ later) after) :
    ∃ middle, Adds before first middle ∧ Adds middle later after := by
  induction first generalizing before with
  | nil => exact ⟨before, rfl, adds⟩
  | cons choice first ih =>
    obtain ⟨opened, behind⟩ := adds
    obtain ⟨middle, front, back⟩ := ih behind
    exact ⟨middle, ⟨opened, front⟩, back⟩

/-- A long option is taken, and reading goes on behind it. -/
theorem finish_long {argument : String} {c : Char} {name : List Char}
    (spelled : argument.toList = '-' :: '-' :: c :: name)
    (taken : progress.takeLong (c :: name) = .ok (.proceed next)) (rest : List String) :
    progress.finish (argument :: rest) = next.finish rest := by
  simp [Progress.finish, spelled, taken, bind, Except.bind]

/-- So is a bundle of letters. -/
theorem finish_letters {argument : String} {letter : Char} {letters : List Char}
    (single : letter ≠ '-') (spelled : argument.toList = '-' :: letter :: letters)
    (taken : progress.takeLetters (letter :: letters) = .ok (.proceed next)) (rest : List String) :
    progress.finish (argument :: rest) = next.finish rest := by
  simp [Progress.finish, spelled, single, taken, bind, Except.bind]

/-- So is an argument that does not look like an option. -/
theorem finish_word {word : String} (plain : word.toList.head? ≠ some '-')
    (taken : progress.takeWord word = .ok (.proceed next)) (rest : List String) :
    progress.finish (word :: rest) = next.finish rest := by
  cases spelled : word.toList with
  | nil => simp [Progress.finish, spelled, taken, bind, Except.bind]
  | cons c characters =>
    have other : c ≠ '-' := by simpa [spelled] using plain
    simp [Progress.finish, spelled, other, taken, bind, Except.bind]

/-- Where a choice is open, its parameter has not made any. -/
theorem open_unmade (opened : Open options choice) {other : Choice}
    (same : other.parameter = choice.parameter) : ¬ Made options other := by
  intro made
  have stated : other.parameter ∈ (choices options).map Choice.parameter :=
    List.mem_map_of_mem (choices_mem.mpr made)
  exact opened (same ▸ stated)

/-- A choice without a value is made by its parameter alone. -/
theorem take_flag (settled : progress.settle = .ok before) (opened : Open before choice)
    (flag : choice.parameter ≠ .expression) : progress.takeParameter choice.parameter =
      .ok (.proceed { options := add before choice }) := by
  have unmade := open_unmade opened rfl
  cases choice with
  | expression => exact absurd rfl flag
  | tokens | noColor =>
    rw [Made, Bool.not_eq_true] at unmade
    simp [Progress.takeParameter, Choice.parameter, settled, unmade, add, bind, Except.bind]

theorem await_expression (settled : progress.settle = .ok before) :
    progress.takeParameter .expression =
      .ok (.proceed { options := before, pending := some none }) := by
  simp [Progress.takeParameter, settled, bind, Except.bind]

theorem set_expression {value : String} (opened : Open before (.expression value)) :
    before.setExpression value = .ok (add before (.expression value)) := by
  have none : before.expression = none := by
    rw [Option.eq_none_iff_forall_ne_some]
    exact fun other => show ¬ Made before (.expression other) from open_unmade opened rfl
  simp [Options.setExpression, none, add]

theorem take_attached {value : String} (settled : progress.settle = .ok before)
    (opened : Open before (.expression value)) :
    progress.takeAttached .expression value.toList =
      .ok (.proceed { options := add before (.expression value) }) := by
  simp [Progress.takeAttached, settled, String.ofList_toList, set_expression opened, bind,
    Except.bind, pure, Except.pure]

theorem letters_assigned (value : List Char) :
    progress.takeLetters ('x' :: '=' :: value) = progress.takeAttached .expression value := by
  have named : Parameter.ofLetter? 'x' = some .expression := rfl
  simp [Progress.takeLetters, named]

theorem letters_attached {value : List Char} (present : value ≠ [])
    (plain : value.head? ≠ some '=') :
    progress.takeLetters ('x' :: value) = progress.takeAttached .expression value := by
  have named : Parameter.ofLetter? 'x' = some .expression := rfl
  cases value with
  | nil => exact absurd rfl present
  | cons c value =>
    -- Rules out the case where an equals sign is cut off.
    have other : c ≠ '=' := by simpa using plain
    simp [Progress.takeLetters, named]

theorem letters_tokens (settled : progress.settle = .ok before) (opened : Open before .tokens)
    (rest : List Char) : progress.takeLetters ('t' :: rest) =
      Progress.takeLetters { options := add before .tokens } rest := by
  have named : Parameter.ofLetter? 't' = some .tokens := rfl
  have taken : progress.takeParameter .tokens = _ := take_flag settled opened (by decide)
  simp [Progress.takeLetters, named, taken, bind, Except.bind]

/-- Reading takes up the choices of an argument or two: it goes on behind them, and what it has
come to, once settled, is the options with those choices. -/
def Reads (progress : Progress) (arguments : List String) (after : Options) : Prop :=
  ∃ next : Progress, next.settle = .ok after ∧
    ∀ rest, progress.finish (arguments ++ rest) = next.finish rest

/-- Letters that attach an expression are read, alone or behind the letter for tokens. -/
theorem bundle_read {argument value : String} {tail : List Char} (bundled : Bool)
    (attaches : ∀ progress : Progress,
      progress.takeLetters ('x' :: tail) = progress.takeAttached .expression value.toList)
    (spelled : argument.toList = (if bundled then ['-', 't', 'x'] else ['-', 'x']) ++ tail)
    (settled : progress.settle = .ok before)
    (adds : Adds before ((if bundled then [.tokens] else []) ++ [.expression value]) after) :
    Reads progress [argument] after := by
  cases bundled with
  | false =>
    obtain ⟨opened, rfl⟩ := adds
    exact ⟨_, rfl, finish_letters (by decide) spelled
      ((attaches progress).trans (take_attached settled opened))⟩
  | true =>
    obtain ⟨opened, openedLater, rfl⟩ := adds
    have taken := (letters_tokens settled opened ('x' :: tail)).trans
      ((attaches _).trans (take_attached rfl openedLater))
    exact ⟨_, rfl, finish_letters (by decide) spelled taken⟩

/-- Every phrase is read as the choices that it states. -/
theorem phrase_read (phrase : Phrase) (settled : progress.settle = .ok before)
    (adds : Adds before phrase.choices after) : Reads progress phrase.arguments after := by
  cases phrase with
  | tokens long =>
    obtain ⟨opened, rfl⟩ := adds
    refine ⟨{ options := add before .tokens }, rfl, ?_⟩
    cases long with
    | false =>
      have spelled : "-t".toList = ['-', 't'] := rfl
      exact finish_letters (by decide) spelled (letters_tokens settled opened [])
    | true =>
      have spelled : "--tokens".toList = '-' :: '-' :: 't' :: "okens".toList := rfl
      exact finish_long spelled (take_flag settled opened (by decide))
  | noColor =>
    obtain ⟨opened, rfl⟩ := adds
    have spelled : "--no-color".toList = '-' :: '-' :: 'n' :: "o-color".toList := rfl
    exact ⟨_, rfl, finish_long spelled (take_flag settled opened (by decide))⟩
  | followed long value plain =>
    obtain ⟨opened, rfl⟩ := adds
    refine ⟨{ options := before, pending := some (some value) }, set_expression opened,
      fun rest => ?_⟩
    have waits : progress.finish ((if long then "--expression" else "-x") :: value :: rest) =
        Progress.finish { options := before, pending := some none } (value :: rest) := by
      cases long with
      | false =>
        have spelled : "-x".toList = ['-', 'x'] := rfl
        have named : Parameter.ofLetter? 'x' = some .expression := rfl
        refine finish_letters (by decide) spelled ?_ (value :: rest)
        simp [Progress.takeLetters, named, await_expression settled, bind, Except.bind]
      | true =>
        have spelled : "--expression".toList = '-' :: '-' :: 'e' :: "xpression".toList := rfl
        exact finish_long spelled (await_expression settled) (value :: rest)
    exact waits.trans (finish_word plain rfl rest)
  | attached bundled value present plain =>
    refine bundle_read bundled (fun _ => letters_attached (by simpa using present) plain) ?_
      settled adds
    cases bundled <;> simp
  | assigned bundled value =>
    refine bundle_read bundled (fun _ => letters_assigned value.toList) ?_ settled adds
    cases bundled <;> simp
  | assignedLong value =>
    obtain ⟨opened, rfl⟩ := adds
    have spelled : ("--expression=" ++ value).toList =
        '-' :: '-' :: 'e' :: ("xpression=".toList ++ value.toList) := by simp
    exact ⟨_, rfl, finish_long spelled (take_attached settled opened)⟩

/-- A command line is read as the choices of its phrases, in whatever state reading is, once
that is settled. -/
theorem phrases_read (phrases : List Phrase) (closed : Bool)
    (settled : progress.settle = .ok before)
    (adds : Adds before (phrases.flatMap Phrase.choices) after) :
    progress.finish (commandLine phrases closed) = .ok (.run after) := by
  induction phrases generalizing progress before with
  | nil =>
    obtain rfl := adds
    cases closed <;>
      simp [commandLine, Progress.finish, settled, bind, Except.bind, pure, Except.pure]
  | cons phrase phrases ih =>
    obtain ⟨middle, front, back⟩ := Adds.split adds
    obtain ⟨next, settledNext, reads⟩ := phrase_read phrase settled front
    rw [commandLine, List.flatMap_cons, List.append_assoc, reads]
    exact ih settledNext back

/-- What a command line states is what it asks for. -/
theorem ofArguments_states {phrases : List Phrase} (stated : States phrases options)
    (closed : Bool) : Command.ofArguments (commandLine phrases closed) = .ok (.run options) :=
  phrases_read phrases closed rfl (adds_of_perm stated)

theorem session_asked (options : Options) (input : List UInt8) :
    options.session false (.ofBytes input none) = asked options input := by
  simp only [Options.session, Options.view, Bool.and_false]
  rfl

theorem ofSession_ends (session : Session Unit) (setting : LogSetting) :
    (Outcome.ofSession session setting).output = printed session ∧
      (Outcome.ofSession session setting).exit = status (trial session {}).1 := by
  unfold Outcome.ofSession printed trial
  cases session {} <;> exact ⟨rfl, rfl⟩

theorem status_le (outcome : Except IoError Unit) : status outcome ≤ 1 := by
  cases outcome with
  | ok => exact Nat.zero_le 1
  | error => exact Nat.le_refl 1

/-- The program holds the session that is asked for, unless reading the log setting breaks off
before. -/
theorem outcome_states {phrases : List Phrase} (stated : States phrases options) (closed : Bool)
    (input : List UInt8) (setting : Option String) :
    Outcome.ofArguments (commandLine phrases closed) input setting =
      if (LogSetting.read setting).aborted then .ofAborted (LogSetting.read setting)
      else .ofSession (asked options input) (LogSetting.read setting) := by
  simp only [Outcome.ofArguments, ofArguments_states stated closed, session_asked]

/-- All command lines that state the same choices, each once, in any order and in any spelling,
are read as the same options and do the same: show the expression they give, whatever the
input, or else the lines of the input, as trees or as tokens and without color, and exit with
0, or with 1 if the session fails. They do so exactly under the log settings that are read
without breaking a character; under any other they write nothing and exit with 101. A setting
has to have white space in front of a part with a character beyond ASCII to be one of those. -/
theorem command_lines_alike (options : Options) (phrases : List Phrase) (closed : Bool)
    (stated : States phrases options) (input : List UInt8) (setting : Option String) :
    let arguments := commandLine phrases closed
    let outcome := Outcome.ofArguments arguments input setting
    Command.ofArguments arguments = .ok (.run options) ∧
      (Obeys options arguments input setting ↔ Unbroken setting) ∧
      (¬ Unbroken setting → outcome.output = [] ∧ outcome.exit = 101) ∧
      ((∀ part ∈ Parts.ofText ',' (setting.getD ""), (∀ c ∈ part.toList.head?, isBlank c = false) ∨
        ∀ c ∈ part.toList, Ascii c) → Unbroken setting) := by
  intro arguments outcome
  have found := outcome_states stated closed input setting
  have stops : ¬ Unbroken setting → outcome.output = [] ∧ outcome.exit = 101 := by
    intro broken
    rw [if_pos ((read_aborted setting).mpr broken)] at found
    simp only [outcome, arguments, found]
    exact ⟨rfl, rfl⟩
  refine ⟨ofArguments_states stated closed, ⟨fun obeys => ?_, fun unbroken => ?_⟩, stops,
    unbroken_of_plain⟩
  · by_contra broken
    have ended := status_le (trial (asked options input) {}).1
    rw [← obeys.2, (stops broken).2] at ended
    omega
  · rw [if_neg (mt (read_aborted setting).mp (not_not.mpr unbroken))] at found
    rw [Obeys, found]
    exact ofSession_ends _ _

/-- An expression that looks like an option may be bundled with the letter for tokens; white
space in a log setting does no harm by itself, but in front of a character of two bytes it
overrules the same command line. -/
theorem bundled_line_obeyed :
    let options : Options := { tokens := true, noColor := true, expression := some "-1" }
    let phrases : List Phrase := [.noColor, .attached true "-1" (by decide) (by decide)]
    let arguments := ["--no-color", "-tx-1", "--"]
    States phrases options ∧ commandLine phrases true = arguments ∧
      (∀ input, Obeys options arguments input (some "ttc=debug, info")) ∧
      ¬ Unbroken (some " é=info") ∧
        ∀ input, (Outcome.ofArguments arguments input (some " é=info")).exit = 101 := by
  intro options phrases arguments
  have stated : States phrases options := by
    unfold States
    decide
  have ascii : ∀ part ∈ Parts.ofText ',' "ttc=debug, info", ∀ c ∈ part.toList, Ascii c := by
    have checked : (Parts.ofText ',' "ttc=debug, info").all (·.toList.all (Ascii ·)) = true := by
      decide +kernel
    simpa only [List.all_eq_true, decide_eq_true_eq] using checked
  have broken : ¬ Unbroken (some " é=info") := fun unbroken =>
    unbroken " é=info" (by decide +kernel) (by decide +kernel)
  refine ⟨stated, rfl, fun input => ?_, broken, fun input => ?_⟩
  · obtain ⟨_, obeys, _, plain⟩ :=
      command_lines_alike options phrases true stated input (some "ttc=debug, info")
    exact obeys.mpr (plain fun part member => .inr (ascii part member))
  · exact ((command_lines_alike options phrases true stated input (some " é=info")).2.2.1 broken).2

/-- A log setting can keep an expression from being shown: with white space in front of a
character of two bytes it ends the program. -/
theorem broken_setting_disobeyed :
    States [.followed false "1" (by decide)] { expression := some "1" } ∧
      ¬ Obeys { expression := some "1" } (commandLine [.followed false "1" (by decide)] false) []
        (some " é=info") := by
  refine ⟨List.Perm.refl _, fun obeys => ?_⟩
  have ended : (Outcome.ofArguments (commandLine [.followed false "1" (by decide)] false) []
      (some " é=info")).exit = 101 := by
    decide +kernel
  have bound := status_le (trial (asked { expression := some "1" } []) {}).1
  rw [← obeys.2, ended] at bound
  omega

end Summand.CommandLines
