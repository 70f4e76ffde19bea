import Summand.Log.Directive
import Summand.Text.Parts

/-! A filter decides which events are logged. It is a list of directives; for
an event the most specific one that concerns it counts. A log setting spells a
filter. Parts of it that cannot be read are passed over with a complaint. -/
namespace Summand

/-- Which events are logged. -/
structure Filter where
  directives : List Directive
  deriving Repr, DecidableEq

namespace Filter

/-- The filter that logs errors only. -/
def errorsOnly : Filter :=
  { directives := [{ most := some .error }] }

/-- The directive that counts for an event: of those that concern it the most
specific one, of several such the last. -/
def governing (filter : Filter) (event : Event) : Option Directive :=
  (filter.directives.filter (·.covers event)).foldl
    (fun best directive =>
      match best with
      | some chosen => if directive.isAsSpecific chosen then some directive else some chosen
      | none => some directive)
    none

/-- Whether an event is logged. -/
def passes (filter : Filter) (event : Event) : Bool :=
  match filter.governing event with
  | some directive => directive.admits event.level
  | none => false

end Filter

/-- What was read from a log setting. -/
structure LogSetting where
  directives : List Directive := []
  /-- What is said about parts that cannot be read. -/
  complaints : List String := []
  /-- Whether reading broke off, which ends the program. -/
  aborted : Bool := false
  deriving Repr, DecidableEq

namespace LogSetting

/-- Reads the parts of a log setting, one directive each. -/
def ofParts : List String → LogSetting
  | [] => {}
  | part :: parts =>
    match Directive.parse part with
    | .ok directive =>
      let setting := ofParts parts
      { setting with directives := directive :: setting.directives }
    | .error fault =>
      match fault.message? with
      | none => { aborted := true }
      | some message =>
        let setting := ofParts parts
        let complaint := "ignoring `" ++ part ++ "`: " ++ message
        { setting with complaints := complaint :: setting.complaints }

/-- Reads a log setting, a list of directives between commas. No setting is
like an empty one. -/
def read (setting : Option String) : LogSetting :=
  ofParts ((Parts.ofText ',' (setting.getD "")).filter (!·.isEmpty))

/-- The filter that a setting spells. Without any directive, errors are
logged. -/
def filter (setting : LogSetting) : Filter :=
  if setting.directives.isEmpty then .errorsOnly else { directives := setting.directives }

end LogSetting
end Summand
