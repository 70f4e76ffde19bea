import Summand.Log.Event

/-! A logged computation is a value together with the events on the way to it,
in order. Running one after another appends their events. -/
namespace Summand

/-- A value and the events that led to it. -/
structure Logged (α : Type) where
  value : α
  events : List Event
  deriving Repr

namespace Logged

instance : Monad Logged where
  pure value := ⟨value, []⟩
  bind first next :=
    let second := next first.value
    ⟨second.value, first.events ++ second.events⟩

/-- Reports one event. -/
def emit (event : Event) : Logged Unit :=
  ⟨(), [event]⟩

end Logged
end Summand
