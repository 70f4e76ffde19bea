import Summand.Console.IoError

/-! A sink takes bytes from the front of what it is offered and remembers them
in order. It may take only a part, it may fail once a certain number of bytes
has been taken, and some of its flushes may fail. Writing is a computation on
a sink; an error leaves the sink as it was when the error arose. -/
namespace Summand

/-- How a sink turns a write down. -/
inductive Refusal where
  /-- With an error. -/
  | failure
  /-- With the error of a closed pipe. -/
  | closedPipe
  /-- By taking nothing. -/
  | nothing
  deriving Repr, DecidableEq

/-- What a sink does about a write when its fault is due. -/
inductive Manner where
  /-- Turns it down: this one alone, or this one and all later ones. -/
  | refuse (how : Refusal) (once : Bool)
  /-- Interrupts it, a single time. -/
  | interrupt
  deriving Repr, DecidableEq

/-- A fault that is due as soon as `offset` bytes have been taken. -/
structure Fault where
  offset : Nat
  manner : Manner
  deriving Repr, DecidableEq

/-- Where written bytes go. -/
structure Sink where
  /-- The bytes taken so far. -/
  accepted : Array UInt8 := #[]
  /-- How many bytes had been taken at each flush that succeeded. -/
  flushes : Array Nat := #[]
  /-- How often a flush was asked for. -/
  flushCalls : Nat := 0
  /-- What will go wrong with a write. -/
  fault : Option Fault := none
  /-- The most bytes one write takes, if there is a limit. -/
  maxWrite : Option Nat := none
  /-- The flushes that fail, counted from one. -/
  failingFlushes : List Nat := []
  deriving Repr, DecidableEq

/-- A computation that writes. -/
abbrev Writing := EStateM IoError Sink

namespace Sink

/-- The fault that the next write that looks at a byte meets. -/
def dueFault (sink : Sink) : Option Fault :=
  sink.fault.filter (·.offset ≤ sink.accepted.size)

/-- The part of some bytes that one write looks at: the front, up to the limit
of a write. -/
def reach (sink : Sink) (bytes : List UInt8) : List UInt8 :=
  match sink.maxWrite with
  | some limit => bytes.take limit
  | none => bytes

/-- The part of some bytes that one write takes while no fault is due: what it
looks at, up to the place where the fault lies. -/
def front (sink : Sink) (bytes : List UInt8) : List UInt8 :=
  match sink.fault with
  | some fault => (sink.reach bytes).take (fault.offset - sink.accepted.size)
  | none => sink.reach bytes

/-- Takes bytes. -/
def accept (sink : Sink) (bytes : List UInt8) : Sink :=
  { sink with accepted := sink.accepted ++ bytes }

/-- Puts the fault behind. -/
def recover (sink : Sink) : Sink :=
  { sink with fault := none }

/-- How many interruptions are still to come. -/
def interruptions (sink : Sink) : Nat :=
  match sink.fault with
  | some { manner := .interrupt, .. } => 1
  | _ => 0

end Sink

namespace Writing

/-- Meets a fault that is due. -/
def meet (fault : Fault) : Writing Nat := fun sink =>
  match fault.manner with
  | .interrupt => .error .interrupted sink.recover
  | .refuse how once =>
    let sink := if once then sink.recover else sink
    match how with
    | .failure => .error .writeFailed sink
    | .closedPipe => .error .pipeClosed sink
    | .nothing => .ok 0 sink

/-- Offers bytes once, and tells how many of them were taken. A write that
looks at no bytes never fails. -/
def write (bytes : List UInt8) : Writing Nat := fun sink =>
  if (sink.reach bytes).isEmpty then .ok 0 sink
  else
    match sink.dueFault with
    | some fault => meet fault sink
    | none =>
      let part := sink.front bytes
      .ok part.length (sink.accept part)

theorem interruptions_of_ok {bytes : List UInt8} {sink after : Sink} {count : Nat}
    (wrote : write bytes sink = .ok count after) : after.interruptions ≤ sink.interruptions := by
  unfold write meet at wrote
  split at wrote
  · cases wrote
    exact Nat.le_refl _
  · split at wrote
    · split at wrote
      · cases wrote
      · split at wrote <;> split at wrote <;> cases wrote
        · exact Nat.zero_le _
        · exact Nat.le_refl _
    · cases wrote
      exact Nat.le_refl _

theorem interruptions_of_interrupted {bytes : List UInt8} {sink after : Sink}
    (wrote : write bytes sink = .error .interrupted after) :
    after.interruptions < sink.interruptions := by
  unfold write meet at wrote
  split at wrote
  · cases wrote
  · split at wrote
    · next fault due =>
      split at wrote
      · next manner =>
        cases wrote
        obtain ⟨held, _⟩ := Option.filter_eq_some_iff.mp due
        obtain ⟨offset, manner⟩ := fault
        subst manner
        simp [Sink.interruptions, Sink.recover, held]
      · split at wrote <;> split at wrote <;> cases wrote
    · cases wrote

/-- Writes all bytes, in as many writes as it takes. An interrupted write is
tried again; a write that takes nothing is an error. Whatever a failed write
leaves over is lost. -/
def writeAll (bytes : List UInt8) (sink : Sink) : EStateM.Result IoError Sink Unit :=
  if _ : bytes = [] then .ok () sink
  else
    match _ : write bytes sink with
    | .ok 0 sink => .error .writeZero sink
    | .ok (count + 1) sink => writeAll (bytes.drop (count + 1)) sink
    | .error .interrupted sink => writeAll bytes sink
    | .error error sink => .error error sink
termination_by bytes.length + sink.interruptions
decreasing_by
  · have fewer := interruptions_of_ok ‹_›
    have nonempty : 0 < bytes.length := List.length_pos_iff.mpr ‹_›
    simp only [List.length_drop]
    omega
  · have fewer := interruptions_of_interrupted ‹_›
    omega

/-- Passes on what was taken. -/
def flush : Writing Unit := fun sink =>
  let sink := { sink with flushCalls := sink.flushCalls + 1 }
  if sink.flushCalls ∈ sink.failingFlushes then .error .flushFailed sink
  else .ok () { sink with flushes := sink.flushes.push sink.accepted.size }

/-- How many bytes have been taken so far. -/
def written : Writing Nat := do
  return (← get).accepted.size

/-- Turns an error into a result, keeping what was written. -/
def attempt (writing : Writing α) : Writing (Except IoError α) := fun sink =>
  match writing sink with
  | .ok value sink => .ok (.ok value) sink
  | .error error sink => .ok (.error error) sink

end Writing
end Summand
