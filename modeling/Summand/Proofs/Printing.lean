import Summand.Proofs.Evaluation

/-! A tree or a listing that is printed to a faulty writer is cut where the writer turns it
down, and nothing else shows. The many pieces it is written in are of no account: to any
writer, printing is the same as writing all its bytes at once. -/
namespace Summand.Printing
open Delivery Evaluation Session

/-- What is printed where nothing fails. -/
def printed (printing : Session Unit) : List UInt8 :=
  (trial printing {}).2.output.accepted.toList

/-- How printing fares, whatever the writer, beside what is printed where nothing fails. -/
structure CutAtFault (printing : Session Unit) (whole : List UInt8) : Prop where
  /-- A writer that never turns anything down gets everything. -/
  complete : ∀ terminal, barrier terminal.output = none →
    (trial printing terminal).1 = .ok () ∧ (trial printing terminal).2.output.accepted.toList =
      terminal.output.accepted.toList ++ whole
  /-- Any other gets what there is room for in front of its barrier and nothing behind it, even
  if it would take more then. -/
  cut : ∀ terminal, ∀ wall ∈ barrier terminal.output,
    (trial printing terminal).2.output.accepted.toList =
      terminal.output.accepted.toList ++ whole.take (wall.room terminal.output)
  /-- Printing succeeds exactly when there is room for everything. -/
  succeeds : ∀ terminal, ∀ wall ∈ barrier terminal.output,
    (trial printing terminal).1 = .ok () ↔ whole.length ≤ wall.room terminal.output
  /-- Otherwise its error is that of the barrier. -/
  fails : ∀ terminal, ∀ wall ∈ barrier terminal.output, wall.room terminal.output < whole.length →
    (trial printing terminal).1 = .error wall.error
  /-- Nothing is passed on, and nobody is asked to. -/
  unflushed : ∀ terminal, (trial printing terminal).2.output.flushes = terminal.output.flushes ∧
    (trial printing terminal).2.output.flushCalls = terminal.output.flushCalls
  /-- Beside the barrier nothing about the writer matters, be it a limit on single writes or an
  interruption. -/
  alike : ∀ terminal other, other.output.accepted = terminal.output.accepted →
    barrier other.output = barrier terminal.output →
    (trial printing other).1 = (trial printing terminal).1 ∧
      (trial printing other).2.output.accepted = (trial printing terminal).2.output.accepted
  /-- However the bytes are divided, writing the parts in order has the same result and leaves
  the same writer. -/
  undivided : ∀ parts : List (List UInt8), parts.flatten = whole → ∀ terminal,
    Writing.attempt (parts.forM Writing.writeAll) terminal.output =
      .ok (trial printing terminal).1 (trial printing terminal).2.output

variable {printing : Session Unit} {bytes : List UInt8} {terminal : Terminal} {wall : Barrier}

/-- The pieces of a text are written as if they were one. -/
theorem pieces_writeAll (parts : List String) :
    Writing.pieces parts = Writing.writeAll (parts.flatMap Utf8.encode) :=
  forM_writeAll Utf8.encode parts

/-- What fits is printed in full. -/
theorem printing_fits (carries : Carries printing (Writing.writeAll bytes))
    (fits : Fits terminal.output bytes.length) : (trial printing terminal).1 = .ok () ∧
      Took terminal.output (trial printing terminal).2.output bytes [] := by
  obtain ⟨after, ran, took⟩ := writeAll_fits fits
  have tried := carries.attempted terminal
  simp only [Writing.attempt, ran] at tried
  injection tried with result output
  exact ⟨result.symm, output ▸ took⟩

/-- What does not fit is printed up to the barrier. -/
theorem printing_stops (carries : Carries printing (Writing.writeAll bytes))
    (stands : wall ∈ barrier terminal.output) (long : wall.room terminal.output < bytes.length) :
    (trial printing terminal).1 = .error wall.error ∧
      Broke wall terminal.output (trial printing terminal).2.output
        (bytes.take (wall.room terminal.output)) := by
  have stopped := writeAll_stops stands long
  have tried := carries.attempted terminal
  simp only [Writing.attempt, stopped] at tried
  injection tried with result output
  exact ⟨result.symm, output ▸ broke_met stands _⟩

theorem printed_writeAll (carries : Carries printing (Writing.writeAll bytes)) :
    printed printing = bytes := by
  have fits : Fits ({} : Terminal).output bytes.length := fun wall stands => by cases stands
  exact (printing_fits carries fits).2.accepted

/-- Whatever comes down to writing all its bytes at once is cut at the fault of the writer. -/
theorem carried_cutAtFault (carries : Carries printing (Writing.writeAll bytes)) :
    CutAtFault printing bytes where
  complete terminal clear := by
    have fits : Fits terminal.output bytes.length := fun wall stands => by
      rw [clear] at stands
      cases stands
    obtain ⟨result, took⟩ := printing_fits carries fits
    exact ⟨result, took.accepted⟩
  cut terminal wall stands := by
    rcases Nat.lt_or_ge (wall.room terminal.output) bytes.length with long | enough
    · exact (printing_stops carries stands long).2.accepted
    · rw [List.take_of_length_le enough]
      exact (printing_fits carries ((fits_iff stands _).mpr enough)).2.accepted
  succeeds terminal wall stands := by
    rcases Nat.lt_or_ge (wall.room terminal.output) bytes.length with long | enough
    · rw [(printing_stops carries stands long).1]
      simp [Nat.not_le.mpr long]
    · simp [(printing_fits carries ((fits_iff stands _).mpr enough)).1, enough]
  fails terminal wall stands long := (printing_stops carries stands long).1
  unflushed terminal := by
    rcases fits_or_long terminal.output bytes.length with fits | ⟨wall, stands, long⟩
    · obtain ⟨_, took⟩ := printing_fits carries fits
      exact ⟨Array.ext' (by simpa using took.flushes), took.calls⟩
    · obtain ⟨_, broke⟩ := printing_stops carries stands long
      exact ⟨broke.flushes, broke.calls⟩
  alike terminal other same sameBarrier := by
    have room : ∀ wall : Barrier, wall.room other.output = wall.room terminal.output := by
      intro wall
      rw [Barrier.room, Barrier.room, same]
    rcases fits_or_long terminal.output bytes.length with fits | ⟨wall, stands, long⟩
    · have fitsToo : Fits other.output bytes.length := fun wall stands =>
        room wall ▸ fits wall (sameBarrier ▸ stands)
      obtain ⟨result, took⟩ := printing_fits carries fits
      obtain ⟨resultToo, tookToo⟩ := printing_fits carries fitsToo
      refine ⟨resultToo.trans result.symm, Array.ext' ?_⟩
      rw [tookToo.accepted, took.accepted, same]
    · obtain ⟨result, broke⟩ := printing_stops carries stands long
      have standsToo : wall ∈ barrier other.output := sameBarrier ▸ stands
      obtain ⟨resultToo, brokeToo⟩ := printing_stops carries standsToo (room wall ▸ long)
      refine ⟨resultToo.trans result.symm, Array.ext' ?_⟩
      rw [brokeToo.accepted, broke.accepted, same, room]
  undivided parts whole terminal := by
    rw [← carries.attempted terminal, ← whole, ← List.flatMap_id, ← forM_writeAll]
    rfl

/-- Printing a tree, whatever its nodes, or listing the tokens of a source is cut exactly
where the writer turns it down: the writer gets the first bytes of what is printed where
nothing fails, and the result is its error unless that was everything. Nothing is written
behind the first failure and nothing is ever passed on. Neither the pieces that the bytes
are written in nor a limit on single writes nor an interruption has any part in it. -/
theorem printing_cut_at_fault :
    (∀ node, CutAtFault (Session.write (Writing.drawing node))
      (printed (Session.write (Writing.drawing node)))) ∧
    ∀ source, CutAtFault (Session.listTokens source) (printed (Session.listTokens source)) := by
  constructor
  · intro node
    have carries : Carries (Session.write (Writing.drawing node))
        (Writing.writeAll (node.drawing.flatMap Utf8.encode)) := by
      rw [← pieces_writeAll]
      exact carries_write (Writing.drawing node)
    rw [printed_writeAll carries]
    exact carried_cutAtFault carries
  · intro source
    have carries : Carries (Session.listTokens source) (Writing.writeAll _) :=
      pieces_writeAll _ ▸ listStream_carries (.ofSource source)
    rw [printed_writeAll carries]
    exact carried_cutAtFault carries

end Summand.Printing
