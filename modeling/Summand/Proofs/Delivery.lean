import Summand.Console.Foreground

/-! What a sink makes of what it is offered. Taking bytes in many writes comes
to the same as taking them in one: whatever fits before the barrier of the sink
is taken in full, and anything longer is cut at the barrier and answered with
its error. A limit on single writes and an interruption leave no trace, unless
the limit is nothing at all. -/
namespace Summand.Delivery
open Writing

/-- Where a sink turns writes down, and how. -/
structure Barrier where
  offset : Nat
  how : Refusal
  once : Bool

/-- The barrier of a sink. An interruption is none, since it is tried again. A
sink whose writes are limited to nothing never gets past its beginning. -/
def barrier (sink : Sink) : Option Barrier :=
  if sink.maxWrite = some 0 then some { offset := 0, how := .nothing, once := false }
  else
    match sink.fault with
    | some { offset, manner := .refuse how once } => some { offset, how, once }
    | _ => none

/-- The error a writer sees when a write is turned down. -/
def Barrier.error (wall : Barrier) : IoError :=
  match wall.how with
  | .failure => .writeFailed
  | .closedPipe => .pipeClosed
  | .nothing => .writeZero

/-- How many bytes a sink takes before it turns a write down. -/
def Barrier.room (wall : Barrier) (sink : Sink) : Nat := wall.offset - sink.accepted.size

/-- A sink after its barrier was met: a barrier that stands only once is gone. -/
def Barrier.met (wall : Barrier) (sink : Sink) : Sink :=
  if wall.once then sink.recover else sink

/-- Whether a number of bytes fits in front of the barrier. -/
def Fits (sink : Sink) (count : Nat) : Prop :=
  ∀ wall ∈ barrier sink, count ≤ wall.room sink

theorem fits_iff {sink : Sink} {wall : Barrier} (stands : wall ∈ barrier sink) (count : Nat) :
    Fits sink count ↔ count ≤ wall.room sink := by
  constructor
  · exact fun fits => fits wall stands
  · intro bound other found
    cases Option.mem_unique stands found
    exact bound

/-- Either some bytes fit in front of the barrier of a sink, or the barrier cuts them. -/
theorem fits_or_long (sink : Sink) (count : Nat) :
    Fits sink count ∨ ∃ wall ∈ barrier sink, wall.room sink < count := by
  cases stands : barrier sink with
  | none => exact .inl fun wall found => by simp [stands] at found
  | some wall =>
    rcases Nat.lt_or_ge (wall.room sink) count with long | fits
    · exact .inr ⟨wall, rfl, long⟩
    · exact .inl ((fits_iff stands count).mpr fits)

/-- What became of a sink that took some bytes and passed them on at some
lengths. Nothing else about it has changed. -/
structure Took (before after : Sink) (bytes : List UInt8) (flushed : List Nat) : Prop where
  accepted : after.accepted.toList = before.accepted.toList ++ bytes
  flushes : after.flushes.toList = before.flushes.toList ++ flushed
  calls : after.flushCalls = before.flushCalls + flushed.length
  barrier : barrier after = barrier before
  failing : after.failingFlushes = before.failingFlushes
  limit : after.maxWrite = before.maxWrite

theorem Took.refl (sink : Sink) : Took sink sink [] [] := by
  constructor <;> simp

theorem Took.trans {first middle last : Sink} {bytes later : List UInt8} {flushed behind : List Nat}
    (front : Took first middle bytes flushed) (back : Took middle last later behind) :
    Took first last (bytes ++ later) (flushed ++ behind) where
  accepted := by rw [back.accepted, front.accepted, List.append_assoc]
  flushes := by rw [back.flushes, front.flushes, List.append_assoc]
  calls := by rw [back.calls, front.calls, List.length_append, Nat.add_assoc]
  barrier := back.barrier.trans front.barrier
  failing := back.failing.trans front.failing
  limit := back.limit.trans front.limit

theorem Took.size {before after : Sink} {bytes : List UInt8} {flushed : List Nat}
    (took : Took before after bytes flushed) :
    after.accepted.size = before.accepted.size + bytes.length := by
  rw [← Array.length_toList, took.accepted, List.length_append, Array.length_toList]

/-- The room in front of the barrier shrinks by what was taken. -/
theorem Took.room {before after : Sink} {bytes : List UInt8} {flushed : List Nat}
    (took : Took before after bytes flushed) (wall : Barrier) :
    wall.room after = wall.room before - bytes.length := by
  rw [Barrier.room, Barrier.room, took.size, Nat.sub_add_eq]

/-- What fits after some bytes were taken is what fits together with them. -/
theorem Took.fits {before after : Sink} {bytes : List UInt8} {flushed : List Nat}
    (took : Took before after bytes flushed) {count : Nat}
    (fits : Fits before (bytes.length + count)) : Fits after count := by
  intro wall stands
  rw [took.barrier] at stands
  have bound := fits wall stands
  rw [took.room]
  omega

theorem took_accept (sink : Sink) (bytes : List UInt8) : Took sink (sink.accept bytes) bytes [] := by
  exact ⟨by simp [Sink.accept], by simp [Sink.accept], rfl, rfl, rfl, rfl⟩

/-- Getting an interruption over with changes nothing that shows. -/
theorem took_recover {sink : Sink} (clear : barrier sink = none) : Took sink sink.recover [] [] := by
  have limit : sink.maxWrite ≠ some 0 := fun stalled => by simp [barrier, stalled] at clear
  constructor <;> simp [Sink.recover]
  rw [clear]
  simp [Delivery.barrier, limit]

/-- What became of a sink that took some bytes and then met its barrier. -/
structure Broke (wall : Barrier) (before after : Sink) (bytes : List UInt8) : Prop where
  accepted : after.accepted.toList = before.accepted.toList ++ bytes
  flushes : after.flushes = before.flushes
  calls : after.flushCalls = before.flushCalls
  barrier : barrier after = if wall.once then none else some wall
  failing : after.failingFlushes = before.failingFlushes
  limit : after.maxWrite = before.maxWrite

theorem Took.broke {wall : Barrier} {first middle last : Sink} {bytes later : List UInt8}
    (front : Took first middle bytes []) (back : Broke wall middle last later) :
    Broke wall first last (bytes ++ later) where
  accepted := by rw [back.accepted, front.accepted, List.append_assoc]
  flushes := back.flushes.trans (Array.ext' (by simpa using front.flushes))
  calls := back.calls.trans front.calls
  barrier := back.barrier
  failing := back.failing.trans front.failing
  limit := back.limit.trans front.limit

/-- A sink that took everything in front of its barrier has no room left. -/
theorem Broke.room {wall : Barrier} {before after : Sink} {bytes : List UInt8}
    (broke : Broke wall before after (bytes.take (wall.room before)))
    (long : wall.room before < bytes.length) : wall.room after = 0 := by
  have size := congrArg List.length broke.accepted
  rw [List.length_append, List.length_take, Array.length_toList, Array.length_toList] at size
  rw [Barrier.room] at size long ⊢
  omega

/-- A sink whose writes are limited to nothing keeps its barrier. -/
theorem once_limit {wall : Barrier} {sink : Sink} (stands : wall ∈ barrier sink)
    (once : wall.once = true) : sink.maxWrite ≠ some 0 := by
  intro stalled
  simp only [barrier, stalled, if_true, Option.mem_def, Option.some.injEq] at stands
  rw [← stands] at once
  cases once

theorem broke_met {wall : Barrier} {sink : Sink} (stands : wall ∈ barrier sink) (bytes : List UInt8) :
    Broke wall sink (wall.met (sink.accept bytes)) bytes := by
  have kept : barrier (sink.accept bytes) = some wall := stands
  unfold Barrier.met
  split
  · rename_i once
    have limit := once_limit stands once
    constructor <;> simp [Sink.recover, Sink.accept, Delivery.barrier, *]
  · exact ⟨by simp [Sink.accept], rfl, rfl, by simp [*], rfl, rfl⟩

/-- How many of some bytes a sink takes before a fault of it is due. -/
def capacity (sink : Sink) (bytes : List UInt8) : Nat :=
  match sink.fault with
  | none => bytes.length
  | some fault => min bytes.length (fault.offset - sink.accepted.size)

theorem capacity_le (sink : Sink) (bytes : List UInt8) : capacity sink bytes ≤ bytes.length := by
  unfold capacity
  split
  · exact Nat.le_refl _
  · exact Nat.min_le_left ..

private theorem reach_some {sink : Sink} {bytes : List UInt8} (limit : sink.maxWrite ≠ some 0)
    (nonempty : bytes ≠ []) :
    ∃ most, sink.reach bytes = bytes.take most ∧ 0 < most ∧ most ≤ bytes.length := by
  have positive := List.length_pos_iff.mpr nonempty
  unfold Sink.reach
  split
  · rename_i most found
    have nonzero : most ≠ 0 := fun zero => limit (by rw [found, zero])
    exact ⟨min most bytes.length, by simp, by omega, by omega⟩
  · exact ⟨bytes.length, by simp, positive, Nat.le_refl _⟩

private theorem front_some {sink : Sink} {bytes : List UInt8} (limit : sink.maxWrite ≠ some 0)
    (free : 0 < capacity sink bytes) : ∃ count, sink.front bytes = bytes.take count ∧ 0 < count ∧
      count ≤ capacity sink bytes := by
  have nonempty : bytes ≠ [] := List.length_pos_iff.mp (Nat.lt_of_lt_of_le free (capacity_le ..))
  obtain ⟨most, reached, positive, bound⟩ := reach_some limit nonempty
  unfold capacity at free ⊢
  unfold Sink.front
  split
  · rename_i fault found
    simp only [found] at free ⊢
    exact ⟨min (fault.offset - sink.accepted.size) most, by rw [reached, List.take_take],
      by omega, by omega⟩
  · rename_i clear
    simp only [clear]
    exact ⟨most, reached, positive, bound⟩

private theorem dueFault_early {sink : Sink} {bytes : List UInt8}
    (free : 0 < capacity sink bytes) : sink.dueFault = none := by
  unfold capacity at free
  unfold Sink.dueFault
  split at free
  · rename_i clear
    rw [clear]
    rfl
  · rename_i fault found
    rw [found]
    simp only [Option.filter_eq_none_iff, Option.some.injEq, forall_eq', decide_eq_true_eq]
    omega

private theorem reach_offers {sink : Sink} {bytes : List UInt8} (limit : sink.maxWrite ≠ some 0)
    (nonempty : bytes ≠ []) : (sink.reach bytes).isEmpty = false := by
  obtain ⟨most, reached, positive, _⟩ := reach_some limit nonempty
  rw [reached, List.isEmpty_eq_false_iff, ne_eq, List.take_eq_nil_iff]
  rintro (zero | empty)
  · omega
  · exact nonempty empty

/-- While something fits, one write takes some of it and nothing goes wrong. -/
theorem write_progress {sink : Sink} {bytes : List UInt8} (limit : sink.maxWrite ≠ some 0)
    (free : 0 < capacity sink bytes) : ∃ count, 0 < count ∧ count ≤ capacity sink bytes ∧
      write bytes sink = .ok count (sink.accept (bytes.take count)) := by
  have nonempty : bytes ≠ [] := List.length_pos_iff.mp (Nat.lt_of_lt_of_le free (capacity_le ..))
  obtain ⟨count, front, taken, bound⟩ := front_some limit free
  have within : count ≤ bytes.length := Nat.le_trans bound (capacity_le ..)
  refine ⟨count, taken, bound, ?_⟩
  simp [write, reach_offers limit nonempty, dueFault_early free, front, Nat.min_eq_left within]

/-- A write that looks at a byte when a fault is due meets the fault. -/
theorem write_due {sink : Sink} {bytes : List UInt8} {fault : Fault}
    (limit : sink.maxWrite ≠ some 0) (nonempty : bytes ≠ []) (held : sink.fault = some fault)
    (due : fault.offset ≤ sink.accepted.size) : write bytes sink = meet fault sink := by
  have found : sink.dueFault = some fault := by
    rw [Sink.dueFault, held, Option.filter_some, if_pos (decide_eq_true due)]
  simp [write, reach_offers limit nonempty, found]

theorem writeAll_nil (sink : Sink) : writeAll [] sink = .ok () sink := by
  rw [writeAll, dif_pos rfl]

private theorem writeAll_taken {sink after : Sink} {bytes : List UInt8} {count : Nat}
    (nonempty : bytes ≠ []) (taken : 0 < count) (wrote : write bytes sink = .ok count after) :
    writeAll bytes sink = writeAll (bytes.drop count) after := by
  obtain ⟨less, rfl⟩ := Nat.exists_eq_add_of_lt taken
  rw [writeAll, dif_neg nonempty]
  split <;> rename_i found <;> rw [wrote] at found <;> cases found
  simp

private theorem writeAll_interrupted {sink after : Sink} {bytes : List UInt8} (nonempty : bytes ≠ [])
    (wrote : write bytes sink = .error .interrupted after) :
    writeAll bytes sink = writeAll bytes after := by
  rw [writeAll, dif_neg nonempty]
  split <;> rename_i found <;> rw [wrote] at found <;> cases found
  · rfl
  · contradiction

theorem accept_nil (sink : Sink) : sink.accept [] = sink := by
  simp [Sink.accept]

theorem accept_accept (sink : Sink) (first second : List UInt8) :
    (sink.accept first).accept second = sink.accept (first ++ second) := by
  have same : sink.accepted ++ first ++ second = sink.accepted ++ (first ++ second) :=
    Array.ext' (by simp)
  rw [Sink.accept, Sink.accept, Sink.accept, same]

private theorem capacity_taken (sink : Sink) {bytes : List UInt8} {count : Nat}
    (within : count ≤ bytes.length) : capacity (sink.accept (bytes.take count)) (bytes.drop count) =
      capacity sink bytes - count := by
  have size := (took_accept sink (bytes.take count)).size
  rw [List.length_take, Nat.min_eq_left within] at size
  unfold capacity
  rw [size, List.length_drop, show (sink.accept (bytes.take count)).fault = sink.fault from rfl]
  split
  · rfl
  · omega

/-- Writing all bytes begins with as many as there is room for, whatever number
of writes it takes. -/
theorem writeAll_capacity {sink : Sink} {bytes : List UInt8} (limit : sink.maxWrite ≠ some 0) :
    writeAll bytes sink = writeAll (bytes.drop (capacity sink bytes))
      (sink.accept (bytes.take (capacity sink bytes))) := by
  induction size : capacity sink bytes using Nat.strongRecOn generalizing sink bytes with
  | ind size' ih =>
    subst size
    by_cases free : 0 < capacity sink bytes
    · have nonempty : bytes ≠ [] :=
        List.length_pos_iff.mp (Nat.lt_of_lt_of_le free (capacity_le ..))
      obtain ⟨count, taken, bound, wrote⟩ := write_progress limit free
      have unlimited : (sink.accept (bytes.take count)).maxWrite ≠ some 0 := limit
      have left := capacity_taken sink (Nat.le_trans bound (capacity_le sink bytes))
      have whole : bytes.take count ++ (bytes.drop count).take (capacity sink bytes - count) =
          bytes.take (capacity sink bytes) := by
        rw [← List.take_add, Nat.add_sub_cancel' bound]
      rw [writeAll_taken nonempty taken wrote, ih _ (by omega) unlimited left, accept_accept, whole,
        List.drop_drop, Nat.add_sub_cancel' bound]
    · rw [Nat.eq_zero_of_not_pos free, List.drop_zero, List.take_zero, accept_nil]

private theorem writeAll_whole {sink : Sink} {bytes : List UInt8} (limit : sink.maxWrite ≠ some 0)
    (all : capacity sink bytes = bytes.length) :
    writeAll bytes sink = .ok () (sink.accept bytes) := by
  rw [writeAll_capacity limit, all, List.drop_length, List.take_length, writeAll_nil]

private theorem nonempty_beyond {sink : Sink} {bytes : List UInt8}
    (short : capacity sink bytes < bytes.length) : bytes.drop (capacity sink bytes) ≠ [] := by
  simpa [List.drop_eq_nil_iff] using short

/-- When there is not room for everything, the write behind what is taken meets
the fault of the sink. -/
private theorem write_beyond {sink : Sink} {bytes : List UInt8} (limit : sink.maxWrite ≠ some 0)
    (short : capacity sink bytes < bytes.length) : ∃ fault, sink.fault = some fault ∧
      capacity sink bytes = fault.offset - sink.accepted.size ∧
      write (bytes.drop (capacity sink bytes)) (sink.accept (bytes.take (capacity sink bytes))) =
        meet fault (sink.accept (bytes.take (capacity sink bytes))) := by
  have size := (took_accept sink (bytes.take (capacity sink bytes))).size
  rw [List.length_take, Nat.min_eq_left (capacity_le ..)] at size
  cases held : sink.fault with
  | none => simp [capacity, held] at short
  | some fault =>
    have room : capacity sink bytes = fault.offset - sink.accepted.size := by
      simp only [capacity, held] at short ⊢
      omega
    exact ⟨fault, rfl, room, write_due limit (nonempty_beyond short) held (by omega)⟩

private theorem barrier_of_fault {sink : Sink} {offset : Nat} {manner : Manner}
    (limit : sink.maxWrite ≠ some 0) (held : sink.fault = some ⟨offset, manner⟩) :
    barrier sink = match manner with
      | .refuse how once => some ⟨offset, how, once⟩
      | .interrupt => none := by
  cases manner <;> simp [barrier, limit, held]

/-- An interruption is over as soon as it is met, and writing goes on behind it. -/
private theorem writeAll_goesOn {sink : Sink} {bytes : List UInt8} {offset : Nat}
    (limit : sink.maxWrite ≠ some 0) (held : sink.fault = some ⟨offset, .interrupt⟩)
    (short : capacity sink bytes < bytes.length) : writeAll bytes sink =
      writeAll (bytes.drop (capacity sink bytes))
        (sink.accept (bytes.take (capacity sink bytes))).recover := by
  obtain ⟨fault, found, _, wrote⟩ := write_beyond limit short
  cases held.symm.trans found
  rw [writeAll_capacity limit, writeAll_interrupted (nonempty_beyond short) wrote]

/-- Writing what fits in front of the barrier takes it in full. -/
theorem writeAll_fits {sink : Sink} {bytes : List UInt8} (fits : Fits sink bytes.length) :
    ∃ after, writeAll bytes sink = .ok () after ∧ Took sink after bytes [] := by
  by_cases empty : bytes = []
  · exact ⟨sink, by rw [empty, writeAll_nil], empty ▸ Took.refl sink⟩
  have limit : sink.maxWrite ≠ some 0 := by
    intro stalled
    have bound := fits ⟨0, .nothing, false⟩ (by simp [barrier, stalled])
    simp only [Barrier.room, Nat.zero_sub, Nat.le_zero, List.length_eq_zero_iff] at bound
    exact empty bound
  rcases Nat.lt_or_eq_of_le (capacity_le sink bytes) with short | all
  · obtain ⟨⟨offset, manner⟩, held, room, _⟩ := write_beyond limit short
    cases manner with
    | refuse how once =>
      have bound := fits ⟨offset, how, once⟩ (barrier_of_fault limit held)
      simp only [Barrier.room] at bound room
      omega
    | interrupt =>
      have clear : barrier (sink.accept (bytes.take (capacity sink bytes))) = none :=
        barrier_of_fault limit held
      have taken := ((took_accept sink (bytes.take (capacity sink bytes))).trans
        (took_recover clear)).trans (took_accept _ (bytes.drop (capacity sink bytes)))
      refine ⟨_, ?_, by simpa using taken⟩
      rw [writeAll_goesOn limit held short]
      exact writeAll_whole limit rfl
  · exact ⟨_, writeAll_whole limit all, took_accept sink bytes⟩

private theorem writeAll_refused {sink : Sink} {bytes : List UInt8} {wall : Barrier}
    (nonempty : bytes ≠ [])
    (wrote : write bytes sink = meet ⟨wall.offset, .refuse wall.how wall.once⟩ sink) :
    writeAll bytes sink = .error wall.error (wall.met sink) := by
  obtain ⟨offset, how, once⟩ := wall
  rw [writeAll, dif_neg nonempty]
  cases how <;> simp only [meet] at wrote <;> split <;> rename_i found <;> rw [wrote] at found <;>
    cases found <;> rfl

private theorem writeAll_stalled {sink : Sink} {bytes : List UInt8} (stalled : sink.maxWrite = some 0)
    (nonempty : bytes ≠ []) : writeAll bytes sink = .error .writeZero sink := by
  have wrote : write bytes sink = .ok 0 sink := by
    simp [write, Sink.reach, stalled]
  rw [writeAll, dif_neg nonempty]
  split <;> rename_i found <;> rw [wrote] at found <;> cases found
  rfl

/-- Writing more than fits is cut at the barrier and answered with its error. -/
theorem writeAll_stops {sink : Sink} {bytes : List UInt8} {wall : Barrier}
    (stands : wall ∈ barrier sink) (long : wall.room sink < bytes.length) : writeAll bytes sink =
      .error wall.error (wall.met (sink.accept (bytes.take (wall.room sink)))) := by
  by_cases limit : sink.maxWrite = some 0
  · have nonempty : bytes ≠ [] := List.length_pos_iff.mp (Nat.zero_lt_of_lt long)
    simp only [barrier, limit, if_true, Option.mem_def, Option.some.injEq] at stands
    subst stands
    rw [writeAll_stalled limit nonempty]
    simp [Barrier.error, Barrier.met, Barrier.room, accept_nil]
  have held : sink.fault = some ⟨wall.offset, .refuse wall.how wall.once⟩ := by
    rw [barrier, if_neg limit] at stands
    split at stands <;> cases stands
    assumption
  have room : capacity sink bytes = wall.room sink := by
    simp only [capacity, held, Barrier.room] at long ⊢
    omega
  have short : capacity sink bytes < bytes.length := room ▸ long
  obtain ⟨fault, found, _, wrote⟩ := write_beyond limit short
  cases held.symm.trans found
  rw [writeAll_capacity limit, writeAll_refused (nonempty_beyond short) wrote, room]

/-- Some of what there is room for may be taken first. -/
private theorem writeAll_front {sink : Sink} {bytes : List UInt8} {count : Nat}
    (limit : sink.maxWrite ≠ some 0) (within : count ≤ capacity sink bytes) :
    writeAll bytes sink = writeAll (bytes.drop count) (sink.accept (bytes.take count)) := by
  have unlimited : (sink.accept (bytes.take count)).maxWrite ≠ some 0 := limit
  have left := capacity_taken sink (Nat.le_trans within (capacity_le sink bytes))
  have whole : bytes.take count ++ (bytes.drop count).take (capacity sink bytes - count) =
      bytes.take (capacity sink bytes) := by
    rw [← List.take_add, Nat.add_sub_cancel' within]
  rw [writeAll_capacity limit, writeAll_capacity unlimited, left, accept_accept, whole,
    List.drop_drop, Nat.add_sub_cancel' within]

private theorem writeAll_append_whole {sink : Sink} {first : List UInt8}
    (limit : sink.maxWrite ≠ some 0) (whole : capacity sink first = first.length)
    (second : List UInt8) : writeAll (first ++ second) sink =
      (do writeAll first; writeAll second : Writing Unit) sink := by
  have within : first.length ≤ capacity sink (first ++ second) := by
    unfold capacity at whole ⊢
    rw [List.length_append]
    split at whole <;> omega
  rw [writeAll_front limit within, List.drop_left, List.take_left]
  simp [bind, EStateM.bind, writeAll_whole limit whole]

/-- When there is not room for the first of two parts, there is no more room for both. -/
private theorem capacity_append {sink : Sink} {first : List UInt8}
    (short : capacity sink first < first.length) (second : List UInt8) :
    capacity sink (first ++ second) = capacity sink first := by
  unfold capacity at short ⊢
  rw [List.length_append]
  split at short <;> omega

/-- Writing two parts one after the other is writing them together. -/
theorem writeAll_append (first second : List UInt8) (sink : Sink) :
    writeAll (first ++ second) sink = (do writeAll first; writeAll second : Writing Unit) sink := by
  by_cases empty : first = []
  · simp [empty, bind, EStateM.bind, writeAll_nil]
  have present : first ++ second ≠ [] := by simp [empty]
  by_cases limit : sink.maxWrite = some 0
  · simp [bind, EStateM.bind, writeAll_stalled limit empty, writeAll_stalled limit present]
  rcases Nat.lt_or_eq_of_le (capacity_le sink first) with short | whole
  · have same := capacity_append short second
    have fewer : capacity sink first ≤ first.length := capacity_le sink first
    have shortToo : capacity sink (first ++ second) < (first ++ second).length := by
      rw [same, List.length_append]
      omega
    have front : (first ++ second).take (capacity sink first) = first.take (capacity sink first) :=
      List.take_append_of_le_length fewer
    obtain ⟨⟨offset, manner⟩, held, room, _⟩ := write_beyond limit short
    cases manner with
    | refuse how once =>
      have stands : ⟨offset, how, once⟩ ∈ barrier sink := barrier_of_fault limit held
      have reached : capacity sink first = Barrier.room ⟨offset, how, once⟩ sink := room
      rw [same] at shortToo
      rw [reached] at short shortToo front
      rw [writeAll_stops stands shortToo, front]
      simp [bind, EStateM.bind, writeAll_stops stands short]
    | interrupt =>
      -- Both begin with the same bytes and the same interruption, and behind it all fits.
      have rest : (first ++ second).drop (capacity sink first) =
          first.drop (capacity sink first) ++ second := List.drop_append_of_le_length fewer
      have unlimited : (sink.accept (first.take (capacity sink first))).recover.maxWrite ≠ some 0 :=
        limit
      rw [writeAll_goesOn limit held shortToo, same, front, rest,
        writeAll_append_whole unlimited rfl]
      simp [bind, EStateM.bind, writeAll_goesOn limit held short]
  · exact writeAll_append_whole limit whole second

/-- However some bytes are divided, writing the parts in order is writing all at once. -/
theorem forM_writeAll (bytes : α → List UInt8) (parts : List α) :
    (parts.forM fun part => writeAll (bytes part) : Writing Unit) =
      writeAll (parts.flatMap bytes) := by
  induction parts with
  | nil => funext sink; exact (writeAll_nil sink).symm
  | cons part parts ih =>
    funext sink
    rw [List.flatMap_cons, writeAll_append, ← ih]
    rfl

/-- A computation writes exactly some bytes: all of them when they fit, else
those in front of the barrier, whose error then ends it. -/
def Writes (writing : Writing Unit) (bytes : List UInt8) : Prop :=
  ∀ sink,
    (Fits sink bytes.length → ∃ after, writing sink = .ok () after ∧ Took sink after bytes []) ∧
    ∀ wall ∈ barrier sink, wall.room sink < bytes.length → ∃ after,
      writing sink = .error wall.error after ∧ Broke wall sink after (bytes.take (wall.room sink))

theorem writes_writeAll (bytes : List UInt8) : Writes (writeAll bytes) bytes :=
  fun _ => ⟨writeAll_fits, fun _ stands long =>
    ⟨_, writeAll_stops stands long, broke_met stands _⟩⟩

theorem writes_pure : Writes (pure ()) [] := by
  intro sink
  exact ⟨fun _ => ⟨sink, rfl, Took.refl sink⟩, fun wall _ long => by simp at long⟩

/-- A sequence of two computations writes the bytes of both, in order. -/
theorem Writes.then {first second : Writing Unit} {bytes later : List UInt8}
    (front : Writes first bytes) (back : Writes second later) :
    Writes (do first; second) (bytes ++ later) := by
  intro sink
  refine ⟨fun fits => ?_, fun wall stands long => ?_⟩
  · rw [List.length_append] at fits
    obtain ⟨middle, ran, took⟩ := (front sink).1 fun wall stands =>
      Nat.le_trans (Nat.le_add_right ..) (fits wall stands)
    obtain ⟨after, ranLater, tookLater⟩ := (back middle).1 (took.fits fits)
    refine ⟨after, ?_, took.trans tookLater⟩
    simp [bind, EStateM.bind, ran, ranLater]
  · rw [List.length_append] at long
    rcases Nat.lt_or_ge (wall.room sink) bytes.length with short | fits
    · obtain ⟨after, ran, broke⟩ := (front sink).2 wall stands short
      refine ⟨after, ?_, ?_⟩
      · simp [bind, EStateM.bind, ran]
      · rwa [List.take_append_of_le_length (Nat.le_of_lt short)]
    · obtain ⟨middle, ran, took⟩ := (front sink).1 ((fits_iff stands _).mpr fits)
      have room := took.room wall
      obtain ⟨after, ranLater, broke⟩ := (back middle).2 wall
        (took.barrier ▸ stands) (by omega)
      refine ⟨after, ?_, ?_⟩
      · simp [bind, EStateM.bind, ran, ranLater]
      · rw [List.take_append, List.take_of_length_le fits, ← room]
        exact took.broke broke

theorem writes_text (piece : String) : Writes (text piece) (Utf8.encode piece) :=
  writes_writeAll _

theorem writes_pieces (parts : List String) : Writes (pieces parts) (parts.flatMap Utf8.encode) := by
  induction parts with
  | nil => exact writes_pure
  | cons part parts ih =>
    rw [List.flatMap_cons]
    exact (writes_text part).then ih

theorem flush_passes {sink : Sink} (works : sink.flushCalls + 1 ∉ sink.failingFlushes) :
    ∃ after, flush sink = .ok () after ∧ Took sink after [] [sink.accepted.size] := by
  refine ⟨_, if_neg works, ?_⟩
  constructor <;> simp [Delivery.barrier]

theorem flush_fails {sink : Sink} (fails : sink.flushCalls + 1 ∈ sink.failingFlushes) :
    flush sink = .error .flushFailed { sink with flushCalls := sink.flushCalls + 1 } :=
  if_pos fails

/-- A sink that never fails. Small writes and an interruption are no failure. -/
structure Reliable (sink : Sink) : Prop where
  clear : barrier sink = none
  passes : sink.failingFlushes = []

theorem Took.reliable {before after : Sink} {bytes : List UInt8} {flushed : List Nat}
    (took : Took before after bytes flushed) (reliable : Reliable before) : Reliable after where
  clear := took.barrier.trans reliable.clear
  passes := took.failing.trans reliable.passes

theorem Reliable.fits {sink : Sink} (reliable : Reliable sink) (count : Nat) : Fits sink count := by
  intro wall stands
  rw [reliable.clear] at stands
  cases stands

/-- A computation that ends with a value and emits some bytes on every sink that
never fails. -/
def Emits (writing : Writing α) (value : α) (bytes : List UInt8) : Prop :=
  ∀ sink, Reliable sink → ∃ after flushed,
    writing sink = .ok value after ∧ Took sink after bytes flushed

theorem Writes.emits {writing : Writing Unit} {bytes : List UInt8} (writes : Writes writing bytes) :
    Emits writing () bytes := by
  intro sink reliable
  obtain ⟨after, ran, took⟩ := (writes sink).1 (reliable.fits _)
  exact ⟨after, [], ran, took⟩

theorem emits_flush : Emits flush () [] := by
  intro sink reliable
  have works : sink.flushCalls + 1 ∉ sink.failingFlushes := by simp [reliable.passes]
  obtain ⟨after, ran, took⟩ := flush_passes works
  exact ⟨after, _, ran, took⟩

theorem emits_pure (value : α) : Emits (pure value) value [] :=
  fun sink _ => ⟨sink, [], rfl, Took.refl sink⟩

theorem Emits.bind {first : Writing α} {next : α → Writing β} {value : α} {last : β}
    {bytes later : List UInt8} (front : Emits first value bytes)
    (back : Emits (next value) last later) : Emits (first >>= next) last (bytes ++ later) := by
  intro sink reliable
  obtain ⟨middle, flushed, ran, took⟩ := front sink reliable
  obtain ⟨after, behind, ranLater, tookLater⟩ := back middle (took.reliable reliable)
  refine ⟨after, flushed ++ behind, ?_, took.trans tookLater⟩
  simp [Bind.bind, EStateM.bind, ran, ranLater]

theorem Emits.attempt {writing : Writing α} {value : α} {bytes : List UInt8}
    (emits : Emits writing value bytes) : Emits (attempt writing) (.ok value) bytes := by
  intro sink reliable
  obtain ⟨after, flushed, ran, took⟩ := emits sink reliable
  exact ⟨after, flushed, by simp [Writing.attempt, ran], took⟩

/-- On a sink that never fails the color sequences stand around the text. -/
theorem Emits.withForeground {writing : Writing α} {value : α} {bytes : List UInt8}
    (emits : Emits writing value bytes) (color : Color) :
    Emits (withForeground (some color) writing) value
      (color.escape.flatMap Utf8.encode ++ bytes ++ Utf8.encode Color.reset) := by
  have order : color.escape.flatMap Utf8.encode ++ bytes ++ Utf8.encode Color.reset =
      color.escape.flatMap Utf8.encode ++ (bytes ++ (Utf8.encode Color.reset ++ ([] ++ []))) := by
    simp
  rw [order]
  refine (writes_pieces color.escape).emits.bind ?_
  refine emits.attempt.bind ?_
  refine (writes_text Color.reset).emits.attempt.bind ?_
  exact emits_flush.attempt.bind (emits_pure value)

end Summand.Delivery
