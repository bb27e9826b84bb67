import RecordHeader.Failure
import RecordHeader.Text.Bytes

set_option autoImplicit false

/-! # Output streams

A stream takes what it can of the bytes it is offered and says how many it
took.  `OutputStream.emit` offers the rest again until all of a text is taken,
and then flushes once.  It stops at the first sign that the stream takes no
more.

`Sink` is the stream with a fixed limit for one call and for all of them.
-/

namespace RecordHeader

/-- What a stream does with the bytes that it is offered. -/
class OutputStream (σ : Type) where
  /-- Offers bytes; the answer is how many were taken. -/
  write : σ → Bytes → Except Fault Nat × σ
  /-- Asks the stream to pass on what it has taken. -/
  flush : σ → Except Fault Unit × σ
  /-- The bytes taken so far. -/
  received : σ → Bytes
  /-- No more bytes are taken than were offered. -/
  count_le : ∀ {stream next : σ} {bytes : Bytes} {count : Nat},
    write stream bytes = (.ok count, next) → count ≤ bytes.length
  /-- The bytes that are taken are the first ones of those that were offered. -/
  received_of_ok : ∀ {stream next : σ} {bytes : Bytes} {count : Nat},
    write stream bytes = (.ok count, next) → received next = received stream ++ bytes.take count
  /-- A call that fails takes nothing. -/
  received_of_error : ∀ {stream next : σ} {bytes : Bytes} {fault : Fault},
    write stream bytes = (.error fault, next) → received next = received stream
  /-- Flushing takes nothing. -/
  received_flush : ∀ stream : σ, received (flush stream).2 = received stream

namespace OutputStream

variable {σ : Type} [OutputStream σ]

/-- Offers bytes until all of them are taken. -/
def writeAll (stream : σ) (bytes : Bytes) : Except Fault Unit × σ :=
  if bytes = [] then (.ok (), stream)
  else
    match write stream bytes with
    | (.error fault, next) => (.error fault, next)
    | (.ok 0, next) => (.error .writeZero, next)
    | (.ok (count + 1), next) => writeAll next (bytes.drop (count + 1))
termination_by bytes.length
decreasing_by
  rename_i nonempty
  have : 0 < bytes.length := List.length_pos_iff.mpr nonempty
  simp only [List.length_drop]
  omega

/-- Writes a text and flushes. -/
def emit (stream : σ) (text : String) : Except Fault Unit × σ :=
  match writeAll stream (Text.utf8 text) with
  | (.error fault, next) => (.error fault, next)
  | (.ok (), next) => flush next

end OutputStream

/-- A stream that takes at most `chunk` bytes a call and `capacity` bytes in
all. -/
structure Sink where
  /-- The most bytes taken in one call. -/
  chunk : Nat
  /-- How many bytes can still be taken. -/
  capacity : Nat
  /-- The fault of a call that takes nothing; without one the call answers zero. -/
  refusal : Option Fault := none
  /-- The fault of a flush, if flushing fails. -/
  flushFault : Option Fault := none
  /-- The bytes taken so far. -/
  received : Bytes := []
  /-- How often the stream was flushed. -/
  flushes : Nat := 0
deriving DecidableEq

namespace Sink

/-- More bytes than a program writes. -/
def vast : Nat := 0x10000000000000000

/-- A stream that takes all that a program can write. -/
def spacious : Sink where
  chunk := vast
  capacity := vast

/-- A stream on a device without space. -/
def full : Sink where
  chunk := vast
  capacity := 0
  refusal := some .noSpace

/-- How many of the offered bytes one call takes. -/
def taken (sink : Sink) (bytes : Bytes) : Nat :=
  min bytes.length (min sink.chunk sink.capacity)

/-- Offers bytes; the answer is how many were taken. -/
def write (sink : Sink) (bytes : Bytes) : Except Fault Nat × Sink :=
  let count := sink.taken bytes
  if count = 0 then
    match sink.refusal with
    | some fault => (.error fault, sink)
    | none => (.ok 0, sink)
  else
    (.ok count,
      { sink with
        capacity := sink.capacity - count
        received := sink.received ++ bytes.take count })

/-- Flushes a stream. -/
def flush (sink : Sink) : Except Fault Unit × Sink :=
  let next := { sink with flushes := sink.flushes + 1 }
  match sink.flushFault with
  | some fault => (.error fault, next)
  | none => (.ok (), next)

/-- A call fails and takes nothing, or takes the first of the offered bytes. -/
theorem write_cases (sink : Sink) (bytes : Bytes) :
    (∃ fault, sink.write bytes = (.error fault, sink)) ∨
    sink.write bytes = (.ok (sink.taken bytes),
      { sink with
        capacity := sink.capacity - sink.taken bytes
        received := sink.received ++ bytes.take (sink.taken bytes) }) := by
  unfold write
  by_cases hnone : sink.taken bytes = 0
  · cases hrefusal : sink.refusal with
    | some fault => exact Or.inl ⟨fault, by simp [hnone]⟩
    | none => exact Or.inr (by simp [hnone, ← hrefusal])
  · exact Or.inr (by simp [hnone])

instance : OutputStream Sink where
  write := write
  flush := flush
  received := received
  count_le := by
    intro sink next bytes count h
    rcases sink.write_cases bytes with ⟨fault, hwrite⟩ | hwrite
    · cases hwrite.symm.trans h
    · cases hwrite.symm.trans h
      exact Nat.min_le_left _ _
  received_of_ok := by
    intro sink next bytes count h
    rcases sink.write_cases bytes with ⟨fault, hwrite⟩ | hwrite
    · cases hwrite.symm.trans h
    · cases hwrite.symm.trans h
      rfl
  received_of_error := by
    intro sink next bytes fault h
    rcases sink.write_cases bytes with ⟨other, hwrite⟩ | hwrite
    · cases hwrite.symm.trans h
      rfl
    · cases hwrite.symm.trans h
  received_flush := by
    intro sink
    unfold flush
    cases sink.flushFault <;> rfl

/-- Writes a text to a sink and flushes it. -/
def emit (sink : Sink) (text : String) : Except Fault Unit × Sink :=
  OutputStream.emit sink text

end Sink

/-- A fault of standard output as the failure of a run. -/
def Failure.ofStandardOutput (fault : Fault) : Failure :=
  .file { path := "<stdout>", fault }

end RecordHeader
