import RecordHeader.Sink
import Mathlib.Tactic

set_option autoImplicit false

/-! # What reaches a stream

A stream is offered a text until it has taken all of it, and is then flushed.  It may take as few
bytes a call as it likes, and it may stop at any point.

`OutputStream.Takes` says on the calls alone that a stream takes all of some bytes, and
`OutputStream.Accepts` that it takes a text and the flush after it.  `writeAll_cases` says what the
loop comes to: the stream takes everything, or it fails after a prefix.  From it follow the two laws
of `emit`: it succeeds on the texts that are accepted (`emit_eq_ok_iff`), and what reaches the
stream is a prefix of the text in any case (`received_emit`).
-/

namespace RecordHeader.OutputStream

variable {σ : Type} [OutputStream σ] {stream next last : σ} {bytes : Bytes}

/-- A stream takes all of some bytes.  Each call takes at least one, and is offered what the calls
before it left. -/
inductive Takes : σ → Bytes → σ → Prop
  | none (stream : σ) : Takes stream [] stream
  | call {stream next last : σ} {bytes : Bytes} {count : Nat} : bytes ≠ [] →
      write stream bytes = (.ok (count + 1), next) → Takes next (bytes.drop (count + 1)) last →
      Takes stream bytes last

/-- A stream takes every byte of a text, and the flush after it works. -/
def Accepts (stream : σ) (text : String) : Prop :=
  ∃ last, Takes stream (Text.utf8 text) last ∧ (flush last).1 = .ok ()

/-! ## One call of the loop -/

theorem writeAll_nil (stream : σ) : writeAll stream [] = (.ok (), stream) := by
  rw [writeAll, if_pos rfl]

theorem writeAll_of_error {fault : Fault} (hne : bytes ≠ [])
    (h : write stream bytes = (.error fault, next)) :
    writeAll stream bytes = (.error fault, next) := by
  rw [writeAll, if_neg hne, h]

theorem writeAll_of_zero (hne : bytes ≠ []) (h : write stream bytes = (.ok 0, next)) :
    writeAll stream bytes = (.error .writeZero, next) := by
  rw [writeAll, if_neg hne, h]

theorem writeAll_of_count {count : Nat} (hne : bytes ≠ [])
    (h : write stream bytes = (.ok (count + 1), next)) :
    writeAll stream bytes = writeAll next (bytes.drop (count + 1)) := by
  rw [writeAll, if_neg hne, h]

/-! ## The loop -/

/-- What was taken is what was offered, in its order. -/
theorem Takes.received_eq (h : Takes stream bytes last) :
    received last = received stream ++ bytes := by
  induction h with
  | none stream => rw [List.append_nil]
  | @call stream next last bytes count _ hwrite _ ih =>
      calc received last
          = received next ++ bytes.drop (count + 1) := ih
        _ = received stream ++ bytes.take (count + 1) ++ bytes.drop (count + 1) := by
            rw [received_of_ok hwrite]
        _ = received stream ++ bytes := by
            rw [List.append_assoc, List.take_append_drop]

/-- The loop succeeds where all bytes are taken. -/
theorem Takes.writeAll_eq (h : Takes stream bytes last) :
    writeAll stream bytes = (.ok (), last) := by
  induction h with
  | none stream => exact writeAll_nil stream
  | call hne hwrite _ ih => rw [writeAll_of_count hne hwrite, ih]

/-- **What the loop comes to.** The stream takes all bytes, or it fails when it has taken some of
them, from the front. -/
theorem writeAll_cases (stream : σ) (bytes : Bytes) :
    (∃ last, Takes stream bytes last ∧ writeAll stream bytes = (.ok (), last)) ∨
    ∃ fault last part, writeAll stream bytes = (.error fault, last) ∧ part <+: bytes ∧
      received last = received stream ++ part := by
  -- on the number of bytes that are left, since a call may take any number of them
  induction hn : bytes.length using Nat.strong_induction_on generalizing stream bytes with
  | _ n ih =>
      by_cases hne : bytes = []
      · subst hne
        exact Or.inl ⟨stream, .none stream, writeAll_nil stream⟩
      · have hpos : 0 < bytes.length := List.length_pos_iff.mpr hne
        rcases hwrite : write stream bytes with ⟨_ | count, next⟩
        · exact Or.inr ⟨_, next, [], writeAll_of_error hne hwrite, List.nil_prefix,
            by rw [received_of_error hwrite, List.append_nil]⟩
        cases count with
        | zero =>
            exact Or.inr ⟨_, next, [], writeAll_of_zero hne hwrite, List.nil_prefix,
              by rw [received_of_ok hwrite, List.take_zero]⟩
        | succ count =>
            have hshort : (bytes.drop (count + 1)).length < n := by
              rw [List.length_drop]
              omega
            rw [writeAll_of_count hne hwrite]
            rcases ih _ hshort next (bytes.drop (count + 1)) rfl with
              ⟨last, htakes, hall⟩ | ⟨fault, last, part, hall, hpart, hreceived⟩
            · exact Or.inl ⟨last, .call hne hwrite htakes, hall⟩
            · refine Or.inr ⟨fault, last, bytes.take (count + 1) ++ part, hall, ?_, ?_⟩
              · conv_rhs => rw [← List.take_append_drop (count + 1) bytes]
                exact (List.prefix_append_right_inj _).mpr hpart
              · rw [hreceived, received_of_ok hwrite, List.append_assoc]

/-! ## Texts -/

/-- **Emitting succeeds on the texts that are accepted.** -/
theorem emit_eq_ok_iff {text : String} :
    (emit stream text).1 = .ok () ↔ Accepts stream text := by
  constructor
  · intro h
    rcases writeAll_cases stream (Text.utf8 text) with
      ⟨last, htakes, hall⟩ | ⟨fault, last, part, hall, -, -⟩
    · simp only [emit, hall] at h
      exact ⟨last, htakes, h⟩
    · simp only [emit, hall] at h
      cases h
  · rintro ⟨last, htakes, hflush⟩
    simp only [emit, htakes.writeAll_eq, hflush]

/-- **What reaches the stream** is a prefix of the text, and all of it where emitting succeeds. -/
theorem received_emit (stream : σ) (text : String) :
    ∃ part, part <+: Text.utf8 text ∧
      received (emit stream text).2 = received stream ++ part ∧
      ((emit stream text).1 = .ok () → part = Text.utf8 text) := by
  rcases writeAll_cases stream (Text.utf8 text) with
    ⟨last, htakes, hall⟩ | ⟨fault, last, part, hall, hpart, hreceived⟩
  · refine ⟨Text.utf8 text, List.prefix_refl _, ?_, fun _ => rfl⟩
    simp only [emit, hall]
    rw [received_flush, htakes.received_eq]
  · refine ⟨part, hpart, by simp only [emit, hall, hreceived], fun h => ?_⟩
    simp only [emit, hall] at h
    cases h

end RecordHeader.OutputStream
