import DPFlow.Dploader.Decode

/-!
# Frames in a stream

`decode` removes the escapes before it looks for delimiters, and so cannot tell where a frame
ends. The escaped bytes can: an `EOT` that no escape stands ahead of closes the frame, whatever
comes behind it. A stream of frames is cut in one way only.
-/
namespace DPFlow.Dploader

open Lib

theorem frame_append_iff (b b' s s' : List UInt8) :
    frame b ++ s = frame b' ++ s' ↔ b = b' ∧ s = s' := by
  have hEOT : stuffing.special EOT = true := rfl
  have hclose : EOT ≠ stuffing.esc := by decide
  have hcut : ∀ c t : List UInt8, frame c ++ t = SOH :: (stuffing.encode c ++ EOT :: t) := by
    intro c t
    rw [frame, escape_eq_encode, List.append_assoc, List.append_assoc]
    rfl
  rw [hcut, hcut, List.cons_inj_right, stuffing.encode_append_cons_iff hEOT hclose]

/-- **A stream is cut in one way.** The bytes of a frame with anything behind it determine what
is in the frame and what is behind it, and the bytes of any number of frames in a row determine
what is in each. -/
theorem frames_determined :
    (∀ b b' s s' : List UInt8, frame b ++ s = frame b' ++ s' ↔ b = b' ∧ s = s') ∧
      Function.Injective fun bs : List (List UInt8) => bs.flatMap frame := by
  refine ⟨frame_append_iff, ?_⟩
  intro bs
  induction bs with
  | nil =>
      intro bs' h
      cases bs' with
      | nil => rfl
      | cons b' bs' => cases h
  | cons b bs ih =>
      intro bs' h
      cases bs' with
      | nil => cases h
      | cons b' bs' =>
          obtain ⟨rfl, hrest⟩ := (frame_append_iff _ _ _ _).mp h
          rw [ih hrest]

end DPFlow.Dploader
