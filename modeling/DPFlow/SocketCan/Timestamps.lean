import DPFlow.SocketCan.Receive

/-!
# Three ways to a timestamp

A timestamp is a number of seconds and the nanoseconds on top of it. `readSocket` makes one
of the seconds and microseconds that the kernel reports, and two functions make one of a
single number of nanoseconds or of microseconds. The one for microseconds leaves the
fraction in microseconds, so the three agree on whole seconds only.

## Main definitions

* `CanFrame.Timestamp.Denotes` — the timestamp of a number of microseconds.
* `SocketCanBackend.StampsAgree` — the three give that timestamp.
-/
namespace DPFlow

/-! ## Timestamps of microseconds -/

namespace CanFrame.Timestamp

/-- The timestamp is that many microseconds after the epoch, its fraction below a second. -/
structure Denotes (t : Timestamp) (us : ℕ) : Prop where
  nonneg : 0 ≤ t.nanoseconds.toInt
  lt : t.nanoseconds.toInt < 1000000000
  total : t.seconds.toInt * 1000000000 + t.nanoseconds.toInt = 1000 * us

/-- There is one such timestamp. -/
theorem Denotes.unique {t t' : Timestamp} {us : ℕ} (h : t.Denotes us) (h' : t'.Denotes us) :
    t = t' := by
  obtain ⟨h0, h1, h2⟩ := h
  obtain ⟨h0', h1', h2'⟩ := h'
  have hs : t.seconds = t'.seconds := Int64.toInt_inj.mp (by omega)
  have hns : t.nanoseconds = t'.nanoseconds := Int64.toInt_inj.mp (by omega)
  cases t
  cases t'
  cases hs
  cases hns
  rfl

/-- The conversion keeps a number that is small enough. -/
theorem toInt_toInt64 {x : UInt64} (h : x.toNat < 2 ^ 63) : x.toInt64.toInt = x.toNat := by
  change x.toBitVec.toInt = x.toBitVec.toNat
  exact BitVec.toInt_eq_toNat_of_lt (by change 2 * x.toNat < 2 ^ 64; omega)

section ranges
variable {us : UInt64}

theorem fromNanoseconds_denotes (h : 1000 * us.toNat < 2 ^ 64) :
    (fromNanoseconds (1000 * us)).Denotes us.toNat := by
  have hns : (1000 * us).toNat = 1000 * us.toNat := by
    rw [UInt64.toNat_mul]
    exact Nat.mod_eq_of_lt h
  have hsec : (1000 * us / 1000000000).toNat = us.toNat / 1000000 := by
    rw [UInt64.toNat_div, hns]
    change 1000 * us.toNat / 1000000000 = _
    omega
  have hfrac : (1000 * us % 1000000000).toNat = 1000 * (us.toNat % 1000000) := by
    rw [UInt64.toNat_mod, hns]
    change 1000 * us.toNat % 1000000000 = _
    omega
  have hseconds : (fromNanoseconds (1000 * us)).seconds.toInt = us.toNat / 1000000 := by
    rw [fromNanoseconds, toInt_toInt64 (by omega), hsec]
    rfl
  have hnanoseconds : (fromNanoseconds (1000 * us)).nanoseconds.toInt =
      1000 * (us.toNat % 1000000) := by
    rw [fromNanoseconds, toInt_toInt64 (by omega), hfrac]
    rfl
  constructor <;> omega

theorem fromMicroseconds_seconds (h : 1000 * us.toNat < 2 ^ 64) :
    (fromMicroseconds us).seconds.toInt = us.toNat / 1000000 := by
  have hsec : (us / 1000000).toNat = us.toNat / 1000000 := UInt64.toNat_div us 1000000
  rw [fromMicroseconds, toInt_toInt64 (by omega), hsec]
  rfl

theorem fromMicroseconds_nanoseconds (us : UInt64) :
    (fromMicroseconds us).nanoseconds.toInt = us.toNat % 1000000 := by
  have hfrac : (us % 1000000).toNat = us.toNat % 1000000 := UInt64.toNat_mod us 1000000
  rw [fromMicroseconds, toInt_toInt64 (by omega), hfrac]
  rfl

/-- The fraction stays in microseconds, so only whole seconds come out right. -/
theorem fromMicroseconds_denotes_iff (h : 1000 * us.toNat < 2 ^ 64) :
    (fromMicroseconds us).Denotes us.toNat ↔ us.toNat % 1000000 = 0 := by
  have hseconds := fromMicroseconds_seconds h
  have hnanoseconds := fromMicroseconds_nanoseconds us
  constructor
  · rintro ⟨-, -, htotal⟩
    omega
  · intro hwhole
    constructor <;> omega

/-- Seconds and microseconds, as `readSocket` puts them together. -/
theorem timeval_denotes (h : 1000 * us.toNat < 2 ^ 64) :
    Denotes ⟨(us / 1000000).toInt64, 1000 * (us % 1000000).toInt64⟩ us.toNat := by
  have hseconds : (us / 1000000).toInt64.toInt = us.toNat / 1000000 := fromMicroseconds_seconds h
  have hmicro : (us % 1000000).toInt64.toInt = us.toNat % 1000000 :=
    fromMicroseconds_nanoseconds us
  have hnanoseconds : (1000 * (us % 1000000).toInt64).toInt = 1000 * (us.toNat % 1000000) := by
    rw [Int64.toInt_mul, hmicro]
    exact Int.bmod_eq_of_le_mul_two (by change _ ≤ 1000 * _ * 2; omega)
      (by change 1000 * _ * 2 < _; omega)
  constructor <;> dsimp only <;> omega

end ranges

end CanFrame.Timestamp

/-! ## Timestamps of frames -/

namespace SocketCanBackend

open CanFrame (Timestamp)

/-- The setters that `readSocket` calls leave the timestamp it set. -/
theorem decode_timestamp (raw : CanfdStruct) (bytesRx : ℕ) (timestamp : Timestamp)
    (msgFlags : BitVec 32) : (decode raw bytesRx timestamp msgFlags).timestamp = timestamp := by
  have hsetId : ∀ (f : CanFrame) (newId : BitVec 64),
      (f.setId newId)._timestamp = f._timestamp := by
    intro f newId
    rw [CanFrame.setId]
    split <;> rfl
  change (CanFrame.setId _ _)._timestamp = timestamp
  rw [hsetId]
  split_ifs <;> rfl

/-- The kernel's time for the datagram is that many microseconds after the epoch. -/
def Datagram.StampedAt (d : Datagram) (us : UInt64) : Prop :=
  d.stamp = .ok ((us / 1000000).toInt64, (us % 1000000).toInt64)

/-- The three timestamps of a number of microseconds are one, and denote it: those of the
two functions, and the one in the frame that `readSocket` hands on for a datagram which the
kernel stamped with it, whatever it receives before and after. -/
structure StampsAgree (us : UInt64) : Prop where
  nanoseconds : Timestamp.fromMicroseconds us = .fromNanoseconds (1000 * us)
  frames : ∀ (b : SocketCanBackend) (before rest : List Datagram) (d : Datagram),
    (∀ e ∈ before, e.bytes ≠ []) → d.Accepted → d.StampedAt us → b.HandsOn before d rest ∧
    Timestamp.fromMicroseconds us = d.frame.timestamp
  denotes : (Timestamp.fromMicroseconds us).Denotes us.toNat
  nanoseconds_denotes : (Timestamp.fromNanoseconds (1000 * us)).Denotes us.toNat
  frames_denote : ∀ d : Datagram, d.Accepted → d.StampedAt us →
    d.frame.timestamp.Denotes us.toNat

theorem Datagram.StampedAt.denotes {d : Datagram} {us : UInt64} (h : d.StampedAt us)
    (hus : 1000 * us.toNat < 2 ^ 64) : d.frame.timestamp.Denotes us.toNat := by
  rw [Datagram.frame, decode_timestamp, h]
  exact Timestamp.timeval_denotes hus

/-- **Timestamps agree on whole seconds only.** -/
theorem stampsAgree_iff {us : UInt64} (hus : 1000 * us.toNat < 2 ^ 64) :
    StampsAgree us ↔ us.toNat % 1000000 = 0 := by
  rw [← Timestamp.fromMicroseconds_denotes_iff hus]
  constructor
  · exact StampsAgree.denotes
  · intro hmicro
    have hnano := Timestamp.fromNanoseconds_denotes hus
    refine ⟨hmicro.unique hnano, ?_, hmicro, hnano, fun d _ h => h.denotes hus⟩
    intro b before rest d hbefore hd h
    exact ⟨readSocket_append b hbefore hd rest, hmicro.unique (h.denotes hus)⟩

/-- Three seconds. -/
theorem stampsAgree_three_seconds :
    StampsAgree 3000000 ↔ (3000000 : UInt64).toNat % 1000000 = 0 :=
  stampsAgree_iff (by decide)

/-- Half a second gives 500000 nanoseconds. -/
theorem stampsAgree_fails :
    Timestamp.fromMicroseconds 500000 = ⟨0, 500000⟩ ∧
      ¬ ∀ us : UInt64, 1000 * us.toNat < 2 ^ 64 → StampsAgree us := by
  refine ⟨rfl, ?_⟩
  intro h
  exact absurd (h 500000 (by decide)).nanoseconds (by decide)

end SocketCanBackend
end DPFlow
