import DPFlow.Lib.Packed

/-!
# CAN frames

A frame is a record of flags, an identifier in a 29-bit field and a payload, and it
changes through its public setters only. Several setters touch more than the field
they are named after, in both directions: `setFD` clears the flags that only
flexible-rate frames have, `setBitrateSwitch`, `setPayload` and `setId` raise others.

## Main definitions

* `CanFrame` — the members, and the getters and setters on them.
* `CanFrame.isValid` — the frames that may be sent.
* `CanFrame.Reachable` — what the constructors and setters can build.
-/
namespace DPFlow

/-- `CanFrame::FrameType`. -/
inductive CanFrame.FrameType
  | unknownFrame
  | dataFrame
  | errorFrame
  | remoteRequestFrame
  | invalidFrame
  deriving DecidableEq, Repr

/-- `CanFrame::Timestamp`. -/
structure CanFrame.Timestamp where
  seconds : Int64
  nanoseconds : Int64
  deriving DecidableEq, Repr

/-- `Timestamp::fromNanoseconds`. -/
def CanFrame.Timestamp.fromNanoseconds (ns : UInt64) : Timestamp :=
  ⟨(ns / 1000000000).toInt64, (ns % 1000000000).toInt64⟩

/-- `Timestamp::fromMicroseconds`. -/
def CanFrame.Timestamp.fromMicroseconds (us : UInt64) : Timestamp :=
  ⟨(us / 1000000).toInt64, (us % 1000000).toInt64⟩

/-- The members of a frame that its methods look at. -/
structure CanFrame where
  _id : BitVec 29
  _type : CanFrame.FrameType
  _isExtendedId : Bool
  _isErrorState : Bool
  _isFD : Bool
  _isBRS : Bool
  _isEcho : Bool
  _isValidId : Bool
  _payload : List UInt8
  _timestamp : CanFrame.Timestamp
  deriving DecidableEq, Repr

namespace CanFrame

/-- `CAN_EFF_MASK`: 29-bit identifiers. -/
def effMask {w : ℕ} : BitVec w := 0x1FFFFFFF

/-- `CAN_EFF_UPPER_MASK`: the upper 18 bits of a 29-bit identifier. -/
def effUpperMask {w : ℕ} : BitVec w := 0x1FFFF800

/-! ## Getters -/

def frameType (f : CanFrame) : FrameType := f._type
def isExtendedId (f : CanFrame) : Bool := f._isExtendedId
def isFD (f : CanFrame) : Bool := f._isFD
def isBitrateSwitch (f : CanFrame) : Bool := f._isBRS
def isErrorState (f : CanFrame) : Bool := f._isErrorState
def isLocalEcho (f : CanFrame) : Bool := f._isEcho
def payload (f : CanFrame) : List UInt8 := f._payload
def timestamp (f : CanFrame) : Timestamp := f._timestamp

/-- `id`: an error frame has none. -/
def id (f : CanFrame) : BitVec 64 :=
  if f._type = .errorFrame then 0 else f._id.setWidth 64 &&& effMask

/-- `error`: the identifier field of an error frame is a bit mask of errors. -/
def error (f : CanFrame) : BitVec 32 :=
  if f._type ≠ .errorFrame then 0 else f._id.setWidth 32 &&& effMask

/-! ## Setters -/

/-- `setFrameType`. Its `switch` keeps the old type for a value that is none of the enumerators;
`FrameType` has no such value here. -/
def setFrameType (f : CanFrame) (newType : FrameType) : CanFrame := { f with _type := newType }
def setExtendedId (f : CanFrame) (isExtended : Bool) : CanFrame :=
  { f with _isExtendedId := isExtended }
def setTimestamp (f : CanFrame) (ts : Timestamp) : CanFrame := { f with _timestamp := ts }
def setErrorState (f : CanFrame) (es : Bool) : CanFrame := { f with _isErrorState := es }
def setLocalEcho (f : CanFrame) (echo : Bool) : CanFrame := { f with _isEcho := echo }

/-- `setId`: a number above the mask makes the identifier invalid. -/
def setId (f : CanFrame) (newId : BitVec 64) : CanFrame :=
  if newId ≤ effMask then
    { f with _isValidId := true
             _id := newId.setWidth 29
             _isExtendedId := f._isExtendedId || newId &&& effUpperMask != 0 }
  else { f with _isValidId := false, _id := 0 }

def setPayload (f : CanFrame) (data : List UInt8) : CanFrame :=
  { f with _payload := data, _isFD := f._isFD || data.length > 8 }

def setError (f : CanFrame) (err : BitVec 32) : CanFrame :=
  if f._type ≠ .errorFrame then f else { f with _id := (err &&& effMask).setWidth 29 }

def setFD (f : CanFrame) (isFD : Bool) : CanFrame :=
  { f with _isFD := isFD, _isBRS := isFD && f._isBRS, _isErrorState := isFD && f._isErrorState }

def setBitrateSwitch (f : CanFrame) (brs : Bool) : CanFrame :=
  { f with _isBRS := brs, _isFD := brs || f._isFD }

/-! ## Construction -/

/-- A frame with every flag down, before a constructor's body runs. -/
def blank : CanFrame :=
  { _id := 0, _type := .dataFrame, _isExtendedId := false, _isErrorState := false,
    _isFD := false, _isBRS := false, _isEcho := false, _isValidId := false, _payload := [],
    _timestamp := ⟨0, 0⟩ }

/-- `CanFrame(FrameType)`. -/
def ofType (type : FrameType) : CanFrame := (blank.setId 0).setFrameType type

/-- `CanFrame(FrameId, const std::vector<std::byte> &)`. -/
def ofData (id : BitVec 64) (data : List UInt8) : CanFrame :=
  { blank with _isFD := data.length > 8, _payload := data }.setId id

/-- `isValid`. -/
def isValid (f : CanFrame) : Bool :=
  if f._type = .invalidFrame then false
  else if !f._isExtendedId && f._id &&& effUpperMask != 0 then false
  else if !f._isValidId then false
  else
    let len := f._payload.length
    if f._isFD then
      if f._type = .remoteRequestFrame then false
      else len ≤ 8 || len = 12 || len = 16 || len = 20 || len = 24 || len = 32 || len = 48 ||
        len = 64
    else len ≤ 8

/-- The frames that the constructors and any calls of the setters can build. -/
inductive Reachable : CanFrame → Prop
  | ofType (type) : Reachable (ofType type)
  | ofData (id data) : Reachable (ofData id data)
  | setFrameType {f} (newType) : Reachable f → Reachable (f.setFrameType newType)
  | setExtendedId {f} (isExtended) : Reachable f → Reachable (f.setExtendedId isExtended)
  | setId {f} (newId) : Reachable f → Reachable (f.setId newId)
  | setPayload {f} (data) : Reachable f → Reachable (f.setPayload data)
  | setTimestamp {f} (ts) : Reachable f → Reachable (f.setTimestamp ts)
  | setError {f} (err) : Reachable f → Reachable (f.setError err)
  | setFD {f} (isFD) : Reachable f → Reachable (f.setFD isFD)
  | setBitrateSwitch {f} (brs) : Reachable f → Reachable (f.setBitrateSwitch brs)
  | setErrorState {f} (es) : Reachable f → Reachable (f.setErrorState es)
  | setLocalEcho {f} (echo) : Reachable f → Reachable (f.setLocalEcho echo)

/-! ## What the setters keep -/

/-- A new frame of a given type. -/
theorem ofType_eq (type : FrameType) :
    ofType type = { blank with _isValidId := true, _type := type } := rfl

/-- An identifier that fits is stored as it is. -/
theorem setId_setWidth (f : CanFrame) (x : BitVec 29) :
    f.setId (x.setWidth 64) =
      { f with _isValidId := true
               _id := x
               _isExtendedId := f._isExtendedId || x &&& effUpperMask != 0 } := by
  have hle : x.setWidth 64 ≤ effMask := by
    rw [BitVec.le_def, BitVec.toNat_setWidth_of_le (by decide)]
    exact Nat.le_of_lt_succ x.isLt
  have hupper : (x.setWidth 64 &&& effUpperMask != 0) = (x &&& effUpperMask != 0) := by
    rw [Bool.eq_iff_iff, bne_iff_ne, bne_iff_ne, ne_eq, ne_eq, not_iff_not,
      ← BitVec.toNat_inj, ← BitVec.toNat_inj, BitVec.toNat_and, BitVec.toNat_and,
      BitVec.toNat_setWidth_of_le (by decide)]
    rfl
  rw [setId, if_pos hle, hupper, BitVec.setWidth_setWidth_of_le _ (by decide),
    BitVec.setWidth_eq]

/-- `setId` leaves the flags of flexible-rate frames alone. -/
theorem setId_flags (f : CanFrame) (newId : BitVec 64) :
    (f.setId newId)._isBRS = f._isBRS ∧ (f.setId newId)._isFD = f._isFD := by
  rw [setId]
  split <;> exact ⟨rfl, rfl⟩

/-- Only a flexible-rate frame switches its bit rate. -/
theorem Reachable.isFD_of_isBRS {f : CanFrame} (h : Reachable f) :
    f._isBRS = true → f._isFD = true := by
  induction h with
  | ofType type => exact fun hbrs => nomatch (setId_flags blank 0).1.symm.trans hbrs
  | ofData id data =>
      intro hbrs
      rw [CanFrame.ofData, (setId_flags _ id).1] at hbrs
      cases hbrs
  | setId newId _ ih => rwa [(setId_flags _ newId).1, (setId_flags _ newId).2]
  | setPayload data _ ih => exact fun hbrs => by simp [CanFrame.setPayload, ih hbrs]
  | setError err _ ih =>
      rw [CanFrame.setError]
      split <;> exact ih
  | setFD isFD _ ih =>
      intro hbrs
      exact (Bool.and_eq_true_iff.mp hbrs).1
  | setBitrateSwitch brs _ ih =>
      intro hbrs
      exact Bool.or_eq_true_iff.mpr (.inl hbrs)
  | setFrameType _ _ ih => exact ih
  | setExtendedId _ _ ih => exact ih
  | setTimestamp _ _ ih => exact ih
  | setErrorState _ _ ih => exact ih
  | setLocalEcho _ _ ih => exact ih

/-! ## Validity -/

/-- The upper mask has the bits above the low 11. -/
theorem and_effUpperMask_ne_zero_iff (x : BitVec 29) :
    x &&& effUpperMask ≠ 0 ↔ 0x7FF < x.toNat := by
  have hlow : (x &&& 0x7FF#29).toNat = x.toNat % 2 ^ 11 := by
    rw [BitVec.toNat_and]
    exact Nat.and_two_pow_sub_one_eq_mod x.toNat 11
  have hsplit : x = (x &&& effUpperMask) ||| (x &&& 0x7FF#29) := by
    rw [← BitVec.and_or_distrib_left]
    exact BitVec.and_allOnes.symm
  rw [ne_eq, ← not_le, not_iff_not]
  constructor
  · intro hzero
    rw [hzero] at hsplit
    have hfits : x = x &&& 0x7FF#29 := hsplit.trans BitVec.zero_or
    rw [hfits, hlow]
    omega
  · intro hle
    have hfits : x = x &&& 0x7FF#29 := by
      apply BitVec.eq_of_toNat_eq
      rw [hlow]
      omega
    rw [hfits, BitVec.and_assoc]
    exact BitVec.and_zero

/-- The checks of `isValid`, one by one. -/
theorem isValid_iff (f : CanFrame) :
    f.isValid = true ↔ f._type ≠ .invalidFrame ∧
      (f._id.toNat ≤ 0x7FF ∨ f._isExtendedId = true) ∧ f._isValidId = true ∧
      (f._isFD = false → f._payload.length ≤ 8) ∧
      (f._isFD = true → f._type ≠ .remoteRequestFrame ∧
        (f._payload.length ≤ 8 ∨ f._payload.length ∈ [12, 16, 20, 24, 32, 48, 64])) := by
  have hwidth : (!f._isExtendedId && f._id &&& effUpperMask != 0) = true ↔
      ¬ (f._id.toNat ≤ 0x7FF ∨ f._isExtendedId = true) := by
    rw [Bool.and_eq_true, bne_iff_ne, and_effUpperMask_ne_zero_iff, Bool.not_eq_true', not_or,
      not_le, Bool.not_eq_true, and_comm]
  rw [isValid]
  by_cases htype : f._type = .invalidFrame
  · simp [htype]
  rw [if_neg htype]
  by_cases hshort : (!f._isExtendedId && f._id &&& effUpperMask != 0) = true
  · rw [if_pos hshort]
    exact iff_of_false Bool.false_ne_true fun h => hwidth.mp hshort h.2.1
  rw [if_neg hshort]
  have hfits := not_not.mp (mt hwidth.mpr hshort)
  cases hid : f._isValidId with
  | false => simp
  | true =>
      cases hfd : f._isFD with
      | false => simp [htype, hfits]
      | true =>
          by_cases hrtr : f._type = .remoteRequestFrame
          · simp [hrtr]
          · simp [htype, hfits, hrtr, or_assoc]

/-- A valid frame's payload fits the array of its kind. -/
theorem length_payload_le {f : CanFrame} (h : f.isValid = true) :
    f.payload.length ≤ if f.isFD then 64 else 8 := by
  obtain ⟨-, -, -, hclassic, hflexible⟩ := (isValid_iff f).mp h
  rw [payload, isFD]
  split_ifs with hfd
  · have hlen := (hflexible hfd).2
    simp only [List.mem_cons, List.not_mem_nil, or_false] at hlen
    omega
  · exact hclassic (Bool.eq_false_iff.mpr hfd)

end CanFrame
end DPFlow
