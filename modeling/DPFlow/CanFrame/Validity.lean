import DPFlow.CanFrame.Setters

/-!
# What a frame's history says about its validity

`isValid` looks at six members, and most setters write more than one of them. Read off the
calls themselves, the latest first, a frame is valid by the last type it was given, the
last identifier, the last accepted identifier or error mask, and the last say that any call
had on the extended flag, on the kind of frame and on the payload.

## Main definitions

* `CanFrame.lastType`, `CanFrame.lastId`, `CanFrame.lastPayload` — what was set last.
* `CanFrame.storedId`, `CanFrame.extendedFlag`, `CanFrame.fdFlag` — what several calls have
  a say in.
* `CanFrame.ValidHistory` — the calls leave a valid frame.
-/
namespace DPFlow.CanFrame

open Lib

/-! ## The history of a frame -/

/-- The type a constructor gives. -/
def Constructor.type : Constructor → FrameType
  | ofType type => type
  | ofData _ _ => .dataFrame

/-- The identifier a constructor gives. -/
def Constructor.id : Constructor → BitVec 64
  | ofType _ => 0
  | ofData id _ => id

/-- The payload a constructor gives. -/
def Constructor.data : Constructor → List UInt8
  | ofType _ => []
  | ofData _ data => data

/-- The last type set. Here and below the calls have the latest one first. -/
def lastType (c : Constructor) : List Setter → FrameType
  | [] => c.type
  | .setFrameType newType :: _ => newType
  | _ :: past => lastType c past

/-- The last identifier given, in range or not. -/
def lastId (c : Constructor) : List Setter → BitVec 64
  | [] => c.id
  | .setId newId :: _ => newId
  | _ :: past => lastId c past

/-- The last payload. -/
def lastPayload (c : Constructor) : List Setter → List UInt8
  | [] => c.data
  | .setPayload data :: _ => data
  | _ :: past => lastPayload c past

/-- The identifier field: the last accepted identifier, or a later error mask that was set
on an error frame. -/
def storedId (c : Constructor) : List Setter → ℕ
  | [] => c.id.toNat
  | .setId newId :: past => if newId.toNat ≤ 0x1FFFFFFF then newId.toNat else storedId c past
  | .setError err :: past =>
      if lastType c past = .errorFrame then err.toNat % 2 ^ 29 else storedId c past
  | _ :: past => storedId c past

/-- An accepted identifier that takes more than 11 bits. -/
def isLongId (newId : BitVec 64) : Bool := 0x7FF < newId.toNat && newId.toNat ≤ 0x1FFFFFFF

/-- The extended flag: as it was last set, or raised by a later identifier. -/
def extendedFlag (c : Constructor) : List Setter → Bool
  | [] => isLongId c.id
  | .setExtendedId isExtended :: _ => isExtended
  | .setId newId :: past => isLongId newId || extendedFlag c past
  | _ :: past => extendedFlag c past

/-- The flag for flexible-rate frames: as it was last set, or raised by a later bit rate
switch or long payload. -/
def fdFlag (c : Constructor) : List Setter → Bool
  | [] => c.data.length > 8
  | .setFD isFD :: _ => isFD
  | .setBitrateSwitch brs :: past => brs || fdFlag c past
  | .setPayload data :: past => data.length > 8 || fdFlag c past
  | _ :: past => fdFlag c past

/-- The calls leave a valid frame. -/
structure ValidHistory (c : Constructor) (past : List Setter) : Prop where
  type : lastType c past ≠ .invalidFrame
  id : (lastId c past).toNat ≤ 0x1FFFFFFF
  width : storedId c past ≤ 0x7FF ∨ extendedFlag c past = true
  classic : fdFlag c past = false → (lastPayload c past).length ≤ 8
  flexible : fdFlag c past = true → lastType c past ≠ .remoteRequestFrame ∧
    ((lastPayload c past).length ≤ 8 ∨
      (lastPayload c past).length ∈ [12, 16, 20, 24, 32, 48, 64])

/-! ## The identifier field -/

/-- An identifier in range fits the field. -/
theorem le_effMask_iff (newId : BitVec 64) : newId ≤ effMask ↔ newId.toNat ≤ 0x1FFFFFFF :=
  BitVec.le_def

/-- What `setId` does with an identifier in range. -/
theorem setId_accepted (f : CanFrame) {newId : BitVec 64} (h : newId.toNat ≤ 0x1FFFFFFF) :
    f.setId newId =
      { f with _isValidId := true
               _id := newId.setWidth 29
               _isExtendedId := isLongId newId || f._isExtendedId } := by
  obtain ⟨x, rfl⟩ := exists_setWidth (n := 29) (by decide) (Nat.lt_succ_of_le h)
  have hnat : (x.setWidth 64).toNat = x.toNat := BitVec.toNat_setWidth_of_le (by decide)
  have hlong : (x &&& effUpperMask != 0) = isLongId (x.setWidth 64) := by
    rw [Bool.eq_iff_iff, bne_iff_ne, and_effUpperMask_ne_zero_iff, isLongId, Bool.and_eq_true,
      decide_eq_true_eq, decide_eq_true_eq, hnat]
    exact (and_iff_left (hnat ▸ h)).symm
  rw [setId_setWidth, hlong, BitVec.setWidth_setWidth_of_le _ (by decide), BitVec.setWidth_eq,
    Bool.or_comm]

/-- And with one out of range. -/
theorem setId_refused (f : CanFrame) {newId : BitVec 64} (h : ¬ newId.toNat ≤ 0x1FFFFFFF) :
    f.setId newId = { f with _isValidId := false, _id := 0 } :=
  if_neg (mt (le_effMask_iff newId).mp h)

theorem isLongId_refused {newId : BitVec 64} (h : ¬ newId.toNat ≤ 0x1FFFFFFF) :
    isLongId newId = false := by
  rw [isLongId, decide_eq_false h, Bool.and_false]

/-! ## The members, as the history has them -/

/-- A frame has the members that its history says. The identifier field counts only while
the last identifier was in range. -/
structure Recalls (c : Constructor) (past : List Setter) (f : CanFrame) : Prop where
  type : f._type = lastType c past
  validId : f._isValidId = decide ((lastId c past).toNat ≤ 0x1FFFFFFF)
  stored : (lastId c past).toNat ≤ 0x1FFFFFFF → f._id.toNat = storedId c past
  extended : f._isExtendedId = extendedFlag c past
  fd : f._isFD = fdFlag c past
  payload : f._payload = lastPayload c past

/-- An identifier given to a frame, whatever was before. -/
theorem Recalls.setId {c : Constructor} {past : List Setter} {f : CanFrame}
    (H : Recalls c past f) (newId : BitVec 64) :
    Recalls c (.setId newId :: past) (f.setId newId) := by
  by_cases h : newId.toNat ≤ 0x1FFFFFFF
  · rw [setId_accepted f h]
    refine ⟨H.type, (decide_eq_true h).symm, ?_, congrArg (isLongId newId || ·) H.extended, H.fd,
      H.payload⟩
    intro _
    rw [storedId, if_pos h]
    change (newId.setWidth 29).toNat = _
    rw [BitVec.toNat_setWidth]
    omega
  · rw [setId_refused f h]
    refine ⟨H.type, (decide_eq_false h).symm, fun hid => absurd hid h, ?_, H.fd, H.payload⟩
    rw [extendedFlag, isLongId_refused h, Bool.false_or]
    exact H.extended

/-- An error mask: nothing unless it is an error frame. -/
theorem Recalls.setError {c : Constructor} {past : List Setter} {f : CanFrame}
    (H : Recalls c past f) (err : BitVec 32) :
    Recalls c (.setError err :: past) (f.setError err) := by
  rw [CanFrame.setError]
  split_ifs with htype
  · refine { H with stored := ?_ }
    intro hid
    rw [storedId, if_neg (H.type ▸ htype)]
    exact H.stored hid
  · refine { H with stored := ?_ }
    intro _
    rw [storedId, if_pos (H.type ▸ not_not.mp htype)]
    change ((err &&& effMask).setWidth 29).toNat = _
    have hmask : (err &&& effMask).toNat = err.toNat % 2 ^ 29 := by
      rw [BitVec.toNat_and]
      exact Nat.and_two_pow_sub_one_eq_mod err.toNat 29
    rw [BitVec.toNat_setWidth, hmask, Nat.mod_mod]

theorem recalls_make (c : Constructor) : Recalls c [] c.make := by
  cases c with
  | ofType type => exact ⟨rfl, rfl, fun _ => rfl, rfl, rfl, rfl⟩
  | ofData id data =>
      rw [Constructor.make, CanFrame.ofData]
      by_cases h : id.toNat ≤ 0x1FFFFFFF
      · rw [setId_accepted _ h]
        refine ⟨rfl, (decide_eq_true h).symm, ?_, Bool.or_false _, rfl, rfl⟩
        intro _
        change (id.setWidth 29).toNat = id.toNat
        rw [BitVec.toNat_setWidth]
        omega
      · rw [setId_refused _ h]
        exact ⟨rfl, (decide_eq_false h).symm, fun hid => absurd hid h, (isLongId_refused h).symm,
          rfl, rfl⟩

/-- **One call** is one more entry of the history. -/
theorem Recalls.call {c : Constructor} {past : List Setter} {f : CanFrame}
    (H : Recalls c past f) (s : Setter) : Recalls c (s :: past) (s.call f) := by
  cases s with
  | setFrameType newType => exact { H with type := rfl }
  | setExtendedId isExtended => exact { H with extended := rfl }
  | setId newId => exact H.setId newId
  | setPayload data =>
      refine { H with fd := ?_, payload := rfl }
      change (f._isFD || _) = (_ || fdFlag c past)
      rw [H.fd, Bool.or_comm]
  | setTimestamp ts => exact { H with }
  | setError err => exact H.setError err
  | setFD isFD => exact { H with fd := rfl }
  | setBitrateSwitch brs => exact { H with fd := congrArg (brs || ·) H.fd }
  | setErrorState es => exact { H with }
  | setLocalEcho echo => exact { H with }

/-- A run of calls is its own history. -/
theorem recalls_setters (c : Constructor) (calls : List Setter) :
    Recalls c calls.reverse (setters.state c.make calls) := by
  induction calls using List.reverseRecOn with
  | nil => exact recalls_make c
  | append_singleton calls s ih =>
      rw [List.reverse_concat, Mealy.state_append]
      exact ih.call s

/-! ## Validity -/

/-- A frame that has the members of its history is valid just when the history says so. -/
theorem Recalls.isValid_iff {c : Constructor} {past : List Setter} {f : CanFrame}
    (H : Recalls c past f) : f.isValid = true ↔ ValidHistory c past := by
  rw [CanFrame.isValid_iff, H.type, H.validId, H.extended, H.fd, H.payload, decide_eq_true_eq]
  constructor
  · rintro ⟨htype, hwidth, hid, hclassic, hflexible⟩
    exact ⟨htype, hid, H.stored hid ▸ hwidth, hclassic, hflexible⟩
  · rintro ⟨htype, hid, hwidth, hclassic, hflexible⟩
    exact ⟨htype, (H.stored hid).symm ▸ hwidth, hid, hclassic, hflexible⟩

theorem lastId_append (c : Constructor) {others : List Setter} (newId : BitVec 64)
    (past : List Setter) (h : ∀ s ∈ others, ∀ x, s ≠ .setId x) :
    lastId c (others ++ .setId newId :: past) = newId := by
  induction others with
  | nil => rfl
  | cons s others ih =>
      have hrest := ih fun s' hs' => h s' (List.mem_cons_of_mem _ hs')
      cases s with
      | setId x => exact absurd rfl (h _ List.mem_cons_self x)
      | _ => exact hrest

/-- **Validity from the history.** After any calls on a frame from either constructor, the
frame is valid just when the calls, the latest first, say so. An identifier out of range
makes it invalid until the next identifier, whatever else is called. -/
theorem isValid_setters_iff (c : Constructor) (calls : List Setter) :
    ((setters.state c.make calls).isValid = true ↔ ValidHistory c calls.reverse) ∧
    ∀ newId others, 0x1FFFFFFF < newId.toNat → (∀ s ∈ others, ∀ x, s ≠ .setId x) →
      (setters.state c.make (calls ++ .setId newId :: others)).isValid = false := by
  refine ⟨(recalls_setters c calls).isValid_iff, ?_⟩
  intro newId others hnewId hothers
  rw [← Bool.not_eq_true, (recalls_setters c _).isValid_iff]
  intro hvalid
  have hid := hvalid.id
  rw [List.reverse_append, List.reverse_cons, List.append_assoc, List.singleton_append,
    lastId_append c newId _ fun s hs => hothers s (List.mem_reverse.mp hs)] at hid
  exact absurd hid (not_le.mpr hnewId)

end DPFlow.CanFrame
