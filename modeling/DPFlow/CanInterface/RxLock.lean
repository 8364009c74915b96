import DPFlow.CanInterface.Basic

/-!
# The receive lock and the slots of `framesReceived`

`enqueueRxFrames` emits `framesReceived` while it still holds `_rxLock`, and `recv`,
`recvAll` and `flushRx` lock it again. On a connected interface a slot therefore runs
to its end only if it makes none of these calls.

## Main definitions

* `CanInterface.underLock`, `CanInterface.offline` — the answers there are while the lock is
  held, on a connected interface and on any other.
* `CanInterface.CountsOnly` — a slot that asks for nothing but the count.
* `CanInterface.delivering` — the interface while the slot runs.
-/
namespace DPFlow.CanInterface

open Lib

/-- What the receive operations answer while the lock is held and `n` frames are
queued: only the count has an answer. -/
def underLock (n : ℕ) : (q : RxCall) → Option q.Result
  | .recv => none
  | .recvAll => none
  | .flushRx => none
  | .countRxPending => some n

/-- What they answer while the lock is held and there is no connection: `recv` and `recvAll`
return before they come to the lock. -/
def offline (n : ℕ) : (q : RxCall) → Option q.Result
  | .recv => some (.ofType .invalidFrame)
  | .recvAll => some []
  | .flushRx => none
  | .countRxPending => some n

/-- A slot that, whatever the count, asks for nothing else. -/
def CountsOnly (slot : Slot) : Prop := ∀ n, slot.Answered (underLock n)

/-! ## Taking the lock -/

section lock
variable {i : CanInterface}

/-- The interface with its receive lock taken. -/
def locked (i : CanInterface) : CanInterface := { i with _rxLock := true }

@[simp] theorem locked_rxFrames : i.locked._rxFrames = i._rxFrames := rfl

/-- Unlocking gives back an interface at rest. -/
theorem unlockRx_locked (h : i._rxLock = false) : i.locked.unlockRx = i := by
  rw [unlockRx, ← h]
  rfl

theorem lockRx_held (h : i._rxLock = true) : i.lockRx = .error .rxLock := by
  rw [lockRx, if_pos h]

theorem lockRx_free (h : i._rxLock = false) : i.lockRx = .ok i.locked := by
  rw [lockRx, h, if_neg Bool.false_ne_true, locked]

/-! ## Calls at rest -/

/-- On a connected interface at rest, `recv` clears the error and copies the front. -/
theorem recv_eq (hconn : i._state = .connectedState)
    (hfree : i._rxLock = false) :
    i.recv = .ok (i._rxFrames.head?.getD (.ofType .invalidFrame), i.clearError) := by
  have hstate : ¬ i._state ≠ .connectedState := not_not_intro hconn
  have hlock : i.clearError.lockRx = .ok i.clearError.locked := lockRx_free hfree
  have hunlock : i.clearError.locked.unlockRx = i.clearError := unlockRx_locked hfree
  have hframes : i.clearError._rxFrames = i._rxFrames := rfl
  simp only [recv, if_neg hstate, hlock, bind, Except.bind, locked_rxFrames, hframes, hunlock]
  cases i._rxFrames <;> rfl

/-- `recvAll` takes everything. -/
theorem recvAll_eq (hconn : i._state = .connectedState)
    (hfree : i._rxLock = false) :
    i.recvAll = .ok (i._rxFrames, { i.clearError with _rxFrames := [] }) := by
  have hstate : ¬ i._state ≠ .connectedState := not_not_intro hconn
  have hlock : i.clearError.lockRx = .ok i.clearError.locked := lockRx_free hfree
  simp only [recvAll, if_neg hstate, hlock, bind, Except.bind]
  rw [unlockRx, ← hfree]
  rfl

theorem flushRx_eq (hfree : i._rxLock = false) :
    i.flushRx = .ok { i with _rxFrames := [] } := by
  rw [flushRx, lockRx_free hfree]
  change Except.ok _ = Except.ok _
  rw [unlockRx, ← hfree]
  rfl

/-! ## Calls without a connection -/

theorem recv_disconnected (h : i._state ≠ .connectedState) :
    i.recv = .ok (.ofType .invalidFrame,
      i.setError "Cannot receive while interface is disconnected" .operationError) := by
  rw [recv, if_pos h]
  rfl

theorem recvAll_disconnected (h : i._state ≠ .connectedState) :
    i.recvAll =
      .ok ([], i.setError "Cannot receive while interface is disconnected" .operationError) := by
  rw [recvAll, if_pos h]
  rfl

/-! ## Calls under the lock -/

/-- The count is answered under the lock, and changes nothing. -/
theorem rxCall_answered {q : RxCall} {a : q.Result}
    (h : underLock i._rxFrames.length q = some a) : rxCall q i = .ok (a, i) := by
  cases q with
  | countRxPending =>
      cases h
      rfl
  | recv => cases h
  | recvAll => cases h
  | flushRx => cases h

/-- The other calls lock a mutex that this thread holds. -/
theorem rxCall_stuck (hconn : i._state = .connectedState) (hheld : i._rxLock = true)
    {n : ℕ} {q : RxCall} (h : underLock n q = none) : rxCall q i = .error .rxLock := by
  have hclear : i.clearError.lockRx = .error .rxLock := lockRx_held hheld
  have hstate : ¬ i._state ≠ .connectedState := not_not_intro hconn
  cases q with
  | countRxPending => cases h
  | recv =>
      simp only [rxCall, recv, if_neg hstate, hclear]
      rfl
  | recvAll =>
      simp only [rxCall, recvAll, if_neg hstate, hclear]
      rfl
  | flushRx =>
      rw [rxCall, flushRx, lockRx_held hheld]
      rfl

end lock

/-! ## Deliveries -/

/-- What the interface looks like while the slot runs. -/
def delivering (i : CanInterface) (frames : List CanFrame) : CanInterface :=
  { i with _rxLock := true
           _rxFrames := i._rxFrames ++ frames
           emitted := i.emitted ++ [.framesReceived] }

/-- With the lock free, a delivery comes down to the slot's run. -/
theorem enqueueRxFrames_eq {i : CanInterface} (hfree : i._rxLock = false) (slot : Slot)
    (frames : List CanFrame) :
    i.enqueueRxFrames slot frames =
      (slot.run rxCall (i.delivering frames) >>= fun i' => .ok i'.unlockRx) := by
  rw [enqueueRxFrames, lockRx_free hfree]
  rfl

/-- A slot that only asks for the count: the frames are queued, and the lock is free again. -/
theorem enqueueRxFrames_answered {i : CanInterface} (hfree : i._rxLock = false) {slot : Slot}
    {frames : List CanFrame}
    (hslot : slot.Answered (underLock (i._rxFrames.length + frames.length))) :
    i.enqueueRxFrames slot frames = .ok (i.delivering frames).unlockRx := by
  have hlen : (i.delivering frames)._rxFrames.length = i._rxFrames.length + frames.length :=
    List.length_append
  rw [← hlen] at hslot
  rw [enqueueRxFrames_eq hfree,
    Script.run_of_answered (fun q a h => rxCall_answered h) slot hslot]
  rfl

theorem enqueueRxFrames_done {i : CanInterface} (hfree : i._rxLock = false)
    (frames : List CanFrame) :
    i.enqueueRxFrames .done frames = .ok (i.delivering frames).unlockRx :=
  enqueueRxFrames_answered hfree trivial

/-- The slot runs through just when it only asks for the count. -/
theorem slot_run_iff {i : CanInterface} (hconn : i._state = .connectedState)
    (frames : List CanFrame) (slot : Slot) (t : CanInterface) :
    slot.run rxCall (i.delivering frames) = .ok t ↔
      slot.Answered (underLock (i._rxFrames.length + frames.length)) ∧
        t = i.delivering frames := by
  have hlen : (i.delivering frames)._rxFrames.length = i._rxFrames.length + frames.length :=
    List.length_append
  rw [← hlen]
  refine Script.run_eq_ok_iff (fun q a h => rxCall_answered h) ?_ slot t
  intro q h
  exact ⟨.rxLock, rxCall_stuck (i := i.delivering frames) hconn rfl h⟩

/-! ## Deliveries without a connection -/

/-- The interface while a slot runs and there is no connection. -/
structure Offline (frames : List CanFrame) (i : CanInterface) : Prop where
  state : i._state ≠ .connectedState
  lock : i._rxLock = true
  frames : i._rxFrames = frames

section offline
variable {frames : List CanFrame} {i t : CanInterface}

theorem offline_delivering (h : i._state ≠ .connectedState) (frames : List CanFrame) :
    Offline (i._rxFrames ++ frames) (i.delivering frames) := ⟨h, rfl, rfl⟩

/-- What a call that returns does: it leaves an error, or it was for the count. -/
theorem Offline.rxCall (H : Offline frames i) {q : RxCall} {a : q.Result}
    (h : rxCall q i = .ok (a, t)) :
    Offline frames t ∧ (t.error = .operationError ∨
      underLock frames.length q = some a ∧ t = i) := by
  cases q with
  | countRxPending =>
      cases h
      refine ⟨H, .inr ⟨?_, rfl⟩⟩
      rw [← H.frames]
      rfl
  | flushRx =>
      rw [CanInterface.rxCall, flushRx, lockRx_held H.lock] at h
      cases h
  | recv =>
      rw [CanInterface.rxCall, recv_disconnected H.state] at h
      cases h
      exact ⟨⟨H.state, H.lock, H.frames⟩, .inl rfl⟩
  | recvAll =>
      rw [CanInterface.rxCall, recvAll_disconnected H.state] at h
      cases h
      exact ⟨⟨H.state, H.lock, H.frames⟩, .inl rfl⟩

/-- The slot runs through just when it does not flush the queue. -/
theorem Offline.slot_run_iff (H : Offline frames i) (slot : Slot) :
    (∃ t, slot.run CanInterface.rxCall i = .ok t) ↔ slot.Answered (offline frames.length) := by
  refine Script.run_isOk_iff (I := Offline frames) ?_ ?_ slot H
  · intro j q a hj hq
    have hcall : ∃ j', CanInterface.rxCall q j = .ok (a, j') := by
      cases q with
      | countRxPending =>
          cases hq
          refine ⟨j, ?_⟩
          rw [← hj.frames]
          rfl
      | flushRx => cases hq
      | recv =>
          cases hq
          exact ⟨_, recv_disconnected hj.state⟩
      | recvAll =>
          cases hq
          exact ⟨_, recvAll_disconnected hj.state⟩
    obtain ⟨j', hj'⟩ := hcall
    exact ⟨j', hj', (hj.rxCall hj').1⟩
  · intro j q hj hq
    cases q with
    | flushRx =>
        rw [CanInterface.rxCall, flushRx, lockRx_held hj.lock]
        exact ⟨.rxLock, rfl⟩
    | countRxPending => cases hq
    | recv => cases hq
    | recvAll => cases hq

/-- It leaves the queue alone, and an error unless it only asked for the count. -/
theorem Offline.of_slot_run (H : Offline frames i) {slot : Slot}
    (hrun : slot.run CanInterface.rxCall i = .ok t) :
    Offline frames t ∧ (t.error = .operationError ∨
      slot.Answered (underLock frames.length) ∧ t = i) := by
  induction slot generalizing i with
  | done =>
      cases hrun
      exact ⟨H, .inr ⟨trivial, rfl⟩⟩
  | call q next ih =>
      obtain ⟨⟨a, j⟩, hcall, hnext⟩ := ok_of_bind hrun
      obtain ⟨hj, hcases⟩ := H.rxCall hcall
      obtain ⟨ht, herror | ⟨hanswered, rfl⟩⟩ := ih a hj hnext
      · exact ⟨ht, .inl herror⟩
      · obtain herror | ⟨hcount, rfl⟩ := hcases
        · exact ⟨ht, .inl herror⟩
        · exact ⟨ht, .inr ⟨⟨a, hcount, hanswered⟩, rfl⟩⟩

end offline

/-- A delivery that returns has queued its frames, whatever its slot called, and given the lock
back. -/
theorem enqueueRxFrames_queued {i i' : CanInterface} {slot : Slot} {frames : List CanFrame}
    (h : i.enqueueRxFrames slot frames = .ok i') :
    i'._rxFrames = i._rxFrames ++ frames ∧ i'._rxLock = false := by
  cases hfree : i._rxLock with
  | true =>
      rw [enqueueRxFrames, lockRx_held hfree] at h
      cases h
  | false =>
      rw [enqueueRxFrames_eq hfree] at h
      obtain ⟨t, hrun, hok⟩ := ok_of_bind h
      cases hok
      refine ⟨?_, rfl⟩
      change t._rxFrames = _
      by_cases hconn : i._state = .connectedState
      · rw [((slot_run_iff hconn frames slot t).mp hrun).2]
        rfl
      · exact ((offline_delivering hconn frames).of_slot_run hrun).1.frames

/-- A receive operation that returns has changed the queue and the error, and no more. -/
theorem rxCall_cases {i i' : CanInterface} {q : RxCall} {a : q.Result}
    (h : rxCall q i = .ok (a, i')) :
    ∃ frames j, i' = { j with _rxFrames := frames } ∧
      (j = i ∨ j = i.clearError ∨
        ∃ errorMessage error, j = i.setError errorMessage error) := by
  have hheld : i._rxLock ≠ false → i._rxLock = true := Bool.eq_true_of_not_eq_false
  cases q with
  | countRxPending =>
      cases h
      exact ⟨_, i, rfl, .inl rfl⟩
  | flushRx =>
      by_cases hfree : i._rxLock = false
      · rw [rxCall, flushRx_eq hfree] at h
        cases h
        exact ⟨_, i, rfl, .inl rfl⟩
      · rw [rxCall, flushRx, lockRx_held (hheld hfree)] at h
        cases h
  | recv =>
      by_cases hconn : i._state = .connectedState
      · by_cases hfree : i._rxLock = false
        · rw [rxCall, recv_eq hconn hfree] at h
          cases h
          exact ⟨_, i.clearError, rfl, .inr (.inl rfl)⟩
        · rw [rxCall_stuck (n := 0) hconn (hheld hfree) rfl] at h
          cases h
      · rw [rxCall, recv_disconnected hconn] at h
        have hi : i' = i.setError _ _ := (congrArg Prod.snd (Except.ok.inj h)).symm
        exact ⟨i'._rxFrames, i', rfl, .inr (.inr ⟨_, _, hi⟩)⟩
  | recvAll =>
      by_cases hconn : i._state = .connectedState
      · by_cases hfree : i._rxLock = false
        · rw [rxCall, recvAll_eq hconn hfree] at h
          cases h
          exact ⟨_, i.clearError, rfl, .inr (.inl rfl)⟩
        · rw [rxCall_stuck (n := 0) hconn (hheld hfree) rfl] at h
          cases h
      · rw [rxCall, recvAll_disconnected hconn] at h
        have hi : i' = i.setError _ _ := (congrArg Prod.snd (Except.ok.inj h)).symm
        exact ⟨i'._rxFrames, i', rfl, .inr (.inr ⟨_, _, hi⟩)⟩

/-- **When a delivery completes.** On a connected interface at rest, `enqueueRxFrames`
and its slot both return just when the slot, told the count whenever it asks for it,
never calls `recv`, `recvAll` or `flushRx`. -/
theorem enqueueRxFrames_completes_iff {i : CanInterface} (hconn : i._state = .connectedState)
    (hfree : i._rxLock = false) (frames : List CanFrame) (slot : Slot) :
    (∃ i', i.enqueueRxFrames slot frames = .ok i') ↔
      slot.Answered (underLock (i._rxFrames.length + frames.length)) := by
  rw [enqueueRxFrames_eq hfree]
  constructor
  · rintro ⟨i', h⟩
    cases hrun : slot.run rxCall (i.delivering frames) with
    | error e =>
        rw [hrun] at h
        cases h
    | ok t => exact ((slot_run_iff hconn frames slot t).mp hrun).1
  · intro h
    rw [(slot_run_iff hconn frames slot _).mpr ⟨h, rfl⟩]
    exact ⟨_, rfl⟩

/-- A slot that only counts, on one frame. -/
theorem enqueueRxFrames_completes_count :
    (∃ i', enqueueRxFrames (.call .countRxPending fun _ => .done) [.ofType .dataFrame]
      { init with _state := .connectedState } = .ok i') ↔
      Script.Answered (underLock 1) (.call .countRxPending fun _ => .done) :=
  enqueueRxFrames_completes_iff (i := { init with _state := .connectedState }) rfl rfl
    [.ofType .dataFrame] (.call .countRxPending fun _ => .done)

/-- The slot of `main.cpp` never returns from its first `recv`. -/
theorem enqueueRxFrames_drainSlot :
    enqueueRxFrames (drainSlot 1) [.ofType .dataFrame]
      { init with _state := .connectedState } = .error .rxLock :=
  rfl

end DPFlow.CanInterface
