import DPFlow.EventDispatcher.Basic

/-!
# The timer loop with callbacks that leave the timers alone

When no callback touches the timers or the clock, the loop of `processEvents` is a walk
down the list as it stands: it runs the timers up to the first one that is not due, each
at its own readings of the clock, and puts each back where it was with a new expiry.

## Main definitions

* `EventDispatcher.Passive` — callbacks that leave the timers alone.
* `EventDispatcher.firings` — the timers that the loop runs, as `fireTimers` walks them.
* `EventDispatcher.fired`, `EventDispatcher.fireAll` — the same walk down a plain list: the
  timers that run, and the list that is left.
-/
namespace DPFlow.EventDispatcher

variable {F ω : Type}

/-- The callbacks change files and their environment only; they make no call that reads
the dispatcher's clock. -/
def Passive (call : Callbacks F ω) : Prop :=
  ∀ func d, ∃ mFiles interest env,
    call func d = { d with mFiles := mFiles, interest := interest, env := env }

/-- The timers that the loop runs, in order: `fireTimers`, keeping the timers where it
keeps their number. -/
def firings (call : Callbacks F ω) :
    ℕ → Option ℕ → EventDispatcher F ω → List (TimerInfo F)
  | _, none, _ => []
  | 0, some _, _ => []
  | fuel + 1, some node, d =>
      match d.timerAt node with
      | none => []
      | some timer =>
          let (t, d) := d.now
          if t ≥ timer.expiry then
            let d := call timer.func d
            match d.timerAt node with
            | none => [timer]
            | some _ =>
                let (t, d) := d.now
                let d := d.rearm node t
                timer :: firings call fuel (nodeAfter node d.mTimers) d
          else []

/-- The timers of the list that run when the loop begins at reading `n`: a timer that runs
takes two readings. -/
def fired (clock : ℕ → Int) : ℕ → List (TimerInfo F) → List (TimerInfo F)
  | _, [] => []
  | n, t :: ts => if t.expiry ≤ clock n then t :: fired clock (n + 2) ts else []

/-- The timer with the expiry that `fire` gives it. -/
def TimerInfo.rearmed (timer : TimerInfo F) (now : Int) : TimerInfo F :=
  { timer with expiry := TimerInfo.expiryAt now timer.period }

/-- The list that is left. -/
def fireAll (clock : ℕ → Int) : ℕ → List (TimerInfo F) → List (TimerInfo F)
  | _, [] => []
  | n, t :: ts =>
      if t.expiry ≤ clock n then t.rearmed (clock (n + 1)) :: fireAll clock (n + 2) ts
      else t :: ts

@[simp] theorem map_node_fireAll (clock : ℕ → Int) (n : ℕ) (ts : List (TimerInfo F)) :
    (fireAll clock n ts).map TimerInfo.node = ts.map TimerInfo.node := by
  induction ts generalizing n with
  | nil => rfl
  | cons t ts ih =>
      rw [fireAll]
      split_ifs with hdue
      · rw [List.map_cons, List.map_cons, ih]
        rfl
      · rfl

/-! ## Invariants of the loop -/

/-- What a reading keeps, and what one timer that runs and is still there to be re-armed
keeps, holds of what the loop leaves when it comes to an end. -/
theorem fireTimers_invariant {call : Callbacks F ω} (P : EventDispatcher F ω → Prop)
    (hnow : ∀ d, P d → P d.now.2)
    (hfire : ∀ d node timer, P d → d.timerAt node = some timer →
      let called := call timer.func d.now.2
      P (called.now.2.rearm node called.now.1))
    {fuel : ℕ} {node : Option ℕ} {count n : ℕ} {d d' : EventDispatcher F ω} (h0 : P d)
    (h : fireTimers call fuel node count d = .ok (n, d')) : P d' := by
  induction fuel generalizing node count d with
  | zero =>
      cases node with
      | none =>
          cases h
          exact h0
      | some node => cases h
  | succ fuel ih =>
      cases node with
      | none =>
          cases h
          exact h0
      | some node =>
          rw [fireTimers] at h
          cases hat : d.timerAt node with
          | none =>
              rw [hat] at h
              cases h
          | some timer =>
              simp only [hat] at h
              split_ifs at h with hdue
              · cases hat' : (call timer.func d.now.2).timerAt node with
                | none =>
                    rw [hat'] at h
                    cases h
                | some _ =>
                    rw [hat'] at h
                    exact ih (hfire d node timer h0 hat) h
              · cases h
                exact hnow d h0

/-! ## The node the loop is at -/

section at_node
variable {d : EventDispatcher F ω} {done ts : List (TimerInfo F)} {t : TimerInfo F}

/-- The nodes of a list without repetitions: what comes before and after a node is not at
that node. -/
theorem node_ne_of_nodup (hnodup : ((done ++ t :: ts).map TimerInfo.node).Nodup) :
    (∀ s ∈ done, s.node ≠ t.node) ∧ ∀ s ∈ ts, s.node ≠ t.node := by
  rw [List.map_append, List.map_cons, List.nodup_append] at hnodup
  obtain ⟨-, htail, hapart⟩ := hnodup
  constructor
  · intro s hs
    exact hapart _ (List.mem_map_of_mem hs) _ List.mem_cons_self
  · intro s hs heq
    exact (List.nodup_cons.mp htail).1 (heq ▸ List.mem_map_of_mem hs)

theorem timerAt_split (htimers : d.mTimers = done ++ t :: ts)
    (hnodup : ((done ++ t :: ts).map TimerInfo.node).Nodup) : d.timerAt t.node = some t := by
  have hdone : done.find? (fun s => s.node = t.node) = none := by
    rw [List.find?_eq_none]
    intro s hs
    simpa using (node_ne_of_nodup hnodup).1 s hs
  rw [timerAt, htimers, List.find?_append, hdone, Option.none_or]
  exact List.find?_cons_of_pos (decide_eq_true rfl)

theorem nodeAfter_split (hdone : ∀ s ∈ done, s.node ≠ t.node) :
    nodeAfter t.node (done ++ t :: ts) = ts.head?.map TimerInfo.node := by
  induction done with
  | nil => rw [List.nil_append, nodeAfter, if_pos rfl]
  | cons s done ih =>
      rw [List.cons_append, nodeAfter, if_neg (hdone s List.mem_cons_self)]
      exact ih fun s' hs' => hdone s' (List.mem_cons_of_mem _ hs')

theorem rearm_split (htimers : d.mTimers = done ++ t :: ts)
    (hnodup : ((done ++ t :: ts).map TimerInfo.node).Nodup) (now : Int) :
    (d.rearm t.node now).mTimers = done ++ t.rearmed now :: ts := by
  obtain ⟨hdone, hts⟩ := node_ne_of_nodup hnodup
  have hkeep : ∀ l : List (TimerInfo F), (∀ s ∈ l, s.node ≠ t.node) →
      l.map (fun s => if s.node = t.node then s.rearmed now else s) = l := by
    intro l hl
    refine (List.map_congr_left ?_).trans (List.map_id' l)
    intro s hs
    exact if_neg (hl s hs)
  change d.mTimers.map (fun s => if s.node = t.node then s.rearmed now else s) = _
  rw [htimers, List.map_append, List.map_cons, hkeep done hdone, hkeep ts hts, if_pos rfl]

end at_node

/-! ## The walk -/

/-- One timer that is due: the loop runs it, re-arms it in its place with the second reading
it takes, and goes on behind it. -/
theorem fireTimers_due {call : Callbacks F ω} (hcall : Passive call)
    {ts done : List (TimerInfo F)} {t : TimerInfo F} {d : EventDispatcher F ω}
    (htimers : d.mTimers = done ++ t :: ts) (hnodup : (d.mTimers.map TimerInfo.node).Nodup)
    (hdue : t.expiry ≤ d.clock d.reads) (fuel count : ℕ) :
    ∃ next : EventDispatcher F ω,
      fireTimers call (fuel + 1) (some t.node) count d =
        fireTimers call fuel (ts.head?.map TimerInfo.node) (count + 1) next ∧
      firings call (fuel + 1) (some t.node) d =
        t :: firings call fuel (ts.head?.map TimerInfo.node) next ∧
      next.mTimers = done ++ t.rearmed (d.clock (d.reads + 1)) :: ts ∧
      next.clock = d.clock ∧ next.reads = d.reads + 2 ∧ next.nextNode = d.nextNode := by
  rw [htimers] at hnodup
  have hat : d.timerAt t.node = some t := timerAt_split htimers hnodup
  obtain ⟨mFiles, interest, env, hfire⟩ := hcall t.func { d with reads := d.reads + 1 }
  -- the dispatcher after the callback, and when the loop goes on to the next node
  let called : EventDispatcher F ω :=
    { d with reads := d.reads + 1, mFiles := mFiles, interest := interest, env := env }
  let next : EventDispatcher F ω :=
    { called with reads := d.reads + 2 }.rearm t.node (d.clock (d.reads + 1))
  have hat' : called.timerAt t.node = some t := hat
  have hfire' : call t.func { d with reads := d.reads + 1 } = called := hfire
  have hnext : next.mTimers = done ++ t.rearmed (d.clock (d.reads + 1)) :: ts :=
    rearm_split htimers hnodup _
  have hafter : nodeAfter t.node next.mTimers = ts.head?.map TimerInfo.node := by
    rw [hnext]
    exact nodeAfter_split (t := t.rearmed _) (node_ne_of_nodup hnodup).1
  refine ⟨next, ?_, ?_, hnext, rfl, rfl, rfl⟩
  · simp only [fireTimers, now, hat, ge_iff_le, if_pos hdue, hfire', hat']
    change fireTimers call fuel (nodeAfter t.node next.mTimers) (count + 1) next = _
    rw [hafter]
  · simp only [firings, now, hat, ge_iff_le, if_pos hdue, hfire', hat']
    change t :: firings call fuel (nodeAfter t.node next.mTimers) next = _
    rw [hafter]

/-- **The timer loop.** With passive callbacks and fuel for every timer that is left, the
loop comes to an end; it runs the timers of the plain walk and leaves that walk's list. -/
theorem fireTimers_passive {call : Callbacks F ω} (hcall : Passive call)
    {ts done : List (TimerInfo F)} {d : EventDispatcher F ω} (htimers : d.mTimers = done ++ ts)
    (hnodup : (d.mTimers.map TimerInfo.node).Nodup) {fuel : ℕ} (hfuel : ts.length ≤ fuel)
    (count : ℕ) :
    ∃ d', fireTimers call fuel (ts.head?.map TimerInfo.node) count d =
        .ok (count + (fired d.clock d.reads ts).length, d') ∧
      firings call fuel (ts.head?.map TimerInfo.node) d = fired d.clock d.reads ts ∧
      d'.mTimers = done ++ fireAll d.clock d.reads ts ∧ d'.clock = d.clock ∧
      d'.nextNode = d.nextNode := by
  induction ts generalizing done d fuel count with
  | nil => exact ⟨d, by simp [fireTimers, fired], by simp [firings, fired], htimers, rfl, rfl⟩
  | cons t ts ih =>
      cases fuel with
      | zero => simp at hfuel
      | succ fuel =>
          rw [List.head?_cons, Option.map_some, fired, fireAll]
          by_cases hdue : t.expiry ≤ d.clock d.reads
          · rw [if_pos hdue, if_pos hdue]
            obtain ⟨next, hloop, hfirings, hnext, hclock, hreads, hnode⟩ :=
              fireTimers_due hcall htimers hnodup hdue fuel count
            have hsplit : next.mTimers = (done ++ [t.rearmed (d.clock (d.reads + 1))]) ++ ts := by
              rw [hnext, List.append_assoc, List.singleton_append]
            have hnodup' : (next.mTimers.map TimerInfo.node).Nodup := by
              rw [htimers] at hnodup
              rw [hnext]
              simpa [TimerInfo.rearmed] using hnodup
            obtain ⟨d', hrest, hfirings', hd', hclock', hnode'⟩ :=
              ih hsplit hnodup' (Nat.le_of_succ_le_succ hfuel) (count + 1)
            rw [hclock, hreads] at hrest hfirings' hd'
            refine ⟨d', ?_, ?_, ?_, hclock'.trans hclock, hnode'.trans hnode⟩
            · rw [hloop, hrest, List.length_cons, Nat.add_assoc, Nat.add_comm 1]
            · rw [hfirings, hfirings']
            · rw [hd', List.append_assoc, List.singleton_append]
          · have hat : d.timerAt t.node = some t := timerAt_split htimers (htimers ▸ hnodup)
            rw [if_neg hdue, if_neg hdue]
            refine ⟨d.now.2, ?_, ?_, htimers, rfl, rfl⟩
            · simp only [fireTimers, now, hat, ge_iff_le, if_neg hdue]
              rfl
            · simp only [firings, now, hat, ge_iff_le, if_neg hdue]

/-! ## The turn around the loop -/

/-- The dispatcher when the timer loop of a turn begins. -/
def loopStart (call : Callbacks F ω) (ready : List EpollEvent) (d : EventDispatcher F ω) :
    EventDispatcher F ω :=
  (dispatchFiles call).state d.timeoutMs.2 (ready.take maxEvents)

/-- A turn that returned has come to the end of its loop. -/
theorem loop_of_processEvents {call : Callbacks F ω} {fuel : ℕ} {ready : List EpollEvent}
    {d d' : EventDispatcher F ω} {b : Bool}
    (h : (processEvents call fuel ready d).result = .ok (b, d')) :
    ∃ n, fireTimers call fuel ((loopStart call ready d).mTimers.head?.map TimerInfo.node) 0
      (loopStart call ready d) = .ok (n, d') := by
  rw [processEvents] at h
  dsimp only at h
  generalize hloop : fireTimers call fuel _ 0 _ = loop at h
  cases loop with
  | error e => cases h
  | ok r =>
      cases h
      exact ⟨r.1, hloop⟩

/-- Passive callbacks of files leave the timers to the loop as they were. -/
theorem dispatchFiles_passive {call : Callbacks F ω} (hcall : Passive call)
    (events : List EpollEvent) (d : EventDispatcher F ω) :
    ∃ mFiles interest env, (dispatchFiles call).state d events =
      { d with mFiles := mFiles, interest := interest, env := env } := by
  induction events generalizing d with
  | nil => exact ⟨_, _, _, rfl⟩
  | cons event events ih =>
      have hone : ∃ mFiles interest env, (dispatchFile call d event).1 =
          { d with mFiles := mFiles, interest := interest, env := env } := by
        rw [dispatchFile]
        cases d.mFiles (dispatchKey event) with
        | none => exact ⟨_, _, _, rfl⟩
        | some func => exact hcall func d
      obtain ⟨mFiles, interest, env, hone⟩ := hone
      obtain ⟨mFiles', interest', env', hrest⟩ := ih (dispatchFile call d event).1
      refine ⟨mFiles', interest', env', ?_⟩
      rw [Lib.Mealy.state_cons]
      refine hrest.trans ?_
      rw [hone]

/-- Before the loop, a turn with timers has read the clock once, for the timeout. -/
theorem loopStart_passive {call : Callbacks F ω} (hcall : Passive call)
    (ready : List EpollEvent) (d : EventDispatcher F ω) :
    (loopStart call ready d).mTimers = d.mTimers ∧ (loopStart call ready d).clock = d.clock ∧
      (loopStart call ready d).nextNode = d.nextNode ∧
      (d.mTimers ≠ [] → (loopStart call ready d).reads = d.reads + 1) := by
  obtain ⟨mFiles, interest, env, h⟩ :=
    dispatchFiles_passive hcall (ready.take maxEvents) d.timeoutMs.2
  rw [loopStart, h, timeoutMs]
  cases htimers : d.mTimers with
  | nil => exact ⟨htimers, rfl, rfl, fun h => absurd rfl h⟩
  | cons t ts => exact ⟨htimers, rfl, rfl, fun _ => rfl⟩

end DPFlow.EventDispatcher
