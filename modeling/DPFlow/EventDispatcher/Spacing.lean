import DPFlow.EventDispatcher.Registration
import DPFlow.EventDispatcher.TimerLoop
import Mathlib

/-!
# The spacing of a timer's callbacks

A timer is due at its expiry, which is a reading of the clock plus its period: the reading
`addTimer` took, and from its first run on the one that `fire` took after the callback. So
however the callbacks change the list under the loop, and however often the loop comes to a
timer in one pass, a callback starts a period after the timer was added and a period after
its last run ended.

What is proved is about the log of a run. A callback is a list of requests, which may depend
on anything, and it may take any time, as the readings before and after it are only known
not to go back.

## Main definitions

* `EventDispatcher.Program` — callbacks as the requests they make.
* `EventDispatcher.Entry`, `EventDispatcher.history` — timers added, callbacks started and
  ended, each with the reading of the clock the dispatcher took there.
* `EventDispatcher.MayStart`, `EventDispatcher.Spaced` — the spacing, in a log.
* `EventDispatcher.Paced` — a log and a dispatcher: every timer is due a period after all
  that the log says of it.
-/
namespace DPFlow.EventDispatcher

open Lib

variable {F ω : Type}

/-! ## The log of a run -/

/-- What a callback does: the requests it makes, and what it leaves of its environment. -/
abbrev Program (F ω : Type) := F → EventDispatcher F ω → List (Request F) × ω

/-- The callbacks of a program. -/
def Program.call (p : Program F ω) : Callbacks F ω :=
  fun func d => { (requests F ω).state d (p func d).1 with env := (p func d).2 }

/-- One line of the log. A callback has not started before the reading that found its timer
due, and has ended by the reading that re-arms it. -/
inductive Entry
  | added (node : ℕ) (period : Int32) (t : Int)
  | started (node : ℕ) (t : Int)
  | ended (node : ℕ) (t : Int)
  deriving DecidableEq, Repr

/-- The timer that an entry is about. -/
def Entry.node : Entry → ℕ
  | added node _ _ | started node _ | ended node _ => node

/-- The reading of an entry. -/
def Entry.time : Entry → Int
  | added _ _ t | started _ t | ended _ t => t

/-- Whether an entry is a start. -/
def Entry.isStart : Entry → Bool
  | started .. => true
  | added .. | ended .. => false

/-- A request's own entry. -/
def requestLog (d : EventDispatcher F ω) : Request F → List Entry
  | .addTimer periodMs _ => [.added d.nextNode periodMs d.now.1]
  | .addFile .. | .removeFile .. | .removeTimer _ => []

/-- The entries of a callback's requests. -/
def callLog (p : Program F ω) (func : F) (d : EventDispatcher F ω) : List Entry :=
  ((requests F ω).visits d (p func d).1).flatMap fun v => requestLog v.1 v.2

/-- The entries of one result of `epoll_wait`. -/
def fileLog (p : Program F ω) (d : EventDispatcher F ω) (event : EpollEvent) : List Entry :=
  match d.mFiles (dispatchKey event) with
  | some func => callLog p func d
  | none => []

/-- The entries of the timer loop: `fireTimers`, keeping the log where it keeps the number
of timers. -/
def fireLog (p : Program F ω) : ℕ → Option ℕ → EventDispatcher F ω → List Entry
  | _, none, _ => []
  | 0, some _, _ => []
  | fuel + 1, some node, d =>
      match d.timerAt node with
      | none => []
      | some timer =>
          let (t, d) := d.now
          if t ≥ timer.expiry then
            let log := .started node t :: callLog p timer.func d
            let d := p.call timer.func d
            match d.timerAt node with
            | none => log
            | some _ =>
                let (t, d) := d.now
                let d := d.rearm node t
                log ++ .ended node t :: fireLog p fuel (nodeAfter node d.mTimers) d
          else []

/-- The entries of a turn: of the files, then of the timers. -/
def turnLog (p : Program F ω) (fuel : ℕ) (ready : List EpollEvent) (d : EventDispatcher F ω) :
    List Entry :=
  let start := loopStart p.call ready d
  ((dispatchFiles p.call).visits d.timeoutMs.2 (ready.take maxEvents)).flatMap
    (fun v => fileLog p v.1 v.2) ++
  fireLog p fuel (start.mTimers.head?.map TimerInfo.node) start

/-- A call on the dispatcher from outside. A turn comes with what the kernel has to report,
and with the number of timers its loop runs if it does not end before. -/
inductive Call (F : Type)
  | request (r : Request F)
  | processEvents (fuel : ℕ) (ready : List EpollEvent)

/-- The log of a run. A run that does not come back from a turn ends there. -/
def history (p : Program F ω) : EventDispatcher F ω → List (Call F) → List Entry
  | _, [] => []
  | d, .request r :: calls => requestLog d r ++ history p ((requests F ω).step d r).1 calls
  | d, .processEvents fuel ready :: calls =>
      turnLog p fuel ready d ++
        match (processEvents p.call fuel ready d).result with
        | .ok (_, d') => history p d' calls
        | .error _ => []

/-! ## The spacing -/

/-- After the given past, the callback of a timer may start at a reading: the timer was
added, once, a period before at least, and every earlier start of the timer was followed by
its end, a period before at least. -/
def MayStart (past : List Entry) (node : ℕ) (s : Int) : Prop :=
  ∃ period added, (∀ q t, .added node q t ∈ past ↔ q = period ∧ t = added) ∧
    TimerInfo.expiryAt added period ≤ s ∧
    ∀ before s' since, past = before ++ .started node s' :: since →
      (∃ e, .ended node e ∈ since) ∧
        ∀ e, .ended node e ∈ since → TimerInfo.expiryAt e period ≤ s

/-- Every start in the log is spaced from what came before it. -/
def Spaced (log : List Entry) : Prop :=
  ∀ past node s, past ++ [.started node s] <+: log → MayStart past node s

/-- Every callback that has started has ended. -/
def Settled (log : List Entry) : Prop :=
  ∀ before node s since, log = before ++ .started node s :: since → ∃ e, .ended node e ∈ since

/-- The log knows a timer: it was added once, and it is due a period after a reading that is
no earlier than that, nor than the end of any of its runs. -/
def Timed (log : List Entry) (t : TimerInfo F) : Prop :=
  ∃ added base, (∀ q v, .added t.node q v ∈ log ↔ q = t.period ∧ v = added) ∧
    added ≤ base ∧ (∀ e, .ended t.node e ∈ log → e ≤ base) ∧
    t.expiry = TimerInfo.expiryAt base t.period

/-- A log and the dispatcher at its end. -/
structure Paced (clock : ℕ → Int) (log : List Entry) (d : EventDispatcher F ω) : Prop where
  clock_eq : d.clock = clock
  past : ∀ x ∈ log, x.time ≤ clock d.reads
  fresh : ∀ x ∈ log, x.node < d.nextNode
  timed : ∀ t ∈ d.mTimers, Timed log t
  spaced : Spaced log

/-! ## Logs -/

section logs
variable {log : List Entry} {x : Entry}

theorem Spaced.concat (h : Spaced log)
    (hx : ∀ node s, x = .started node s → MayStart log node s) : Spaced (log ++ [x]) := by
  intro past node s hprefix
  obtain heq | hold := List.prefix_concat_iff.mp hprefix
  · obtain ⟨rfl, hlast⟩ := List.append_inj' heq rfl
    exact hx node s (List.singleton_inj.mp hlast).symm
  · exact h past node s hold

theorem settled_of_no_start (h : ∀ y ∈ log, ¬ y.isStart) : Settled log := by
  rintro before node s since rfl
  exact absurd rfl (h (.started node s) (by simp))

theorem Settled.append {more : List Entry} (h : Settled log) (hmore : Settled more) :
    Settled (log ++ more) := by
  intro before node s since heq
  obtain ⟨rest, rfl, hrest⟩ | ⟨rest, rfl, hrest⟩ := List.append_eq_append_iff.mp heq
  · exact hmore rest node s since hrest
  · -- the start is in the first part, or it is the first entry of the second
    cases rest with
    | nil => exact hmore [] node s since hrest.symm
    | cons y rest =>
        rw [List.cons_append, List.cons.injEq] at hrest
        obtain ⟨rfl, rfl⟩ := hrest
        obtain ⟨e, he⟩ := h before node s rest rfl
        exact ⟨e, List.mem_append_left _ he⟩

/-- One run of a callback, with what it logged in between. -/
theorem settled_run {between : List Entry} (h : ∀ y ∈ between, ¬ y.isStart) (node : ℕ)
    (s e : Int) : Settled (.started node s :: (between ++ [.ended node e])) := by
  have hafter : Settled (between ++ [.ended node e]) := by
    refine settled_of_no_start ?_
    intro y hy
    obtain hbetween | hend := List.mem_append.mp hy
    · exact h y hbetween
    · rw [List.mem_singleton.mp hend]
      exact Bool.false_ne_true
  intro before node' s' since heq
  cases before with
  | nil =>
      rw [List.nil_append, List.cons.injEq, Entry.started.injEq] at heq
      obtain ⟨⟨rfl, rfl⟩, rfl⟩ := heq
      exact ⟨e, by simp⟩
  | cons y before =>
      rw [List.cons_append, List.cons.injEq] at heq
      exact hafter before node' s' since heq.2

/-- An entry that neither adds the timer nor ends a run of it. -/
theorem Timed.concat {t : TimerInfo F} (h : Timed log t)
    (hadded : ∀ q v, x ≠ .added t.node q v) (hended : ∀ e, x ≠ .ended t.node e) :
    Timed (log ++ [x]) t := by
  obtain ⟨added, base, hunique, hbase, hends, hexpiry⟩ := h
  refine ⟨added, base, ?_, hbase, ?_, hexpiry⟩
  · intro q v
    rw [← hunique, List.mem_append, List.mem_singleton]
    exact or_iff_left (hadded q v).symm
  · intro e he
    obtain hold | hnew := List.mem_append.mp he
    · exact hends e hold
    · exact absurd (List.mem_singleton.mp hnew).symm (hended e)

end logs

/-! ## One step -/

section steps
variable {clock : ℕ → Int} {log : List Entry} {d d' : EventDispatcher F ω}

/-- Nothing is logged: fewer timers and later readings are no harm. -/
theorem Paced.mono (hclock : Monotone clock) (H : Paced clock log d)
    (hd : d'.clock = d.clock) (htimers : d'.mTimers ⊆ d.mTimers) (hreads : d.reads ≤ d'.reads)
    (hnext : d'.nextNode = d.nextNode) : Paced clock log d' where
  clock_eq := hd.trans H.clock_eq
  past x hx := (H.past x hx).trans (hclock hreads)
  fresh x hx := hnext ▸ H.fresh x hx
  timed t ht := H.timed t (htimers ht)
  spaced := H.spaced

/-- A reading of the clock is logged. -/
theorem Paced.concat (hclock : Monotone clock) (H : Paced clock log d) {x : Entry}
    (htime : x.time = clock d.reads) (hd : d'.clock = d.clock) (hreads : d.reads ≤ d'.reads)
    (hnext : d.nextNode ≤ d'.nextNode) (hnode : x.node < d'.nextNode)
    (hstart : ∀ node s, x = .started node s → MayStart log node s)
    (htimed : ∀ t ∈ d'.mTimers, Timed (log ++ [x]) t) : Paced clock (log ++ [x]) d' where
  clock_eq := hd.trans H.clock_eq
  past y hy := by
    obtain hold | hnew := List.mem_append.mp hy
    · exact (H.past y hold).trans (hclock hreads)
    · rw [List.mem_singleton.mp hnew, htime]
      exact hclock hreads
  fresh y hy := by
    obtain hold | hnew := List.mem_append.mp hy
    · exact (H.fresh y hold).trans_le hnext
    · exact List.mem_singleton.mp hnew ▸ hnode
  timed := htimed
  spaced := H.spaced.concat hstart

theorem Paced.node_lt (H : Paced clock log d) {t : TimerInfo F} (ht : t ∈ d.mTimers) :
    t.node < d.nextNode := by
  obtain ⟨added, base, hunique, -⟩ := H.timed t ht
  exact H.fresh _ ((hunique _ _).mpr ⟨rfl, rfl⟩)

/-- A new timer is due a period after the reading it was added at. -/
theorem Paced.addTimer (hclock : Monotone clock) (H : Paced clock log d) (periodMs : Int32)
    (func : F) :
    Paced clock (log ++ [.added d.nextNode periodMs d.now.1]) (d.addTimer periodMs func).1 := by
  have hreading : d.now.1 = clock d.reads := congrFun H.clock_eq d.reads
  refine H.concat hclock hreading rfl (Nat.le_succ _) (Nat.le_succ _) (Nat.lt_succ_self _)
    (fun _ _ heq => nomatch heq) ?_
  intro t ht
  obtain hold | hnew := List.mem_append.mp ((List.mem_insertionSort _).mp ht)
  · refine (H.timed t hold).concat ?_ (fun _ heq => nomatch heq)
    intro q v heq
    exact (H.node_lt hold).ne (Entry.added.inj heq).1.symm
  · -- the log has nothing on a node that is new
    have hfresh : ∀ x ∈ log, x.node ≠ d.nextNode := fun x hx => (H.fresh x hx).ne
    rw [List.mem_singleton.mp hnew]
    refine ⟨d.now.1, d.now.1, ?_, le_rfl, ?_, rfl⟩
    · intro q v
      rw [List.mem_append, List.mem_singleton, Entry.added.injEq]
      constructor
      · rintro (hold | ⟨-, hq, hv⟩)
        · exact absurd rfl (hfresh _ hold)
        · exact ⟨hq, hv⟩
      · rintro ⟨hq, hv⟩
        exact .inr ⟨rfl, hq, hv⟩
    · intro e he
      obtain hold | hnew := List.mem_append.mp he
      · exact absurd rfl (hfresh _ hold)
      · cases List.mem_singleton.mp hnew

/-- A request about files logs nothing. -/
theorem requestLog_of_isFile (d : EventDispatcher F ω) {r : Request F} (hr : r.IsFile) :
    requestLog d r = [] := by
  cases r with
  | addFile fd op func accept => rfl
  | removeFile fd op accept => rfl
  | addTimer periodMs func => exact hr.elim
  | removeTimer id => exact hr.elim

/-- One request. -/
theorem Paced.request (hclock : Monotone clock) (H : Paced clock log d) (r : Request F) :
    Paced clock (log ++ requestLog d r) ((requests F ω).step d r).1 := by
  obtain ⟨hr, mFiles, interest, h⟩ | ⟨periodMs, func, rfl⟩ | ⟨id, rfl⟩ := request_cases d r
  · rw [requestLog_of_isFile d hr, List.append_nil, h]
    exact H.mono hclock rfl (List.Subset.refl _) le_rfl rfl
  · exact H.addTimer hclock periodMs func
  · rw [requestLog, List.append_nil]
    exact H.mono hclock rfl (List.filter_subset_self _) le_rfl rfl

/-- A timer that is due starts: its expiry is a period after all that matters. -/
theorem Paced.start (hclock : Monotone clock) (H : Paced clock log d) (hsettled : Settled log)
    {timer : TimerInfo F} (hmem : timer ∈ d.mTimers) (hdue : d.now.1 ≥ timer.expiry) :
    Paced clock (log ++ [.started timer.node d.now.1]) d.now.2 := by
  have hreading : d.now.1 = clock d.reads := congrFun H.clock_eq d.reads
  refine H.concat hclock hreading rfl (Nat.le_succ _) le_rfl (H.node_lt hmem) ?_ ?_
  · rintro node s heq
    cases heq
    obtain ⟨added, base, hunique, hbase, hends, hexpiry⟩ := H.timed timer hmem
    have hlater : ∀ u ≤ base, TimerInfo.expiryAt u timer.period ≤ d.now.1 := by
      intro u hu
      refine le_trans ?_ hdue
      rw [hexpiry]
      exact Int.add_le_add_right hu _
    refine ⟨timer.period, added, hunique, hlater added hbase, ?_⟩
    intro before s' since heq
    refine ⟨hsettled before _ s' since heq, ?_⟩
    intro e he
    exact hlater e (hends e (heq ▸ List.mem_append_right _ (List.mem_cons_of_mem _ he)))
  · intro t ht
    exact (H.timed t ht).concat (fun _ _ heq => nomatch heq) (fun _ heq => nomatch heq)

/-- The timer is re-armed: it is due a period after the reading, which is the latest of all. -/
theorem Paced.finish (hclock : Monotone clock) (H : Paced clock log d) {node : ℕ}
    (hnode : node < d.nextNode) :
    Paced clock (log ++ [.ended node d.now.1]) (d.now.2.rearm node d.now.1) := by
  have hreading : d.now.1 = clock d.reads := congrFun H.clock_eq d.reads
  refine H.concat hclock hreading rfl (Nat.le_succ _) le_rfl hnode
    (fun _ _ heq => nomatch heq) ?_
  intro t ht
  obtain ⟨s, hs, rfl⟩ := List.mem_map.mp ht
  split_ifs with hat
  · obtain ⟨added, base, hunique, -⟩ := H.timed s hs
    refine ⟨added, d.now.1, ?_, ?_, ?_, rfl⟩
    · intro q v
      rw [← hunique, List.mem_append, List.mem_singleton]
      exact or_iff_left (fun heq => nomatch heq)
    · rw [hreading]
      exact H.past _ ((hunique _ _).mpr ⟨rfl, rfl⟩)
    · intro e he
      obtain hold | hnew := List.mem_append.mp he
      · rw [hreading]
        exact H.past _ hold
      · cases List.mem_singleton.mp hnew
        exact le_rfl
  · refine (H.timed s hs).concat (fun _ _ heq => nomatch heq) ?_
    rintro e heq
    cases heq
    exact hat rfl

end steps

/-! ## Runs -/

section runs
variable {p : Program F ω} {clock : ℕ → Int} {log : List Entry} {d : EventDispatcher F ω}

theorem mem_of_timerAt {node : ℕ} {timer : TimerInfo F} (h : d.timerAt node = some timer) :
    timer ∈ d.mTimers ∧ timer.node = node :=
  ⟨List.mem_of_find?_eq_some h, by simpa using List.find?_some h⟩

/-- A request starts no callback. -/
theorem requestLog_no_start (d : EventDispatcher F ω) (r : Request F) :
    ∀ y ∈ requestLog d r, ¬ y.isStart := by
  intro y hy
  cases r with
  | addTimer periodMs func =>
      rw [List.mem_singleton.mp hy]
      exact Bool.false_ne_true
  | addFile fd op func accept => cases hy
  | removeFile fd op accept => cases hy
  | removeTimer id => cases hy

/-- Nor do the requests of a callback. -/
theorem callLog_no_start (p : Program F ω) (func : F) (d : EventDispatcher F ω) :
    ∀ y ∈ callLog p func d, ¬ y.isStart := by
  intro y hy
  obtain ⟨v, -, hmem⟩ := List.mem_flatMap.mp hy
  exact requestLog_no_start v.1 v.2 y hmem

theorem Paced.call (hclock : Monotone clock) (H : Paced clock log d) (func : F) :
    Paced clock (log ++ callLog p func d) (p.call func d) := by
  have hrequests : Paced clock (log ++ callLog p func d)
      ((requests F ω).state d (p func d).1) :=
    (requests F ω).state_log_induction (Paced clock) (fun v => requestLog v.1 v.2) d _ log H
      fun _ _ r H' => H'.request hclock r
  exact hrequests.mono hclock rfl (List.Subset.refl _) le_rfl rfl

theorem Paced.timeoutMs (hclock : Monotone clock) (H : Paced clock log d) :
    Paced clock log d.timeoutMs.2 := by
  rw [EventDispatcher.timeoutMs]
  split
  · exact H
  · exact H.mono hclock rfl (List.Subset.refl _) (Nat.le_succ _) rfl

/-- One result of `epoll_wait`. -/
theorem Paced.file (hclock : Monotone clock) (H : Paced clock log d) (hsettled : Settled log)
    (event : EpollEvent) :
    Paced clock (log ++ fileLog p d event) ((dispatchFiles p.call).step d event).1 ∧
      Settled (log ++ fileLog p d event) := by
  change Paced clock _ (dispatchFile p.call d event).1 ∧ _
  rw [fileLog, dispatchFile]
  cases d.mFiles (dispatchKey event) with
  | none =>
      rw [List.append_nil]
      exact ⟨H, hsettled⟩
  | some func =>
      exact ⟨H.call hclock func,
        hsettled.append (settled_of_no_start (callLog_no_start p func d))⟩

/-- The entries of one callback of a timer that ends at the given reading. -/
def runLog (p : Program F ω) (timer : TimerInfo F) (d : EventDispatcher F ω) (e : Int) :
    List Entry :=
  .started timer.node d.now.1 :: (callLog p timer.func d.now.2 ++ [.ended timer.node e])

/-- One timer that is due. Its callback runs, and if the timer is still there after it, it
is re-armed. -/
theorem Paced.fire (hclock : Monotone clock) (H : Paced clock log d) (hsettled : Settled log)
    {timer : TimerInfo F} (hmem : timer ∈ d.mTimers) (hdue : d.now.1 ≥ timer.expiry) :
    let called := p.call timer.func d.now.2
    Spaced (log ++ .started timer.node d.now.1 :: callLog p timer.func d.now.2) ∧
      ∀ timer', called.timerAt timer.node = some timer' →
        Paced clock (log ++ runLog p timer d called.now.1)
            (called.now.2.rearm timer.node called.now.1) ∧
          Settled (log ++ runLog p timer d called.now.1) := by
  intro called
  have Hcalled : Paced clock (log ++ .started timer.node d.now.1 :: callLog p timer.func d.now.2)
      called := by
    have h := (H.start hclock hsettled hmem hdue).call (p := p) hclock timer.func
    rwa [List.append_assoc] at h
  refine ⟨Hcalled.spaced, ?_⟩
  intro timer' hat
  have hnode : timer.node < called.nextNode := by
    have h := Hcalled.node_lt (mem_of_timerAt hat).1
    rwa [(mem_of_timerAt hat).2] at h
  constructor
  · have h := Hcalled.finish hclock hnode
    rwa [List.append_assoc, List.cons_append] at h
  · exact hsettled.append
      (settled_run (callLog_no_start p timer.func d.now.2) timer.node d.now.1 called.now.1)

/-- The loop at `end()`. -/
theorem Paced.loop_end (H : Paced clock log d) (hsettled : Settled log) (fuel count : ℕ) :
    Spaced (log ++ fireLog p fuel none d) ∧
      ∀ n d', fireTimers p.call fuel none count d = .ok (n, d') →
        Paced clock (log ++ fireLog p fuel none d) d' ∧
          Settled (log ++ fireLog p fuel none d) := by
  have hlog : fireLog p fuel none d = [] := by cases fuel <;> rfl
  have hloop : fireTimers p.call fuel none count d = .ok (count, d) := by cases fuel <;> rfl
  rw [hlog, hloop, List.append_nil]
  refine ⟨H.spaced, ?_⟩
  rintro n d' ⟨⟩
  exact ⟨H, hsettled⟩

/-- **The timer loop.** However far it gets, the starts are spaced; and if it ends, what it
leaves is paced, and every callback has ended. -/
theorem Paced.loop (hclock : Monotone clock) (fuel : ℕ) (node : Option ℕ) (count : ℕ)
    (H : Paced clock log d) (hsettled : Settled log) :
    Spaced (log ++ fireLog p fuel node d) ∧
      ∀ n d', fireTimers p.call fuel node count d = .ok (n, d') →
        Paced clock (log ++ fireLog p fuel node d) d' ∧
          Settled (log ++ fireLog p fuel node d) := by
  induction fuel generalizing node count d log with
  | zero =>
      cases node with
      | none => exact H.loop_end hsettled _ count
      | some node =>
          rw [fireLog, fireTimers, List.append_nil]
          exact ⟨H.spaced, by simp⟩
  | succ fuel ih =>
      cases node with
      | none => exact H.loop_end hsettled _ count
      | some node =>
          rw [fireLog, fireTimers]
          cases hat : d.timerAt node with
          | none =>
              rw [List.append_nil]
              exact ⟨H.spaced, by simp⟩
          | some timer =>
              obtain ⟨hmem, rfl⟩ := mem_of_timerAt hat
              dsimp only
              split_ifs with hdue
              · obtain ⟨hspaced, hnext⟩ := H.fire (p := p) hclock hsettled hmem hdue
                cases hat' : (p.call timer.func d.now.2).timerAt timer.node with
                | none => exact ⟨hspaced, by simp⟩
                | some timer' =>
                    obtain ⟨Hnext, hsettled'⟩ := hnext timer' hat'
                    let called := p.call timer.func d.now.2
                    let next := called.now.2.rearm timer.node called.now.1
                    have hrest := ih (nodeAfter timer.node next.mTimers) (count + 1) Hnext hsettled'
                    rw [List.append_assoc, runLog, List.cons_append, List.append_assoc,
                      List.singleton_append] at hrest
                    exact hrest
              · rw [List.append_nil]
                refine ⟨H.spaced, ?_⟩
                rintro n d' ⟨⟩
                exact ⟨H.mono hclock rfl (List.Subset.refl _) (Nat.le_succ _) rfl, hsettled⟩

/-- The log misses no run: the number of timers that the loop returns is the number of
starts. -/
theorem fireTimers_count {fuel : ℕ} {node : Option ℕ} {count n : ℕ} {d' : EventDispatcher F ω}
    (h : fireTimers p.call fuel node count d = .ok (n, d')) :
    n = count + (fireLog p fuel node d).countP Entry.isStart := by
  induction fuel generalizing node count d with
  | zero =>
      cases node with
      | none =>
          cases h
          rfl
      | some node => cases h
  | succ fuel ih =>
      cases node with
      | none =>
          cases h
          rfl
      | some node =>
          rw [fireTimers] at h
          rw [fireLog]
          cases hat : d.timerAt node with
          | none =>
              rw [hat] at h
              cases h
          | some timer =>
              simp only [hat] at h ⊢
              split_ifs at h ⊢ with hdue
              · cases hat' : (p.call timer.func d.now.2).timerAt node with
                | none =>
                    rw [hat'] at h
                    cases h
                | some timer' =>
                    rw [hat'] at h
                    have hquiet : (callLog p timer.func d.now.2).countP Entry.isStart = 0 :=
                      List.countP_eq_zero.mpr (callLog_no_start p timer.func d.now.2)
                    rw [ih h, List.countP_append, List.countP_cons_of_pos rfl, hquiet,
                      List.countP_cons_of_neg Bool.false_ne_true]
                    omega
              · cases h
                rfl

/-- **A turn.** However far it gets, the starts are spaced; and if it returns, what it leaves
is paced, and every callback has ended. -/
theorem Paced.turn (hclock : Monotone clock) (fuel : ℕ) (ready : List EpollEvent)
    (H : Paced clock log d) (hsettled : Settled log) :
    Spaced (log ++ turnLog p fuel ready d) ∧
      ∀ b d', (processEvents p.call fuel ready d).result = .ok (b, d') →
        Paced clock (log ++ turnLog p fuel ready d) d' ∧
          Settled (log ++ turnLog p fuel ready d) := by
  obtain ⟨Hfiles, hfiles⟩ :=
    (dispatchFiles p.call).state_log_induction
      (fun log (d : EventDispatcher F ω) => Paced clock log d ∧ Settled log)
      (fun v => fileLog p v.1 v.2) _ (ready.take maxEvents) log ⟨H.timeoutMs hclock, hsettled⟩
      fun _ _ event h => h.1.file hclock h.2 event
  obtain ⟨hspaced, hend⟩ := Hfiles.loop (p := p) hclock fuel
    ((loopStart p.call ready d).mTimers.head?.map TimerInfo.node) 0 hfiles
  rw [turnLog, ← List.append_assoc]
  refine ⟨hspaced, ?_⟩
  intro b d' hresult
  obtain ⟨n, hloop⟩ := loop_of_processEvents hresult
  exact hend n d' hloop

theorem paced_init (clock : ℕ → Int) (env : ω) :
    Paced clock [] (init clock env : EventDispatcher F ω) where
  clock_eq := rfl
  past _ hx := nomatch hx
  fresh _ hx := nomatch hx
  timed _ ht := nomatch ht
  spaced past node s hprefix := absurd (List.prefix_nil.mp hprefix) (by simp)

/-- A run from a dispatcher whose past is known. -/
theorem Paced.history (hclock : Monotone clock) (calls : List (Call F))
    (H : Paced clock log d) (hsettled : Settled log) :
    Spaced (log ++ history p d calls) := by
  induction calls generalizing d log with
  | nil =>
      rw [EventDispatcher.history, List.append_nil]
      exact H.spaced
  | cons c calls ih =>
      cases c with
      | request r =>
          rw [EventDispatcher.history, ← List.append_assoc]
          exact ih (H.request hclock r)
            (hsettled.append (settled_of_no_start (requestLog_no_start d r)))
      | processEvents fuel ready =>
          obtain ⟨hspaced, hend⟩ := H.turn (p := p) hclock fuel ready hsettled
          rw [EventDispatcher.history, ← List.append_assoc]
          cases hresult : (processEvents p.call fuel ready d).result with
          | error e =>
              rw [List.append_nil]
              exact hspaced
          | ok r =>
              obtain ⟨Hnext, hsettled'⟩ := hend r.1 r.2 hresult
              exact ih Hnext hsettled'

/-- **Timers are spaced.** In every run, with a clock that does not go back and whatever the
callbacks do, each callback of a timer starts a period or more after the timer was added,
and a period or more after every earlier run of the timer ended. -/
theorem spaced_history (p : Program F ω) (hclock : Monotone clock) (env : ω)
    (calls : List (Call F)) : Spaced (EventDispatcher.history p (init clock env) calls) := by
  have hsettled : Settled [] := settled_of_no_start fun _ hy => nomatch hy
  exact (paced_init clock env).history hclock calls hsettled

end runs

/-- Callbacks that add a timer for each of some periods. -/
def adders : Program (List Int32) Unit :=
  fun periods _ => (periods.map fun periodMs => .addTimer periodMs [], ())

/-- A clock that a reading moves on by a millisecond. -/
def ticks (n : ℕ) : Int := n * 1000000

theorem monotone_ticks : Monotone ticks := by
  intro m n hmn
  rw [ticks, ticks]
  omega

/-- A timer that runs twice in one pass: the second timer's callback adds a third one, and
the list is sorted under the loop. -/
theorem spaced_history_twice :
    let calls := [.request (.addTimer 1 []), .request (.addTimer 2 [100]), .processEvents 3 []]
    EventDispatcher.history adders (init ticks ()) calls =
      [.added 0 1 0, .added 1 2 1000000, .started 0 3000000, .ended 0 4000000,
        .started 1 5000000, .added 2 100 6000000, .ended 1 7000000,
        .started 0 8000000, .ended 0 9000000] ∧
      Spaced (EventDispatcher.history adders (init ticks ()) calls) :=
  ⟨by decide, spaced_history adders monotone_ticks () _⟩

end DPFlow.EventDispatcher
