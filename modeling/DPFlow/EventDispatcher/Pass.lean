import DPFlow.EventDispatcher.Cancelled
import Mathlib

/-!
# The end of a pass

The loop walks a list that its callbacks extend, so that nothing in its text brings it to an
end. What does is time: a timer that has run is due again a period later, and a new timer is
due a period after it was added. As long as the readings of a pass stay within the shortest
period of its first one, the timers that were in the list run once at most, the new ones do
not run, and the turn comes back.

Where that fails, it may fail for good: callbacks that each add a timer of 0 ms keep the loop
going for ever.

## Main definitions

* `EventDispatcher.Modest` — callbacks that add few timers, and none of a short period.
* `EventDispatcher.early` — the timers that may be due before a given reading.
* `EventDispatcher.Within` — a dispatcher in a pass that began at a given reading.
* `EventDispatcher.Reposting` — callbacks that add timers of 0 ms.
-/
namespace DPFlow.EventDispatcher

open Lib

variable {F ω : Type}

/-! ## The readings of requests -/

/-- Whether a request adds a timer. -/
def Request.isAdd : Request F → Bool
  | addTimer .. => true
  | addFile .. | removeFile .. | removeTimer _ => false

/-- A request that adds a timer takes a reading, and no other does. -/
theorem reads_request (d : EventDispatcher F ω) (r : Request F) :
    ((requests F ω).step d r).1.reads = d.reads + if r.isAdd then 1 else 0 := by
  rcases request_cases d r with ⟨hr, mFiles, interest, h⟩ | ⟨periodMs, func, rfl⟩ | ⟨id, rfl⟩
  · rw [h]
    cases r with
    | addFile fd op func accept => rfl
    | removeFile fd op accept => rfl
    | addTimer periodMs func => exact hr.elim
    | removeTimer id => exact hr.elim
  · rfl
  · rfl

theorem reads_requests (d : EventDispatcher F ω) (rs : List (Request F)) :
    ((requests F ω).state d rs).reads = d.reads + rs.countP Request.isAdd := by
  induction rs generalizing d with
  | nil => rfl
  | cons r rs ih =>
      rw [Mealy.state_cons, ih, reads_request, List.countP_cons]
      omega

/-! ## A pass within the shortest period -/

/-- Callbacks that add few timers at a time, and none with a period below a given one. -/
structure Modest (p : Program F ω) (shortest : Int) (most : ℕ) : Prop where
  period : ∀ func d q f, .addTimer q f ∈ (p func d).1 → shortest ≤ q.toInt
  few : ∀ func d, (p func d).1.countP Request.isAdd ≤ most

/-- The nodes of the timers whose expiry lies before a reading. -/
def early (limit : Int) (d : EventDispatcher F ω) : List ℕ :=
  (d.mTimers.filter fun t => t.expiry < limit).map TimerInfo.node

/-- A dispatcher in a pass that began at reading `start`, with periods from `shortest` on. -/
structure Within (clock : ℕ → Int) (shortest : Int) (start : ℕ) (d : EventDispatcher F ω) :
    Prop where
  wellformed : Wellformed clock d
  later : start ≤ d.reads
  periods : ∀ t ∈ d.mTimers, shortest ≤ t.period.toInt

section pass
variable {clock : ℕ → Int} {shortest : Int} {start most : ℕ} {d : EventDispatcher F ω}
  {p : Program F ω}

theorem mem_early {limit : Int} {node : ℕ} :
    node ∈ early limit d ↔ ∃ t ∈ d.mTimers, t.expiry < limit ∧ t.node = node := by
  simp only [early, List.mem_map, List.mem_filter, decide_eq_true_eq, and_assoc]

theorem Wellformed.nodup_early (H : Wellformed clock d) (limit : Int) :
    (early limit d).Nodup :=
  H.nodup.sublist (List.filter_sublist.map _)

/-- A period or more after the first reading, or later still. -/
theorem Within.limit_le (hclock : Monotone clock) (H : Within clock shortest start d)
    {period : Int32} (hperiod : shortest ≤ period.toInt) :
    clock start + shortest * 1000000 ≤ TimerInfo.expiryAt d.now.1 period := by
  have hread : clock start ≤ d.now.1 := by
    rw [now, H.wellformed.clock_eq]
    exact hclock H.later
  rw [TimerInfo.expiryAt]
  omega

theorem Within.now (H : Within clock shortest start d) : Within clock shortest start d.now.2 where
  wellformed := H.wellformed.now
  later := H.later.trans (Nat.le_succ _)
  periods := H.periods

/-- One request leaves no timer due that was not due before. -/
theorem Within.request (hclock : Monotone clock) (H : Within clock shortest start d)
    {r : Request F} (hr : ∀ q f, r = .addTimer q f → shortest ≤ q.toInt) :
    Within clock shortest start ((requests F ω).step d r).1 ∧
      early (clock start + shortest * 1000000) ((requests F ω).step d r).1 ⊆
        early (clock start + shortest * 1000000) d := by
  have hlater : start ≤ ((requests F ω).step d r).1.reads := by
    rw [reads_request]
    exact H.later.trans (Nat.le_add_right _ _)
  rcases request_cases d r with ⟨-, mFiles, interest, h⟩ | ⟨periodMs, func, rfl⟩ | ⟨id, rfl⟩
  · refine ⟨⟨H.wellformed.request r, hlater, ?_⟩, ?_⟩
    · rw [h]
      exact H.periods
    · rw [h]
      exact List.Subset.refl _
  · have hperiod := hr periodMs func rfl
    refine ⟨⟨H.wellformed.request _, hlater, ?_⟩, ?_⟩
    · intro t ht
      rcases List.mem_append.mp ((List.mem_insertionSort _).mp ht) with hold | hnew
      · exact H.periods t hold
      · rw [List.mem_singleton.mp hnew]
        exact hperiod
    · intro node hnode
      obtain ⟨t, ht, hlt, rfl⟩ := mem_early.mp hnode
      rcases List.mem_append.mp ((List.mem_insertionSort _).mp ht) with hold | hnew
      · exact mem_early.mpr ⟨t, hold, hlt, rfl⟩
      · rw [List.mem_singleton.mp hnew] at hlt
        exact absurd hlt (not_lt.mpr (H.limit_le hclock hperiod))
  · refine ⟨⟨H.wellformed.request _, hlater, ?_⟩, ?_⟩
    · intro t ht
      exact H.periods t (List.mem_of_mem_filter ht)
    · intro node hnode
      obtain ⟨t, ht, hlt, rfl⟩ := mem_early.mp hnode
      exact mem_early.mpr ⟨t, List.mem_of_mem_filter ht, hlt, rfl⟩

/-- One callback. -/
theorem Within.call (hclock : Monotone clock) (hp : Modest p shortest most)
    (H : Within clock shortest start d) (func : F) :
    Within clock shortest start (p.call func d) ∧
      early (clock start + shortest * 1000000) (p.call func d) ⊆
        early (clock start + shortest * 1000000) d ∧
      (p.call func d).reads ≤ d.reads + most := by
  have hrequests : Within clock shortest start ((requests F ω).state d (p func d).1) ∧
      early (clock start + shortest * 1000000) ((requests F ω).state d (p func d).1) ⊆
        early (clock start + shortest * 1000000) d := by
    refine (requests F ω).state_induction (fun e => Within clock shortest start e ∧
      early (clock start + shortest * 1000000) e ⊆
        early (clock start + shortest * 1000000) d) d _ ⟨H, List.Subset.refl _⟩ ?_
    rintro e r hr ⟨He, hsub⟩
    obtain ⟨Hnext, hnext⟩ := He.request hclock fun q f heq => hp.period func d q f (heq ▸ hr)
    exact ⟨Hnext, List.Subset.trans hnext hsub⟩
  obtain ⟨He, hsub⟩ := hrequests
  refine ⟨⟨He.wellformed.congr rfl rfl rfl, He.later, He.periods⟩, hsub, ?_⟩
  change ((requests F ω).state d (p func d).1).reads ≤ _
  rw [reads_requests]
  exact Nat.add_le_add_left (hp.few func d) _

/-- Re-arming takes the timer out of those that may be due. -/
theorem Within.rearm (hclock : Monotone clock) (H : Within clock shortest start d) (node : ℕ) :
    Within clock shortest start (d.now.2.rearm node d.now.1) ∧
      ∀ n ∈ early (clock start + shortest * 1000000) (d.now.2.rearm node d.now.1),
        n ∈ early (clock start + shortest * 1000000) d ∧ n ≠ node := by
  constructor
  · refine ⟨H.wellformed.now.rearm node _, H.now.later, ?_⟩
    intro t ht
    obtain ⟨s, hs, rfl⟩ := List.mem_map.mp ht
    split_ifs with hnode
    · exact H.periods s hs
    · exact H.periods s hs
  · intro n hn
    obtain ⟨t, ht, hlt, rfl⟩ := mem_early.mp hn
    obtain ⟨s, hs, rfl⟩ := List.mem_map.mp ht
    split_ifs at hlt ⊢ with hnode
    · exact absurd hlt (not_lt.mpr (H.limit_le hclock (H.periods s hs)))
    · exact ⟨mem_early.mpr ⟨s, hs, hlt, rfl⟩, hnode⟩

/-- The readings that are left are enough: those of the timers that may still run, and no
reading among them is a period after the first one. -/
structure Budget (clock : ℕ → Int) (shortest : Int) (start most last : ℕ)
    (d : EventDispatcher F ω) : Prop where
  within : Within clock shortest start d
  enough : d.reads + (most + 2) * (early (clock start + shortest * 1000000) d).length ≤ last
  fast : clock last < clock start + shortest * 1000000

/-- **One timer that is due** is one of those that may be due, and after it there is one
fewer of them. -/
theorem Budget.fire (hclock : Monotone clock) (hp : Modest p shortest most) {last : ℕ}
    (H : Budget clock shortest start most last d) {timer : TimerInfo F}
    (hmem : timer ∈ d.mTimers) (hdue : d.now.1 ≥ timer.expiry) :
    let called := p.call timer.func d.now.2
    let next := called.now.2.rearm timer.node called.now.1
    timer.node ∈ early (clock start + shortest * 1000000) d ∧
      (∀ n ∈ early (clock start + shortest * 1000000) next,
        n ∈ early (clock start + shortest * 1000000) d ∧ n ≠ timer.node) ∧
      (early (clock start + shortest * 1000000) next).length <
        (early (clock start + shortest * 1000000) d).length ∧
      Budget clock shortest start most last next := by
  intro called next
  have hread : d.now.1 < clock start + shortest * 1000000 := by
    have hlast : d.reads ≤ last := (Nat.le_add_right _ _).trans H.enough
    have hclock' : d.now.1 ≤ clock last := by
      rw [now, H.within.wellformed.clock_eq]
      exact hclock hlast
    exact hclock'.trans_lt H.fast
  have hearly : timer.node ∈ early (clock start + shortest * 1000000) d :=
    mem_early.mpr ⟨timer, hmem, lt_of_le_of_lt hdue hread, rfl⟩
  obtain ⟨Hcalled, hsub, hreads⟩ := H.within.now.call hclock hp timer.func
  obtain ⟨Hnext, hrearm⟩ := Hcalled.rearm hclock timer.node
  have hnext : ∀ n ∈ early (clock start + shortest * 1000000) next,
      n ∈ early (clock start + shortest * 1000000) d ∧ n ≠ timer.node :=
    fun n hn => ⟨hsub (hrearm n hn).1, (hrearm n hn).2⟩
  have hlt : (early (clock start + shortest * 1000000) next).length <
      (early (clock start + shortest * 1000000) d).length := by
    have hcons : (timer.node :: early (clock start + shortest * 1000000) next).Nodup :=
      List.nodup_cons.mpr
        ⟨fun hn => (hnext _ hn).2 rfl, Hnext.wellformed.nodup_early _⟩
    have hsub : timer.node :: early (clock start + shortest * 1000000) next ⊆
        early (clock start + shortest * 1000000) d := by
      intro n hn
      rcases List.mem_cons.mp hn with rfl | hn
      · exact hearly
      · exact (hnext n hn).1
    exact (hcons.subperm hsub).length_le
  refine ⟨hearly, hnext, hlt, Hnext, ?_, H.fast⟩
  have hreads' : next.reads ≤ d.reads + 1 + most + 1 := Nat.succ_le_succ hreads
  have henough := H.enough
  have hmul := Nat.mul_le_mul_left (most + 2) (Nat.succ_le_of_lt hlt)
  rw [Nat.succ_eq_add_one, Nat.mul_add, Nat.mul_one] at hmul
  omega

/-- **A pass runs a timer once at most**, and only timers that were in the list. -/
theorem Budget.starts (hclock : Monotone clock) (hp : Modest p shortest most) {last : ℕ}
    (H : Budget clock shortest start most last d) (fuel : ℕ) (node : Option ℕ) :
    ((starts p fuel node d).map fun v => v.1.node).Nodup ∧
      ∀ v ∈ EventDispatcher.starts p fuel node d,
        v.1.node ∈ early (clock start + shortest * 1000000) d := by
  induction fuel generalizing node d with
  | zero => cases node <;> simp [EventDispatcher.starts]
  | succ fuel ih =>
      cases node with
      | none => simp [EventDispatcher.starts]
      | some node =>
          rw [EventDispatcher.starts]
          cases hat : d.timerAt node with
          | none => simp
          | some timer =>
              obtain ⟨hmem, rfl⟩ := mem_of_timerAt hat
              dsimp only
              split_ifs with hdue
              · obtain ⟨hearly, hnext, -, Hnext⟩ := H.fire hclock hp hmem hdue
                cases hat' : (p.call timer.func d.now.2).timerAt timer.node with
                | none => simpa using hearly
                | some timer' =>
                    obtain ⟨hnodup, hrest⟩ := ih Hnext (nodeAfter timer.node
                      ((p.call timer.func d.now.2).now.2.rearm timer.node
                        (p.call timer.func d.now.2).now.1).mTimers)
                    dsimp only
                    rw [List.map_cons, List.nodup_cons]
                    refine ⟨⟨?_, hnodup⟩, ?_⟩
                    · intro hagain
                      obtain ⟨v, hv, heq⟩ := List.mem_map.mp hagain
                      exact (hnext _ (hrest v hv)).2 heq
                    · intro v hv
                      rcases List.mem_cons.mp hv with rfl | hv
                      · exact hearly
                      · exact (hnext _ (hrest v hv)).1
              · simp

/-- **A pass ends** after as many timers as may be due. -/
theorem Budget.ends (hclock : Monotone clock) (hp : Modest p shortest most) {last : ℕ}
    (H : Budget clock shortest start most last d) {fuel : ℕ}
    (hfuel : (early (clock start + shortest * 1000000) d).length < fuel) (node : Option ℕ)
    (count : ℕ) : fireTimers p.call fuel node count d ≠ .error .outOfFuel := by
  induction fuel generalizing node count d with
  | zero => exact absurd hfuel (Nat.not_lt_zero _)
  | succ fuel ih =>
      cases node with
      | none => simp [fireTimers]
      | some node =>
          rw [fireTimers]
          cases hat : d.timerAt node with
          | none => simp
          | some timer =>
              obtain ⟨hmem, rfl⟩ := mem_of_timerAt hat
              dsimp only
              split_ifs with hdue
              · obtain ⟨-, -, hlt, Hnext⟩ := H.fire hclock hp hmem hdue
                cases hat' : (p.call timer.func d.now.2).timerAt timer.node with
                | none => simp
                | some timer' => exact ih Hnext (by omega) _ _
              · simp

end pass

/-! ## The turn around it -/

/-- **A turn comes back.** The callbacks add at most `most` timers at a time, no timer has a
period below `shortest` milliseconds, none of those that run removes itself, and the readings of
the loop, two for each timer and one for each that a callback adds, stay within that period of
the first of them. Then the loop runs a timer once at most, and only timers that were in the
list when it began, and the turn returns, and says whether it ran any. -/
theorem turn_returns (p : Program F ω) {clock : ℕ → Int} (hclock : Monotone clock)
    {d : EventDispatcher F ω} (hd : Reachable p.call clock d) {shortest : Int} {most : ℕ}
    (hp : Modest p shortest most) (ready : List EpollEvent)
    (hperiods : ∀ t ∈ (loopStart p.call ready d).mTimers, shortest ≤ t.period.toInt)
    (hfast : clock ((loopStart p.call ready d).reads +
      (most + 2) * (loopStart p.call ready d).mTimers.length) <
        clock (loopStart p.call ready d).reads + shortest * 1000000)
    (hown : ∀ v ∈ timerStarts p ((loopStart p.call ready d).mTimers.length + 1) ready d,
      .removeTimer v.1.id ∉ (p v.1.func v.2).1) :
    let fuel := (loopStart p.call ready d).mTimers.length + 1
    (∃ d', (processEvents p.call fuel ready d).result =
        .ok (!(timerStarts p fuel ready d).isEmpty, d')) ∧
      ((timerStarts p fuel ready d).map fun v => v.1.node).Nodup ∧
      ∀ v ∈ timerStarts p fuel ready d,
        v.1.node ∈ (loopStart p.call ready d).mTimers.map TimerInfo.node := by
  intro fuel
  let start := loopStart p.call ready d
  have hwell : Wellformed clock start := by
    have S : Stable (Wellformed clock : EventDispatcher F ω → Prop) := Wellformed.stable clock
    have hclient := client_call p
    have hd' := hd.invariant S hclient (wellformed_init clock)
    exact S.dispatchFiles hclient (S.timeoutMs hd') _
  have hlen : (early (clock start.reads + shortest * 1000000) start).length ≤
      start.mTimers.length := by
    rw [early, List.length_map]
    exact List.length_filter_le _ _
  have H : Budget clock shortest start.reads most
      (start.reads + (most + 2) * start.mTimers.length) start :=
    ⟨⟨hwell, le_rfl, hperiods⟩, Nat.add_le_add_left (Nat.mul_le_mul_left _ hlen) _, hfast⟩
  obtain ⟨hnodup, hearly⟩ := H.starts hclock hp fuel (start.mTimers.head?.map TimerInfo.node)
  refine ⟨?_, hnodup, ?_⟩
  · have hfuel := H.ends hclock hp (Nat.lt_succ_of_le hlen)
      (start.mTimers.head?.map TimerInfo.node) 0
    have hsound := ((clear_nil hwell).loop (fun n hn => exists_of_head hn) 0 hown).2
    cases hloop : fireTimers p.call fuel (start.mTimers.head?.map TimerInfo.node) 0 start with
    | error e =>
        cases e with
        | removedEntry => exact absurd hloop hsound
        | outOfFuel => exact absurd hloop hfuel
    | ok r =>
        refine ⟨r.2, (processEvents_of_loop hloop).trans ?_⟩
        have hcount : r.1 = (timerStarts p fuel ready d).length :=
          (fireTimers_length_starts hloop).trans (Nat.zero_add _)
        rw [hcount]
        cases timerStarts p fuel ready d <;> rfl
  · intro v hv
    obtain ⟨t, ht, -, hnode⟩ := mem_early.mp (hearly v hv)
    exact List.mem_map.mpr ⟨t, ht, hnode⟩

/-- A callback that adds its timer again. -/
def reposter (periodMs : Int32) : Program Unit Unit := fun _ _ => ([.addTimer periodMs ()], ())

theorem modest_reposter : Modest (reposter 5) 5 1 where
  period func d q f hmem := by
    obtain ⟨rfl, -⟩ := Request.addTimer.inj (List.mem_singleton.mp hmem)
    decide
  few func d := le_rfl

/-- A clock that stands still but for a jump of 10 ms behind its first reading. -/
def jump (n : ℕ) : Int := if n = 0 then 0 else 10000000

theorem monotone_jump : Monotone jump := by
  intro m n hmn
  rw [jump, jump]
  split_ifs <;> omega

/-- A timer of 5 ms that is due, and adds another one. -/
theorem turn_returns_reposter :
    let d := (after jump () [.addTimer 5 ()] : EventDispatcher Unit Unit)
    (∃ d', (processEvents (reposter 5).call 2 [] d).result =
        .ok (!(timerStarts (reposter 5) 2 [] d).isEmpty, d')) ∧
      ((timerStarts (reposter 5) 2 [] d).map fun v => v.1.node).Nodup ∧
      ∀ v ∈ timerStarts (reposter 5) 2 [] d,
        v.1.node ∈ (loopStart (reposter 5).call [] d).mTimers.map TimerInfo.node :=
  turn_returns (reposter 5) monotone_jump (.request (.addTimer 5 ()) (.init ())) modest_reposter
    [] (by decide) (by decide) (by
      intro v _ hmem
      cases List.mem_singleton.mp hmem)

/-! ## Timers of 0 ms -/

/-- Callbacks that each add a timer of 0 ms, and make no other request about timers. -/
def Reposting (p : Program F ω) : Prop :=
  ∀ func d, (∃ f, .addTimer 0 f ∈ (p func d).1) ∧
    ∀ r ∈ (p func d).1, r.IsFile ∨ ∃ f, r = .addTimer 0 f

/-- Every timer has a period of 0 ms, and is due. -/
structure Ripe (clock : ℕ → Int) (d : EventDispatcher F ω) : Prop where
  wellformed : Wellformed clock d
  zero : ∀ t ∈ d.mTimers, t.period = 0
  due : ∀ t ∈ d.mTimers, t.expiry ≤ clock d.reads

theorem expiryAt_zero (now : Int) : TimerInfo.expiryAt now 0 = now := by
  rw [TimerInfo.expiryAt]
  change now + 0 * 1000000 = now
  omega

/-- A timer that is due no earlier than the others goes behind them all. -/
theorem sortTimers_concat {ts : List (TimerInfo F)} {t : TimerInfo F}
    (h : ∀ s ∈ ts, s.expiry ≤ t.expiry) : sortTimers (ts ++ [t]) = sortTimers ts ++ [t] := by
  have hinsert : ∀ (s : TimerInfo F) (us : List (TimerInfo F)), s.expiry ≤ t.expiry →
      (us ++ [t]).orderedInsert (fun s t => s.expiry ≤ t.expiry) s =
        us.orderedInsert (fun s t => s.expiry ≤ t.expiry) s ++ [t] := by
    intro s us hs
    induction us with
    | nil => simp [hs]
    | cons u us ih =>
        by_cases hu : s.expiry ≤ u.expiry
        · simp [List.orderedInsert_cons, hu]
        · simp [List.orderedInsert_cons, hu, ih]
  induction ts with
  | nil => rfl
  | cons s ts ih =>
      have hrest := ih fun u hu => h u (List.mem_cons_of_mem _ hu)
      simp only [sortTimers, List.cons_append, List.insertionSort_cons] at hrest ⊢
      rw [hrest, hinsert s _ (h s List.mem_cons_self)]

/-- In front of the last node there is a next one. -/
theorem exists_nodeAfter {ts : List (TimerInfo F)} {ns : List ℕ} {node last : ℕ}
    (hts : ts.map TimerInfo.node = ns ++ [last]) (hnode : node ∈ ns) :
    ∃ n, nodeAfter node ts = some n := by
  induction ns generalizing ts with
  | nil => cases hnode
  | cons m ns ih =>
      obtain ⟨s, us, rfl, rfl, hus⟩ := List.map_eq_cons_iff.mp hts
      rw [nodeAfter]
      split_ifs with hs
      · -- a next node is there, the last one at least
        cases us with
        | nil => exact absurd hus (by simp)
        | cons u us => exact ⟨u.node, rfl⟩
      · refine ih hus ((List.mem_cons.mp hnode).resolve_left ?_)
        rintro rfl
        exact hs rfl

section ripe
variable {clock : ℕ → Int} {d : EventDispatcher F ω} {p : Program F ω}

theorem Ripe.now (hclock : Monotone clock) (H : Ripe clock d) : Ripe clock d.now.2 where
  wellformed := H.wellformed.now
  zero := H.zero
  due t ht := (H.due t ht).trans (hclock (Nat.le_succ _))

theorem Ripe.rearm (hclock : Monotone clock) (H : Ripe clock d) (node : ℕ) :
    Ripe clock (d.now.2.rearm node d.now.1) where
  wellformed := H.wellformed.now.rearm node _
  zero t ht := by
    obtain ⟨s, hs, rfl⟩ := List.mem_map.mp ht
    split_ifs with hnode
    · exact H.zero s hs
    · exact H.zero s hs
  due t ht := by
    obtain ⟨s, hs, rfl⟩ := List.mem_map.mp ht
    have hnext : clock d.reads ≤ clock (d.reads + 1) := hclock (Nat.le_succ _)
    split_ifs with hnode
    · change TimerInfo.expiryAt d.now.1 s.period ≤ clock (d.reads + 1)
      rw [H.zero s hs, expiryAt_zero, EventDispatcher.now, H.wellformed.clock_eq]
      exact hnext
    · exact (H.due s hs).trans hnext

/-- A new timer of 0 ms goes behind all that are due. -/
theorem Ripe.addTimer (hclock : Monotone clock) (H : Ripe clock d) (func : F) :
    Ripe clock (d.addTimer 0 func).1 ∧ ∃ last : TimerInfo F, last.node = d.nextNode ∧
      (d.addTimer 0 func).1.mTimers = sortTimers d.mTimers ++ [last] := by
  have hread : d.now.1 = clock d.reads := congrFun H.wellformed.clock_eq d.reads
  have hexpiry : TimerInfo.expiryAt d.now.1 0 = clock d.reads := by rw [expiryAt_zero, hread]
  have htimers : (d.addTimer 0 func).1.mTimers = sortTimers d.mTimers ++
      [⟨d.nextNode, d.nextTimerId, 0, TimerInfo.expiryAt d.now.1 0, func⟩] := by
    refine sortTimers_concat ?_
    intro s hs
    exact (H.due s hs).trans hexpiry.ge
  refine ⟨⟨H.wellformed.addTimer 0 func, ?_, ?_⟩, _, rfl, htimers⟩
  · intro t ht
    rcases List.mem_append.mp ((List.mem_insertionSort _).mp ht) with hold | hnew
    · exact H.zero t hold
    · rw [List.mem_singleton.mp hnew]
  · intro t ht
    have hnext : clock d.reads ≤ clock (d.reads + 1) := hclock (Nat.le_succ _)
    rcases List.mem_append.mp ((List.mem_insertionSort _).mp ht) with hold | hnew
    · exact (H.due t hold).trans hnext
    · rw [List.mem_singleton.mp hnew]
      exact hexpiry.trans_le hnext

/-- Requests that add timers of 0 ms, or are about files. -/
theorem Ripe.request (hclock : Monotone clock) (H : Ripe clock d) {r : Request F}
    (hr : r.IsFile ∨ ∃ f, r = .addTimer 0 f) : Ripe clock ((requests F ω).step d r).1 := by
  rcases request_cases d r with ⟨-, mFiles, interest, h⟩ | ⟨periodMs, func, rfl⟩ | ⟨id, rfl⟩
  · rw [h]
    exact ⟨H.wellformed.congr rfl rfl rfl, H.zero, H.due⟩
  · rcases hr with hfile | ⟨f, hadd⟩
    · exact hfile.elim
    · obtain ⟨rfl, rfl⟩ := Request.addTimer.inj hadd
      exact (H.addTimer hclock _).1
  · rcases hr with hfile | ⟨f, hadd⟩
    · exact hfile.elim
    · cases hadd

/-- A timer with another one behind it. -/
def Followed (node : ℕ) (d : EventDispatcher F ω) : Prop :=
  ∃ ns last, d.mTimers.map TimerInfo.node = ns ++ [last] ∧ node ∈ ns

/-- A request for a timer of 0 ms puts one behind every timer of the list. -/
theorem Ripe.followed_addTimer (hclock : Monotone clock) (H : Ripe clock d) {t : TimerInfo F}
    (ht : t ∈ d.mTimers) (func : F) : Followed t.node (d.addTimer 0 func).1 := by
  obtain ⟨-, last, -, htimers⟩ := H.addTimer hclock func
  refine ⟨(sortTimers d.mTimers).map TimerInfo.node, last.node, ?_, ?_⟩
  · rw [htimers, List.map_append, List.map_singleton]
  · exact List.mem_map_of_mem ((List.mem_insertionSort _).mpr ht)

theorem Ripe.requests (hclock : Monotone clock) {rs : List (Request F)} {t : TimerInfo F}
    (hrs : ∀ r ∈ rs, r.IsFile ∨ ∃ f, r = .addTimer 0 f) (H : Ripe clock d) (ht : t ∈ d.mTimers)
    (hadd : (∃ f, .addTimer 0 f ∈ rs) ∨ Followed t.node d) :
    Ripe clock ((EventDispatcher.requests F ω).state d rs) ∧
      Followed t.node ((EventDispatcher.requests F ω).state d rs) := by
  induction rs generalizing d with
  | nil =>
      refine ⟨H, hadd.resolve_left ?_⟩
      rintro ⟨f, hf⟩
      cases hf
  | cons r rs ih =>
      have hr := hrs r List.mem_cons_self
      have hkeep : t ∈ ((EventDispatcher.requests F ω).step d r).1.mTimers := by
        refine mem_timers_request ht ?_
        rintro rfl
        rcases hr with hfile | ⟨f, hf⟩
        · exact hfile.elim
        · cases hf
      refine ih (fun r' hr' => hrs r' (List.mem_cons_of_mem _ hr')) (H.request hclock hr) hkeep ?_
      rcases hr with hfile | ⟨f, rfl⟩
      · -- the list stays as it is
        rcases request_cases d r with ⟨-, mFiles, interest, h⟩ | ⟨periodMs, func, rfl⟩ | ⟨id, rfl⟩
        · rw [h]
          refine hadd.imp ?_ id
          rintro ⟨f, hf⟩
          rcases List.mem_cons.mp hf with rfl | hf
          · exact hfile.elim
          · exact ⟨f, hf⟩
        · exact hfile.elim
        · exact hfile.elim
      · exact .inr (H.followed_addTimer hclock ht f)

/-- One callback. -/
theorem Ripe.call (hclock : Monotone clock) (hp : Reposting p) (H : Ripe clock d)
    {t : TimerInfo F} (ht : t ∈ d.mTimers) (func : F) :
    Ripe clock (p.call func d) ∧ Followed t.node (p.call func d) := by
  obtain ⟨He, hfollowed⟩ := H.requests hclock (hp func d).2 ht (.inl (hp func d).1)
  exact ⟨⟨He.wellformed.congr rfl rfl rfl, He.zero, He.due⟩, hfollowed⟩

/-- **The loop does not end** once every timer is due and every callback adds one more. -/
theorem Ripe.loop (hclock : Monotone clock) (hp : Reposting p) (H : Ripe clock d)
    {t : TimerInfo F} (ht : t ∈ d.mTimers) (fuel count : ℕ) :
    fireTimers p.call fuel (some t.node) count d = .error .outOfFuel := by
  induction fuel generalizing d t count with
  | zero => rfl
  | succ fuel ih =>
      obtain ⟨timer, hat⟩ := exists_timerAt ht
      obtain ⟨hmem, hnode⟩ := mem_of_timerAt hat
      have hdue : d.now.1 ≥ timer.expiry := by
        rw [EventDispatcher.now, H.wellformed.clock_eq]
        exact H.due timer hmem
      obtain ⟨Hcalled, hfollowed⟩ := (H.now hclock).call hclock hp hmem timer.func
      rw [hnode] at hfollowed
      obtain ⟨ns, last, hns, hmem'⟩ := hfollowed
      obtain ⟨s, hs, hsnode⟩ := List.mem_map.mp (hns ▸ List.mem_append_left _ hmem')
      obtain ⟨timer', hat'⟩ := exists_timerAt hs
      rw [hsnode] at hat'
      let called := p.call timer.func d.now.2
      have hrearm : (called.now.2.rearm t.node called.now.1).mTimers.map TimerInfo.node =
          ns ++ [last] := (map_node_rearm _ _ _).trans hns
      obtain ⟨n, hn⟩ := exists_nodeAfter hrearm hmem'
      obtain ⟨u, hu, rfl⟩ := exists_of_nodeAfter hn
      rw [fireTimers, hat]
      dsimp only
      rw [if_pos hdue, hat']
      change fireTimers p.call fuel (nodeAfter t.node (called.now.2.rearm t.node
        called.now.1).mTimers) (count + 1) (called.now.2.rearm t.node called.now.1) = _
      rw [hn]
      exact ih (Hcalled.rearm hclock t.node) hu _

/-- What the callbacks of files and the readings of a turn leave ripe. -/
theorem Ripe.loopStart (hclock : Monotone clock) (hp : Reposting p) (H : Ripe clock d)
    (hne : d.mTimers ≠ []) (ready : List EpollEvent) :
    Ripe clock (loopStart p.call ready d) ∧ (loopStart p.call ready d).mTimers ≠ [] := by
  have htimeout : Ripe clock d.timeoutMs.2 ∧ d.timeoutMs.2.mTimers ≠ [] := by
    rw [EventDispatcher.timeoutMs]
    split
    · exact ⟨H, hne⟩
    · exact ⟨H.now hclock, hne⟩
  refine (dispatchFiles p.call).state_induction
    (fun d => Ripe clock d ∧ d.mTimers ≠ []) _ _ htimeout ?_
  rintro d event - ⟨H, hne⟩
  change Ripe clock (dispatchFile p.call d event).1 ∧ (dispatchFile p.call d event).1.mTimers ≠ []
  rw [dispatchFile]
  cases d.mFiles (dispatchKey event) with
  | none => exact ⟨H, hne⟩
  | some func =>
      obtain ⟨t, ht⟩ := List.exists_mem_of_ne_nil _ hne
      obtain ⟨Hcalled, ns, last, hns, -⟩ := H.call hclock hp ht func
      refine ⟨Hcalled, ?_⟩
      intro hnil
      rw [hnil] at hns
      exact absurd hns (by simp)

/-- **Timers of 0 ms keep a turn for ever.** When a client adds some timers of 0 ms, and every
callback adds another one, as a task that puts itself back does, the first turn never returns,
whatever the clock says: no file is looked at again, and no later timer runs. -/
theorem turn_never_returns (p : Program F ω) (hp : Reposting p) {clock : ℕ → Int}
    (hclock : Monotone clock) (env : ω) {rs : List (Request F)}
    (hrs : ∀ r ∈ rs, r.IsFile ∨ ∃ f, r = .addTimer 0 f) (hadd : ∃ f, .addTimer 0 f ∈ rs)
    (ready : List EpollEvent) (fuel : ℕ) :
    (processEvents p.call fuel ready (after clock env rs)).result = .error .outOfFuel := by
  have hripe : Ripe clock (after clock env rs) := by
    refine (requests F ω).state_induction (Ripe clock) _ rs
      ⟨wellformed_init clock env, by simp [init], by simp [init]⟩ ?_
    intro d r hr H
    exact H.request hclock (hrs r hr)
  have hne : (after clock env rs : EventDispatcher F ω).mTimers ≠ [] := by
    obtain ⟨f, hf⟩ := hadd
    obtain ⟨before, behind, rfl⟩ := List.append_of_mem hf
    rw [after, Mealy.state_append, Mealy.state_cons]
    obtain ⟨t, ht⟩ :
        ∃ t, t ∈ (((requests F ω).state (init clock env) before).addTimer 0 f).1.mTimers :=
      ⟨_, (List.mem_insertionSort _).mpr (List.mem_append_right _ (List.mem_singleton_self _))⟩
    refine List.ne_nil_of_mem (a := t) ?_
    refine (requests F ω).state_induction (fun d => t ∈ d.mTimers) _ behind ht ?_
    intro d r hr ht'
    refine mem_timers_request ht' ?_
    rintro rfl
    rcases hrs _ (List.mem_append_right _ (List.mem_cons_of_mem _ hr)) with hfile | ⟨g, hg⟩
    · exact hfile
    · cases hg
  obtain ⟨H, hne'⟩ := hripe.loopStart hclock hp hne ready
  obtain ⟨t, ts, htimers⟩ := List.exists_cons_of_ne_nil hne'
  have hloop := H.loop hclock hp (t := t) (htimers ▸ List.mem_cons_self) fuel 0
  change (fireTimers p.call fuel ((loopStart p.call ready (after clock env rs)).mTimers.head?.map
    TimerInfo.node) 0 (loopStart p.call ready (after clock env rs)) >>=
      fun r => pure (decide (r.1 > 0), r.2)) = _
  rw [htimers, List.head?_cons, Option.map_some, hloop]
  rfl

end ripe

theorem reposting_reposter : Reposting (reposter 0) := by
  intro func d
  refine ⟨⟨(), List.mem_singleton_self _⟩, ?_⟩
  intro r hr
  exact .inr ⟨(), List.mem_singleton.mp hr⟩

/-- A task that puts itself back, on a clock that moves on with each reading. -/
theorem turn_never_returns_reposter :
    Reposting (reposter 0) ∧ ∀ fuel, (processEvents (reposter 0).call fuel []
      (after ticks () [.addTimer 0 ()])).result = .error .outOfFuel := by
  refine ⟨reposting_reposter, ?_⟩
  refine turn_never_returns (reposter 0) reposting_reposter monotone_ticks () ?_ ?_ []
  · exact fun _ hr => .inr ⟨(), List.mem_singleton.mp hr⟩
  · exact ⟨(), List.mem_singleton_self _⟩

end DPFlow.EventDispatcher
