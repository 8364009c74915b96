import DPFlow.EventDispatcher.Removal
import DPFlow.EventDispatcher.Spacing
import Mathlib

/-!
# What the timer loop touches

The loop holds on to a list entry while the entry's callback runs, then writes its expiry
and goes on from it. A callback may take out any other timer, before the loop or behind it,
and the loop finds its way; what it must not do is take out its own.

## Main definitions

* `EventDispatcher.Access`, `EventDispatcher.accesses` — what one pass touches, starts and
  sees removed.
* `EventDispatcher.Sound` — nothing is touched or started that was removed before.
* `EventDispatcher.starts` — the callbacks that a pass starts.
-/
namespace DPFlow.EventDispatcher

open Lib

variable {F ω : Type}

/-! ## The log of a pass -/

/-- One line of the log of a pass: an entry is read, written or advanced from; its callback
starts; or it is taken out of `m_timers`. -/
inductive Access
  | touched (node : ℕ)
  | started (node : ℕ)
  | removed (node : ℕ)
  deriving DecidableEq, Repr

/-- The entry that has to be there. -/
def Access.uses : Access → Option ℕ
  | touched node | started node => some node
  | removed _ => none

/-- The entries that a request takes out. -/
def removals (d : EventDispatcher F ω) : Request F → List Access
  | .removeTimer id => (d.mTimers.filter fun t => t.id = id).map fun t => .removed t.node
  | .addFile .. | .removeFile .. | .addTimer .. => []

/-- The entries that a callback takes out. -/
def callRemovals (p : Program F ω) (func : F) (d : EventDispatcher F ω) : List Access :=
  ((requests F ω).visits d (p func d).1).flatMap fun v => removals v.1 v.2

/-- The accesses of the timer loop: `fireTimers`, keeping the log where it keeps the number
of timers. -/
def accesses (p : Program F ω) : ℕ → Option ℕ → EventDispatcher F ω → List Access
  | _, none, _ => []
  | 0, some _, _ => []
  | fuel + 1, some node, d =>
      match d.timerAt node with
      | none => [.touched node]
      | some timer =>
          let (t, d) := d.now
          if t ≥ timer.expiry then
            let log := .touched node :: .started node :: callRemovals p timer.func d
            let d := p.call timer.func d
            match d.timerAt node with
            | none => log ++ [.touched node]
            | some _ =>
                let (t, d) := d.now
                let d := d.rearm node t
                log ++ .touched node :: accesses p fuel (nodeAfter node d.mTimers) d
          else [.touched node]

/-- The callbacks that the loop starts, each with its timer and the dispatcher it finds. -/
def starts (p : Program F ω) :
    ℕ → Option ℕ → EventDispatcher F ω → List (TimerInfo F × EventDispatcher F ω)
  | _, none, _ => []
  | 0, some _, _ => []
  | fuel + 1, some node, d =>
      match d.timerAt node with
      | none => []
      | some timer =>
          let (t, d) := d.now
          if t ≥ timer.expiry then
            let called := p.call timer.func d
            match called.timerAt node with
            | none => [(timer, d)]
            | some _ =>
                let (t, next) := called.now
                let next := next.rearm node t
                (timer, d) :: starts p fuel (nodeAfter node next.mTimers) next
          else []

/-- No entry is used after it was removed. -/
def Sound (log : List Access) : Prop :=
  ∀ past x node, past ++ [x] <+: log → x.uses = some node → .removed node ∉ past

/-! ## Logs -/

section logs
variable {log : List Access}

theorem Sound.concat (h : Sound log) {x : Access}
    (hx : ∀ node, x.uses = some node → .removed node ∉ log) : Sound (log ++ [x]) := by
  intro past y node hprefix huse
  obtain heq | hold := List.prefix_concat_iff.mp hprefix
  · obtain ⟨rfl, hlast⟩ := List.append_inj' heq rfl
    obtain rfl := List.singleton_inj.mp hlast
    exact hx node huse
  · exact h past y node hold huse

theorem Sound.of_append {before : List Access} (h : Sound (before ++ log)) : Sound log := by
  intro past x node hprefix huse hmem
  refine h (before ++ past) x node ?_ huse (List.mem_append_right _ hmem)
  rw [List.append_assoc]
  exact (List.prefix_append_right_inj before).mpr hprefix

/-- Removals use nothing. -/
theorem Sound.append (h : Sound log) {more : List Access} (hmore : ∀ x ∈ more, x.uses = none) :
    Sound (log ++ more) := by
  induction more generalizing log with
  | nil => rwa [List.append_nil]
  | cons x more ih =>
      rw [List.append_cons]
      refine ih (h.concat ?_) fun y hy => hmore y (List.mem_cons_of_mem _ hy)
      intro node huse
      rw [hmore x List.mem_cons_self] at huse
      cases huse

end logs

theorem mem_removals {d : EventDispatcher F ω} {r : Request F} {x : Access}
    (h : x ∈ removals d r) :
    ∃ t ∈ d.mTimers, r = .removeTimer t.id ∧ x = .removed t.node := by
  cases r with
  | removeTimer id =>
      obtain ⟨t, ht, rfl⟩ := List.mem_map.mp h
      obtain ⟨hmem, hid⟩ := List.mem_filter.mp ht
      exact ⟨t, hmem, by rw [of_decide_eq_true hid], rfl⟩
  | addFile fd op func accept => cases h
  | removeFile fd op accept => cases h
  | addTimer periodMs func => cases h

/-- The log of the clock readings misses no start. -/
theorem fireLog_countP (p : Program F ω) (fuel : ℕ) (node : Option ℕ) (d : EventDispatcher F ω) :
    (fireLog p fuel node d).countP Entry.isStart = (starts p fuel node d).length := by
  induction fuel generalizing node d with
  | zero => cases node <;> rfl
  | succ fuel ih =>
      cases node with
      | none => rfl
      | some node =>
          rw [fireLog, starts]
          cases hat : d.timerAt node with
          | none => rfl
          | some timer =>
              dsimp only
              split_ifs with hdue
              · have hcall : (callLog p timer.func d.now.2).countP Entry.isStart = 0 :=
                  List.countP_eq_zero.mpr (callLog_no_start p timer.func d.now.2)
                cases hat' : (p.call timer.func d.now.2).timerAt node with
                | none =>
                    dsimp only
                    rw [List.countP_cons_of_pos rfl, hcall]
                    rfl
                | some timer' =>
                    dsimp only
                    rw [List.countP_append, List.countP_cons_of_pos rfl, hcall,
                      List.countP_cons_of_neg Bool.false_ne_true, ih, List.length_cons]
                    omega
              · rfl

/-- The loop counts the callbacks that it starts. -/
theorem fireTimers_length_starts {p : Program F ω} {fuel : ℕ} {node : Option ℕ} {count n : ℕ}
    {d d' : EventDispatcher F ω} (h : fireTimers p.call fuel node count d = .ok (n, d')) :
    n = count + (starts p fuel node d).length := by
  rw [fireTimers_count h, fireLog_countP]

/-! ## One request -/

section requests
variable {d : EventDispatcher F ω} {t : TimerInfo F}

/-- A timer stays until it is removed by its id. -/
theorem mem_timers_request (ht : t ∈ d.mTimers) {r : Request F} (hr : r ≠ .removeTimer t.id) :
    t ∈ ((requests F ω).step d r).1.mTimers := by
  obtain ⟨-, mFiles, interest, h⟩ | ⟨periodMs, func, rfl⟩ | ⟨id, rfl⟩ := request_cases d r
  · rw [h]
    exact ht
  · exact (List.mem_insertionSort _).mpr (List.mem_append_left _ ht)
  · have hid : t.id ≠ id := by
      rintro rfl
      exact hr rfl
    exact List.mem_filter.mpr ⟨ht, decide_eq_true hid⟩

/-- A timer that is in the list after a request was there before, or is new. -/
theorem mem_timers_of_request {r : Request F} (ht : t ∈ ((requests F ω).step d r).1.mTimers) :
    (t ∈ d.mTimers ∧ r ≠ .removeTimer t.id) ∨ t.node = d.nextNode := by
  obtain ⟨hr, mFiles, interest, h⟩ | ⟨periodMs, func, rfl⟩ | ⟨id, rfl⟩ := request_cases d r
  · rw [h] at ht
    refine .inl ⟨ht, ?_⟩
    rintro rfl
    exact hr
  · obtain hold | hnew := List.mem_append.mp ((List.mem_insertionSort _).mp ht)
    · exact .inl ⟨hold, by simp⟩
    · rw [List.mem_singleton.mp hnew]
      exact .inr rfl
  · obtain ⟨hmem, hid⟩ := List.mem_filter.mp ht
    refine .inl ⟨hmem, ?_⟩
    intro heq
    exact of_decide_eq_true hid (Request.removeTimer.inj heq).symm

/-- A timer is taken out by the first request with its id. -/
theorem removed_mem_visits (ht : t ∈ d.mTimers) {rs : List (Request F)}
    (hr : .removeTimer t.id ∈ rs) :
    .removed t.node ∈ ((requests F ω).visits d rs).flatMap fun v => removals v.1 v.2 := by
  induction rs generalizing d with
  | nil => cases hr
  | cons r rs ih =>
      rw [Mealy.visits_cons, List.flatMap_cons, List.mem_append]
      by_cases hown : r = .removeTimer t.id
      · refine .inl ?_
        rw [hown]
        exact List.mem_map.mpr ⟨t, List.mem_filter.mpr ⟨ht, decide_eq_true rfl⟩, rfl⟩
      · refine .inr (ih (mem_timers_request ht hown) ?_)
        exact (List.mem_cons.mp hr).resolve_left (Ne.symm hown)

end requests

/-! ## The log and the list -/

/-- A sound log, and a dispatcher whose list has none of the entries removed in it, nor is
going to have. -/
structure Clear (clock : ℕ → Int) (log : List Access) (d : EventDispatcher F ω) : Prop where
  wellformed : Wellformed clock d
  sound : Sound log
  old : ∀ node, .removed node ∈ log → node < d.nextNode
  gone : ∀ t ∈ d.mTimers, .removed t.node ∉ log

section steps
variable {clock : ℕ → Int} {log : List Access} {d : EventDispatcher F ω} {p : Program F ω}

theorem clear_nil (H : Wellformed clock d) : Clear clock [] d where
  wellformed := H
  sound past x node hprefix := absurd (List.prefix_nil.mp hprefix) (by simp)
  old _ h := by cases h
  gone _ _ := List.not_mem_nil

theorem nextNode_le_request (d : EventDispatcher F ω) (r : Request F) :
    d.nextNode ≤ ((requests F ω).step d r).1.nextNode := by
  obtain ⟨-, mFiles, interest, h⟩ | ⟨periodMs, func, rfl⟩ | ⟨id, rfl⟩ := request_cases d r
  · rw [h]
  · exact Nat.le_succ _
  · exact le_rfl

/-- One request: what it removes is logged, and does not come back. -/
theorem Clear.request (H : Clear clock log d) (r : Request F) :
    Clear clock (log ++ removals d r) ((requests F ω).step d r).1 where
  wellformed := H.wellformed.request r
  sound := by
    refine H.sound.append ?_
    intro x hx
    obtain ⟨t, -, -, rfl⟩ := mem_removals hx
    rfl
  old node hnode := by
    refine lt_of_lt_of_le ?_ (nextNode_le_request d r)
    obtain hlog | hnew := List.mem_append.mp hnode
    · exact H.old node hlog
    · obtain ⟨t, ht, -, heq⟩ := mem_removals hnew
      rw [Access.removed.inj heq]
      exact H.wellformed.below t ht
  gone t ht hlog := by
    obtain hold | hnew := List.mem_append.mp hlog
    · obtain ⟨hmem, -⟩ | hnode := mem_timers_of_request ht
      · exact H.gone t hmem hold
      · exact (H.old _ hold).ne hnode
    · obtain ⟨s, hs, hr, heq⟩ := mem_removals hnew
      have hnode : t.node = s.node := Access.removed.inj heq
      obtain ⟨hmem, hother⟩ | hfresh := mem_timers_of_request ht
      · -- one node, one timer: the request would have removed it
        have hts : t = s :=
          List.inj_on_of_nodup_map H.wellformed.nodup hmem hs hnode
        exact hother (hts ▸ hr)
      · exact (H.wellformed.below s hs).ne (hnode ▸ hfresh)

/-- Nothing is logged, and the list keeps its nodes. -/
theorem Clear.congr (H : Clear clock log d) {d' : EventDispatcher F ω}
    (hd' : Wellformed clock d')
    (hnodes : d'.mTimers.map TimerInfo.node = d.mTimers.map TimerInfo.node)
    (hnext : d'.nextNode = d.nextNode) : Clear clock log d' where
  wellformed := hd'
  sound := H.sound
  old node hnode := hnext ▸ H.old node hnode
  gone t ht := by
    obtain ⟨s, hs, hst⟩ := List.mem_map.mp (hnodes ▸ List.mem_map_of_mem ht)
    rw [← hst]
    exact H.gone s hs

theorem Clear.call (H : Clear clock log d) (func : F) :
    Clear clock (log ++ callRemovals p func d) (p.call func d) := by
  have hrequests : Clear clock (log ++ callRemovals p func d)
      ((requests F ω).state d (p func d).1) :=
    (requests F ω).state_log_induction (Clear clock) (fun v => removals v.1 v.2) d _ log H
      fun _ _ r H' => H'.request r
  exact hrequests.congr (hrequests.wellformed.congr rfl rfl rfl) rfl rfl

/-- An entry that is in the list may be used. -/
theorem Clear.use (H : Clear clock log d) {t : TimerInfo F} (ht : t ∈ d.mTimers) {x : Access}
    (hx : x.uses = some t.node) : Clear clock (log ++ [x]) d where
  wellformed := H.wellformed
  sound := by
    refine H.sound.concat ?_
    intro node huse
    rw [hx] at huse
    cases huse
    exact H.gone t ht
  old node hnode := by
    obtain hlog | hnew := List.mem_append.mp hnode
    · exact H.old node hlog
    · rw [← List.mem_singleton.mp hnew] at hx
      cases hx
  gone s hs hlog := by
    obtain hlog | hnew := List.mem_append.mp hlog
    · exact H.gone s hs hlog
    · rw [← List.mem_singleton.mp hnew] at hx
      cases hx

theorem Clear.now (H : Clear clock log d) : Clear clock log d.now.2 :=
  H.congr H.wellformed.now rfl rfl

theorem Clear.rearm (H : Clear clock log d) (node : ℕ) :
    Clear clock log (d.now.2.rearm node d.now.1) :=
  H.congr (H.wellformed.now.rearm node _) (map_node_rearm _ _ _) rfl

end steps

/-! ## The pass -/

section pass
variable {clock : ℕ → Int} {log : List Access} {d : EventDispatcher F ω} {p : Program F ω}

/-- The callback of a timer that does not remove it leaves it in the list. -/
theorem mem_timers_call {t : TimerInfo F} (ht : t ∈ d.mTimers) {func : F}
    (hown : .removeTimer t.id ∉ (p func d).1) : t ∈ (p.call func d).mTimers := by
  change t ∈ ((requests F ω).state d (p func d).1).mTimers
  refine (requests F ω).state_induction (fun d => t ∈ d.mTimers) d _ ht ?_
  intro d' r hr ht'
  refine mem_timers_request ht' ?_
  rintro rfl
  exact hown hr

theorem exists_timerAt {t : TimerInfo F} (ht : t ∈ d.mTimers) :
    ∃ t', d.timerAt t.node = some t' :=
  Option.isSome_iff_exists.mp (List.find?_isSome.mpr ⟨t, ht, decide_eq_true rfl⟩)

theorem exists_of_head {ts : List (TimerInfo F)} {n : ℕ}
    (h : ts.head?.map TimerInfo.node = some n) : ∃ t ∈ ts, t.node = n := by
  obtain ⟨t, ht, hn⟩ := Option.map_eq_some_iff.mp h
  exact ⟨t, List.mem_of_head? ht, hn⟩

/-- The loop goes on to an entry of the list as it is. -/
theorem exists_of_nodeAfter {ts : List (TimerInfo F)} {node n : ℕ}
    (h : nodeAfter node ts = some n) : ∃ t ∈ ts, t.node = n := by
  induction ts with
  | nil => cases h
  | cons s ts ih =>
      rw [nodeAfter] at h
      split_ifs at h with hs
      · obtain ⟨t, ht, hn⟩ := exists_of_head h
        exact ⟨t, List.mem_cons_of_mem _ ht, hn⟩
      · obtain ⟨t, ht, hn⟩ := ih h
        exact ⟨t, List.mem_cons_of_mem _ ht, hn⟩

/-- **The loop, when no callback removes its own timer.** From an entry of the list it uses
no entry that is gone. -/
theorem Clear.loop (H : Clear clock log d) {node : Option ℕ}
    (hnode : ∀ n, node = some n → ∃ t ∈ d.mTimers, t.node = n) {fuel : ℕ} (count : ℕ)
    (hown : ∀ v ∈ starts p fuel node d, .removeTimer v.1.id ∉ (p v.1.func v.2).1) :
    Sound (log ++ accesses p fuel node d) ∧
      fireTimers p.call fuel node count d ≠ .error .removedEntry := by
  induction fuel generalizing node count d log with
  | zero =>
      cases node with
      | none => exact ⟨by simpa [accesses] using H.sound, by simp [fireTimers]⟩
      | some node => exact ⟨by simpa [accesses] using H.sound, by simp [fireTimers]⟩
  | succ fuel ih =>
      cases node with
      | none => exact ⟨by simpa [accesses] using H.sound, by simp [fireTimers]⟩
      | some node =>
          obtain ⟨s, hs, rfl⟩ := hnode node rfl
          obtain ⟨timer, hat⟩ := exists_timerAt hs
          obtain ⟨hmem, hid⟩ := mem_of_timerAt hat
          rw [← hid] at hat hown ⊢
          have Hread : Clear clock (log ++ [.touched timer.node]) d := H.use hmem rfl
          rw [starts] at hown
          rw [accesses, fireTimers]
          simp only [hat] at hown ⊢
          split_ifs at hown ⊢ with hdue
          · -- the callback starts, and leaves its own timer in the list
            have Hstart : Clear clock (log ++ [.touched timer.node] ++ [.started timer.node])
                d.now.2 := (Hread.use hmem rfl).now
            have hfirst : .removeTimer timer.id ∉ (p timer.func d.now.2).1 := by
              split at hown
              · exact hown _ List.mem_cons_self
              · exact hown _ List.mem_cons_self
            have hstays : timer ∈ (p.call timer.func d.now.2).mTimers :=
              mem_timers_call (d := d.now.2) hmem hfirst
            obtain ⟨timer', hat'⟩ := exists_timerAt hstays
            simp only [hat'] at hown ⊢
            have Hnext := ((Hstart.call (p := p) timer.func).use hstays
              (x := .touched timer.node) rfl).rearm timer.node
            obtain ⟨hsound, hok⟩ := ih Hnext (fun n hn => exists_of_nodeAfter hn) (count + 1)
              fun v hv => hown v (List.mem_cons_of_mem _ hv)
            exact ⟨by simpa using hsound, hok⟩
          · exact ⟨Hread.sound, by simp⟩

/-- A callback that removes its own timer is followed by a use of its entry. -/
theorem not_removes_own {fuel : ℕ} {node : Option ℕ} (h : Sound (accesses p fuel node d)) :
    ∀ v ∈ starts p fuel node d, .removeTimer v.1.id ∉ (p v.1.func v.2).1 := by
  induction fuel generalizing node d with
  | zero => cases node <;> simp [starts]
  | succ fuel ih =>
      cases node with
      | none => simp [starts]
      | some node =>
          rw [accesses] at h
          rw [starts]
          cases hat : d.timerAt node with
          | none => simp
          | some timer =>
              obtain ⟨hmem, rfl⟩ := mem_of_timerAt hat
              simp only [hat] at h ⊢
              split_ifs at h ⊢ with hdue
              · -- whatever the callback did, the log goes on with its entry
                have hfirst : ∀ rest, Sound (.touched timer.node :: .started timer.node ::
                    callRemovals p timer.func d.now.2 ++ .touched timer.node :: rest) →
                    .removeTimer timer.id ∉ (p timer.func d.now.2).1 := by
                  intro rest hsound hown
                  have hgone : .removed timer.node ∈ callRemovals p timer.func d.now.2 :=
                    removed_mem_visits (d := d.now.2) hmem hown
                  have hbefore : .touched timer.node :: .started timer.node ::
                      callRemovals p timer.func d.now.2 ++ [.touched timer.node] <+:
                      .touched timer.node :: .started timer.node ::
                      callRemovals p timer.func d.now.2 ++ .touched timer.node :: rest :=
                    ⟨rest, by simp⟩
                  exact hsound _ _ timer.node hbefore rfl (.tail _ (.tail _ hgone))
                cases hat' : (p.call timer.func d.now.2).timerAt timer.node with
                | none =>
                    simp only [hat'] at h ⊢
                    intro v hv
                    rw [List.mem_singleton.mp hv]
                    exact hfirst [] h
                | some timer' =>
                    simp only [hat'] at h ⊢
                    intro v hv
                    obtain rfl | hv := List.mem_cons.mp hv
                    · exact hfirst _ h
                    · rw [List.append_cons] at h
                      exact ih h.of_append v hv
              · simp

/-- **What the loop touches.** In one pass over any list of timers, whatever its callbacks
request and however far it gets, no entry is read, written or advanced from, and no callback
started, after the entry was removed, just when no callback that starts in the pass removes
its own timer. -/
theorem pass_sound_iff (p : Program F ω) (H : Wellformed clock d) (fuel : ℕ) :
    (Sound (accesses p fuel (d.mTimers.head?.map TimerInfo.node) d) ∧
        fireTimers p.call fuel (d.mTimers.head?.map TimerInfo.node) 0 d ≠
          .error .removedEntry) ↔
      ∀ v ∈ starts p fuel (d.mTimers.head?.map TimerInfo.node) d,
        .removeTimer v.1.id ∉ (p v.1.func v.2).1 := by
  constructor
  · rintro ⟨hsound, -⟩
    exact not_removes_own hsound
  · intro hown
    exact (clear_nil H).loop (fun n hn => exists_of_head hn) 0 hown

end pass

/-- Callbacks that remove timers by their ids. -/
def removers : Program (List Int32) Unit := fun ids _ => (ids.map .removeTimer, ())

/-- Two timers, of 1 ms and of 2 ms, whose callbacks remove the given ids. -/
def twoTimers (first second : List Int32) : EventDispatcher (List Int32) Unit :=
  (((init ticks ()).addTimer 1 first).1.addTimer 2 second).1

theorem wellformed_twoTimers (first second : List Int32) :
    Wellformed ticks (twoTimers first second) :=
  ((wellformed_init ticks ()).addTimer 1 first).addTimer 2 second

/-- The first timer removes the second one, which the loop then does not come to. -/
theorem pass_sound_other :
    accesses removers 2 (some 0) (twoTimers [2] []) =
        [.touched 0, .started 0, .removed 1, .touched 0] ∧
      ((Sound (accesses removers 2 (some 0) (twoTimers [2] [])) ∧
        fireTimers removers.call 2 (some 0) 0 (twoTimers [2] []) ≠ .error .removedEntry) ↔
      ∀ v ∈ starts removers 2 (some 0) (twoTimers [2] []),
        .removeTimer v.1.id ∉ (removers v.1.func v.2).1) :=
  ⟨by decide, pass_sound_iff removers (wellformed_twoTimers [2] []) 2⟩

/-- The first timer removes itself, and is re-armed where it was. -/
theorem pass_sound_fails :
    Wellformed ticks (twoTimers [1] []) ∧
      accesses removers 2 (some 0) (twoTimers [1] []) =
        [.touched 0, .started 0, .removed 0, .touched 0] ∧
      fireTimers removers.call 2 (some 0) 0 (twoTimers [1] []) = .error .removedEntry ∧
      ¬ Sound (accesses removers 2 (some 0) (twoTimers [1] [])) := by
  have hlog : accesses removers 2 (some 0) (twoTimers [1] []) =
      [.touched 0, .started 0, .removed 0, .touched 0] := by decide
  refine ⟨wellformed_twoTimers [1] [], hlog, rfl, ?_⟩
  rw [hlog]
  intro h
  exact h [.touched 0, .started 0, .removed 0] (.touched 0) 0 (List.prefix_refl _) rfl (by decide)

end DPFlow.EventDispatcher
