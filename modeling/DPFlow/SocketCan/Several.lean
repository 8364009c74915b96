import DPFlow.SocketCan.Scan

/-!
# Several interfaces on one dispatcher

`open` registers the interface's `readSocket` under the number of its socket, and neither `close`
nor the destructor takes it out again. The kernel gives the numbers of closed descriptors to the
next ones that ask. So of the interfaces of a process, which come and go as they like, the first
that connects on a number keeps it for good: those that get the number later are connected, and
neither registered nor watched. What is watched has the right callback all the same: that of the
interface which has the descriptor open.

## Main definitions

* `Interfaces`, `Interfaces.process` — interfaces that share a dispatcher and the descriptors.
* `Interfaces.registered` — the connections of a run that the kernel would watch.
* `Interfaces.Sound` — who has which descriptor, and whose callback is behind those watched.
-/
namespace DPFlow.System

open Lib CanInterface
open CanBus (CanInterfaceInfo)

/-- Interfaces in places of their own, with the dispatcher and the descriptors that they share. -/
structure Interfaces (κ ω : Type) where
  backend : κ → SocketCanBackend
  /-- How many interfaces were at a place before. -/
  generation : κ → ℕ
  app : EventDispatcher (κ × ℕ) ω
  descriptors : Int → Option Descriptor

namespace Interfaces
variable {κ ω : Type}

/-- The interface at a place, and what is around it. -/
def system (p : Interfaces κ ω) (k : κ) : System (κ × ℕ) ω := ⟨p.backend k, p.app, p.descriptors⟩

def socket (p : Interfaces κ ω) (k : κ) : Int := (p.backend k)._socket

/-- The `readSocket` of the interface at a place. -/
def callback (p : Interfaces κ ω) (k : κ) : κ × ℕ := (k, p.generation k)

/-- New interfaces. There may be other descriptors, and the dispatcher may watch some of them. -/
structure New (p : Interfaces κ ω) : Prop where
  interfaces : ∀ k, System.New (p.system k)
  polled : ∀ fd, p.app.interest fd ≠ none → p.descriptors fd ≠ none
  valid : p.descriptors (-1) = none

/-- The interfaces, each at its place, taking calls, scanning, and making room for others. -/
def process [DecidableEq κ] : Mealy (Interfaces κ ω) (κ × ProcessOp) CanInterfaceInfo where
  step p place :=
    let r := (System.process (p.callback place.1)).step (p.system place.1) place.2
    ({ backend := Function.update p.backend place.1 r.1.backend
       generation := Function.update p.generation place.1 (p.generation place.1 + place.2.born)
       app := r.1.app
       descriptors := r.1.descriptors }, r.2)

/-- `socket` hands out descriptors that are not open, to any interface. -/
def Unopened [DecidableEq κ] (p : Interfaces κ ω) (ops : List (κ × ProcessOp)) : Prop :=
  ∀ v ∈ process.visits p ops, ∀ fd, v.2.2.socket = some fd → 0 ≤ fd ∧ v.1.descriptors fd = none

/-- The descriptor and the callback of a connection that the kernel would watch. -/
def registers (v : Interfaces κ ω × κ × ProcessOp) : Option (Int × (κ × ℕ)) :=
  match v.2.2.opens (v.1.system v.2.1) with
  | some (fd, true) => some (fd, v.1.callback v.2.1)
  | _ => none

/-- Those of a run, in order. -/
def registered [DecidableEq κ] (p : Interfaces κ ω) (ops : List (κ × ProcessOp)) :
    List (Int × (κ × ℕ)) :=
  (process.visits p ops).filterMap registers

/-- The callback of the first connection on a descriptor. -/
def firstOn {F : Type} (fd : Int) (connections : List (Int × F)) : Option F :=
  (connections.find? fun c => c.1 = fd).map Prod.snd

/-- What holds of the interfaces after any run from `base`. -/
structure Sound (base p : Interfaces κ ω) : Prop where
  wired : ∀ k, Wired (p.system k)
  apart : ∀ j k, p.socket j = p.socket k → p.socket k ≠ -1 → j = k
  isOpen : ∀ k, p.socket k ≠ -1 → p.descriptors (p.socket k) ≠ none
  theirs : ∀ k, base.descriptors (p.socket k) = none
  polled : ∀ fd, p.app.interest fd ≠ none → p.descriptors fd ≠ none
  watched : ∀ fd, base.descriptors fd = none → p.app.interest fd ≠ none →
    ∃ k, p.socket k = fd ∧ (p.backend k)._state = .connectedState ∧
      p.app.mFiles (fd, .read) = some (p.callback k)
  others : ∀ fd, base.descriptors fd ≠ none → p.descriptors fd ≠ none ∧
    p.app.interest fd = base.app.interest fd ∧
    ∀ op, p.app.mFiles (fd, op) = base.app.mFiles (fd, op)

/-! ## One step -/

theorem update_ne_none {α β : Type} [DecidableEq α] {f : α → Option β} {a b : α} (h : f a ≠ none)
    (x : β) : Function.update f b (some x) a ≠ none := by
  rcases eq_or_ne a b with rfl | hne
  · rw [Function.update_self]
    exact Option.some_ne_none x
  · rw [Function.update_of_ne hne]
    exact h

/-- A descriptor that is not watched is registered if the kernel agrees and nothing is. -/
theorem addFile_free {F : Type} {app : EventDispatcher F ω} {fd : Int} (hfd : 0 ≤ fd)
    (hfree : app.interest fd = none) (func : F) (watch : Bool) :
    (app.addFile fd .read func watch).1 =
      if watch = true ∧ app.mFiles (fd, .read) = none then
        app.setFile fd .read (some func) (some ⟨0x001, fd⟩)
      else app := by
  have hnonneg := not_lt.mpr hfd
  cases hfile : app.mFiles (fd, .read) with
  | some func' => simp [EventDispatcher.addFile, hnonneg, hfile]
  | none =>
      cases watch with
      | true =>
          rw [EventDispatcher.addFile_eq hfd rfl hfile hfree]
          simp
      | false => simp [EventDispatcher.addFile, EventDispatcher.epollAdd, hnonneg, hfile,
          EventDispatcher.FileOperation.epollBit]

/-- A connection is made on the descriptor that `socket` returned. -/
theorem socket_of_opens {F : Type} {s : System F ω} {op : ProcessOp} {fd : Int} {watch : Bool}
    (h : op.opens s = some (fd, watch)) : op.socket = some fd := by
  cases op with
  | availableChannels os => cases h
  | create channel => cases h
  | call call =>
      cases call with
      | disconnect => cases h
      | setConfigOption opt value outcome => cases h
      | connect calls =>
          rw [ProcessOp.opens] at h
          split_ifs at h with hdisc
          rw [OpenCalls.opens] at h
          split at h
          case h_1 fd' hsocket _ _ =>
            cases h
            rw [ProcessOp.socket, hsocket]
            rfl
          case h_2 => cases h

section step
variable {base p p' : Interfaces κ ω} {k : κ}

theorem New.sound (h : New p) : Sound p p := by
  have hsocket : ∀ k, p.socket k = -1 := by
    intro k
    obtain ⟨channel, hb⟩ := h.interfaces k
    change (p.system k).backend._socket = -1
    rw [hb]
    rfl
  refine ⟨fun k => (h.interfaces k).wired, ?_, ?_, ?_, h.polled, ?_, ?_⟩
  · exact fun j k _ hk => absurd (hsocket k) hk
  · exact fun k hk => absurd (hsocket k) hk
  · intro k
    rw [hsocket]
    exact h.valid
  · exact fun fd hfd hwatched => absurd hfd (h.polled fd hwatched)
  · exact fun fd hfd => ⟨hfd, rfl, fun _ => rfl⟩

/-- A step that nobody sees, or that opens a descriptor for a scan. -/
theorem Sound.same (H : Sound base p) (hwired : ∀ j, Wired (p'.system j))
    (hsocket : ∀ j, p'.socket j = p.socket j)
    (hstate : ∀ j, (p'.backend j)._state = (p.backend j)._state)
    (hcallback : ∀ j, p'.callback j = p.callback j) (happ : p'.app = p.app)
    (hopen : ∀ fd, p.descriptors fd ≠ none → p'.descriptors fd ≠ none) : Sound base p' := by
  refine ⟨hwired, ?_, ?_, ?_, ?_, ?_, ?_⟩
  · intro i j
    rw [hsocket, hsocket]
    exact H.apart i j
  · intro j
    rw [hsocket]
    exact fun hj => hopen _ (H.isOpen j hj)
  · intro j
    rw [hsocket]
    exact H.theirs j
  · intro fd
    rw [happ]
    exact fun hfd => hopen fd (H.polled fd hfd)
  · intro fd hfd
    rw [happ]
    intro hwatched
    obtain ⟨j, hj, hconn, hfile⟩ := H.watched fd hfd hwatched
    exact ⟨j, (hsocket j).trans hj, (hstate j).trans hconn, by rw [hcallback]; exact hfile⟩
  · intro fd hfd
    rw [happ]
    exact ⟨hopen fd (H.others fd hfd).1, (H.others fd hfd).2⟩

/-- A step in which an interface closes what it has. -/
theorem Sound.closed (H : Sound base p) (hbase : base.descriptors (-1) = none)
    (hwired : ∀ j, Wired (p'.system j)) (hsocket : p'.socket k = -1)
    (hothers : ∀ j, j ≠ k → p'.backend j = p.backend j ∧ p'.callback j = p.callback j)
    (happ : p'.app = p.app.descriptorClosed (p.socket k))
    (hdescriptors : p'.descriptors = Function.update p.descriptors (p.socket k) none) :
    Sound base p' := by
  have hkept : ∀ j, j ≠ k → p'.socket j = p.socket j := fun j hj => by
    rw [socket, (hothers j hj).1, socket]
  have hinterest : ∀ fd, p'.app.interest fd =
      Function.update p.app.interest (p.socket k) none fd := fun fd => by
    rw [happ]
    rfl
  have hfiles : p'.app.mFiles = p.app.mFiles := by
    rw [happ]
    rfl
  refine ⟨hwired, ?_, ?_, ?_, ?_, ?_, ?_⟩
  · intro i j hij hj
    by_cases hjk : j = k
    · exact absurd (hjk ▸ hsocket) hj
    · rw [hkept j hjk] at hij hj
      by_cases hik : i = k
      · rw [hik, hsocket] at hij
        exact absurd hij.symm hj
      · rw [hkept i hik] at hij
        exact H.apart i j hij hj
  · intro j hj
    by_cases hjk : j = k
    · exact absurd (hjk ▸ hsocket) hj
    · rw [hkept j hjk] at hj ⊢
      rw [hdescriptors, Function.update_of_ne fun h => hjk (H.apart k j h.symm hj).symm]
      exact H.isOpen j hj
  · intro j
    by_cases hjk : j = k
    · rw [hjk, hsocket]
      exact hbase
    · rw [hkept j hjk]
      exact H.theirs j
  · intro fd
    rw [hinterest, hdescriptors]
    rcases eq_or_ne fd (p.socket k) with rfl | hne
    · rw [Function.update_self]
      exact fun h => absurd rfl h
    · rw [Function.update_of_ne hne, Function.update_of_ne hne]
      exact H.polled fd
  · intro fd hfd
    rw [hinterest, hfiles]
    rcases eq_or_ne fd (p.socket k) with rfl | hne
    · rw [Function.update_self]
      exact fun h => absurd rfl h
    · rw [Function.update_of_ne hne]
      intro hwatched
      obtain ⟨j, rfl, hconn, hfile⟩ := H.watched fd hfd hwatched
      have hjk : j ≠ k := fun h => hne (by rw [h])
      refine ⟨j, hkept j hjk, ?_, ?_⟩
      · rw [(hothers j hjk).1]
        exact hconn
      · rw [(hothers j hjk).2]
        exact hfile
  · intro fd hfd
    have hne : fd ≠ p.socket k := fun h => hfd (h ▸ H.theirs k)
    rw [hinterest, hfiles, hdescriptors, Function.update_of_ne hne, Function.update_of_ne hne]
    exact H.others fd hfd

/-- A step in which an interface opens a descriptor, and has it watched or not. -/
theorem Sound.opened (H : Sound base p) (hwired : ∀ j, Wired (p'.system j)) {fd : Int}
    (hfd : 0 ≤ fd) (hunused : p.descriptors fd = none) (hbefore : p.socket k = -1)
    (hsocket : p'.socket k = fd) (hcallback : p'.callback k = p.callback k)
    (hothers : ∀ j, j ≠ k → p'.backend j = p.backend j ∧ p'.callback j = p.callback j)
    (happ : p'.app = p.app ∨ (p'.backend k)._state = .connectedState ∧
      p'.app = p.app.setFile fd .read (some (p.callback k)) (some ⟨0x001, fd⟩))
    (hdescriptors : p'.descriptors = Function.update p.descriptors fd (some (.canRaw {}))) :
    Sound base p' := by
  have hkept : ∀ j, j ≠ k → p'.socket j = p.socket j := fun j hj => by
    rw [socket, (hothers j hj).1, socket]
  have hopen : ∀ fd', p.descriptors fd' ≠ none → p'.descriptors fd' ≠ none := fun fd' h => by
    rw [hdescriptors]
    exact update_ne_none h _
  have htheirs : base.descriptors fd = none :=
    not_not.mp fun h => (H.others fd h).1 hunused
  -- nothing is on another descriptor that was not there before
  have helse : ∀ fd', fd' ≠ fd → p'.app.interest fd' = p.app.interest fd' ∧
      ∀ op, p'.app.mFiles (fd', op) = p.app.mFiles (fd', op) := by
    intro fd' hne
    rcases happ with happ | ⟨-, happ⟩
    · rw [happ]
      exact ⟨rfl, fun _ => rfl⟩
    · rw [happ, EventDispatcher.setFile_interest, EventDispatcher.setFile_mFiles,
        Function.update_of_ne hne]
      exact ⟨rfl, fun op => Function.update_of_ne (fun h => hne (Prod.mk.inj h).1) _ _⟩
  have hnew : ∀ j, j ≠ k → p.socket j ≠ fd := fun j _ h => by
    have hj : p.socket j ≠ -1 := by omega
    exact H.isOpen j hj (h ▸ hunused)
  refine ⟨hwired, ?_, ?_, ?_, ?_, ?_, ?_⟩
  · intro i j hij hj
    by_cases hik : i = k
    · by_cases hjk : j = k
      · exact hik.trans hjk.symm
      · rw [hik, hsocket, hkept j hjk] at hij
        exact absurd hij.symm (hnew j hjk)
    · rw [hkept i hik] at hij
      by_cases hjk : j = k
      · rw [hjk, hsocket] at hij
        exact absurd hij (hnew i hik)
      · rw [hkept j hjk] at hij hj
        exact H.apart i j hij hj
  · intro j hj
    by_cases hjk : j = k
    · rw [hjk, hsocket, hdescriptors, Function.update_self]
      exact Option.some_ne_none _
    · rw [hkept j hjk] at hj ⊢
      exact hopen _ (H.isOpen j hj)
  · intro j
    by_cases hjk : j = k
    · rw [hjk, hsocket]
      exact htheirs
    · rw [hkept j hjk]
      exact H.theirs j
  · intro fd' hwatched
    rcases eq_or_ne fd' fd with rfl | hne
    · rw [hdescriptors, Function.update_self]
      exact Option.some_ne_none _
    · rw [(helse fd' hne).1] at hwatched
      exact hopen fd' (H.polled fd' hwatched)
  · intro fd' hfd' hwatched
    rcases eq_or_ne fd' fd with rfl | hne
    · rcases happ with happ | ⟨hconn, happ⟩
      · rw [happ] at hwatched
        exact absurd hunused (H.polled fd' hwatched)
      · refine ⟨k, hsocket, hconn, ?_⟩
        rw [happ, EventDispatcher.setFile_mFiles, Function.update_self, hcallback]
    · rw [(helse fd' hne).1] at hwatched
      obtain ⟨j, rfl, hconn, hfile⟩ := H.watched fd' hfd' hwatched
      have hjk : j ≠ k := by
        rintro rfl
        have hvalid : 0 ≤ p.socket j := (H.wired j).socket hconn
        omega
      refine ⟨j, hkept j hjk, ?_, ?_⟩
      · rw [(hothers j hjk).1]
        exact hconn
      · rw [(helse _ hne).2, (hothers j hjk).2]
        exact hfile
  · intro fd' hfd'
    have hne : fd' ≠ fd := fun h => hfd' (h ▸ htheirs)
    obtain ⟨hdesc, hinterest, hfiles⟩ := H.others fd' hfd'
    refine ⟨hopen fd' hdesc, (helse fd' hne).1.trans hinterest, ?_⟩
    exact fun op => ((helse fd' hne).2 op).trans (hfiles op)

end step

/-! ## Runs -/

theorem firstOn_append {F : Type} (fd : Int) (connections more : List (Int × F)) :
    firstOn fd (connections ++ more) = (firstOn fd connections).or (firstOn fd more) := by
  rw [firstOn, List.find?_append, Option.map_or]
  rfl

theorem firstOn_eq_none_iff {F : Type} {fd : Int} {connections : List (Int × F)} :
    firstOn fd connections = none ↔ fd ∉ connections.map Prod.fst := by
  rw [firstOn, Option.map_eq_none_iff, List.find?_eq_none]
  constructor
  · intro hnone hmem
    obtain ⟨c, hc, hfd⟩ := List.mem_map.mp hmem
    exact hnone c hc (decide_eq_true hfd)
  · intro hnot c hc hfd
    exact hnot (List.mem_map.mpr ⟨c, hc, of_decide_eq_true hfd⟩)

section runs
variable [DecidableEq κ] {base p : Interfaces κ ω} {k : κ} {op : ProcessOp}

theorem process_system (p : Interfaces κ ω) (k : κ) (op : ProcessOp) :
    (process.step p (k, op)).1.system k =
      ((System.process (p.callback k)).step (p.system k) op).1 := by
  simp only [process, system, Function.update_self]

/-- A step leaves the interfaces at the other places alone. -/
theorem process_others (p : Interfaces κ ω) (op : ProcessOp) {j : κ} (hj : j ≠ k) :
    (process.step p (k, op)).1.backend j = p.backend j ∧
      (process.step p (k, op)).1.callback j = p.callback j := by
  simp only [process, callback, Function.update_of_ne hj]
  exact ⟨trivial, trivial⟩

theorem process_callback (p : Interfaces κ ω) (k : κ) (hborn : op.born = 0) :
    (process.step p (k, op)).1.callback k = p.callback k := by
  simp only [process, callback, Function.update_self, hborn, Nat.add_zero]

theorem Sound.effect (H : Sound base p) (k : κ) (op : ProcessOp) :
    Effect (p.callback k) (p.system k) op ((process.step p (k, op)).1.system k) := by
  rw [process_system]
  exact process_effect (H.wired k) (p.callback k) op

/-- A connection registers its socket, unless something is registered there. -/
theorem Sound.step_app (H : Sound base p)
    (hunopened : ∀ fd, op.socket = some fd → 0 ≤ fd ∧ p.descriptors fd = none) {fd : Int}
    {watch : Bool} (hopens : op.opens (p.system k) = some (fd, watch)) :
    (process.step p (k, op)).1.app =
      if watch = true ∧ p.app.mFiles (fd, .read) = none then
        p.app.setFile fd .read (some (p.callback k)) (some ⟨0x001, fd⟩)
      else p.app := by
  obtain ⟨hfd, hunused⟩ := hunopened fd (socket_of_opens hopens)
  have hfree : p.app.interest fd = none := not_not.mp fun h => H.polled fd h hunused
  have hnever : op.opens (p.system k) ≠ none := by
    rw [hopens]
    exact Option.some_ne_none _
  cases H.effect k op with
  | quiet leak born opens => exact absurd opens hnever
  | scanned fd' leak asked born opens => exact absurd opens hnever
  | closed leak opens => exact absurd opens hnever
  | opened fd' leak asked born before socket state app descriptors =>
      rw [hopens] at app
      exact app.trans (addFile_free hfd hfree (p.callback k) watch)

/-- Any other step leaves `m_files` as it is. -/
theorem Sound.step_mFiles (H : Sound base p) (hopens : op.opens (p.system k) = none) :
    (process.step p (k, op)).1.app.mFiles = p.app.mFiles := by
  cases H.effect k op with
  | quiet leak born opens socket state app => exact congrArg EventDispatcher.mFiles app
  | scanned fd leak asked born opens backend app => exact congrArg EventDispatcher.mFiles app
  | closed leak opens socket app =>
      have hfiles := congrArg EventDispatcher.mFiles app
      exact hfiles
  | opened fd leak asked born before socket state app descriptors =>
      rw [hopens] at app
      exact congrArg EventDispatcher.mFiles app

/-- **A step** keeps it. -/
theorem Sound.step (H : Sound base p) (hbase : base.descriptors (-1) = none) {k : κ}
    {op : ProcessOp} (hunopened : ∀ fd, op.socket = some fd → 0 ≤ fd ∧ p.descriptors fd = none) :
    Sound base (process.step p (k, op)).1 := by
  have hothers := fun j (hj : j ≠ k) => process_others p op hj
  have hwired : ∀ j, Wired ((process.step p (k, op)).1.system j) := by
    intro j
    by_cases hjk : j = k
    · rw [hjk, process_system]
      exact (H.wired k).process_step _ fun fd hfd => (hunopened fd hfd).1
    · exact (H.wired j).congr (hothers j hjk).1
  have hsame : op.born = 0 → ∀ j, (process.step p (k, op)).1.callback j = p.callback j := by
    intro hborn j
    by_cases hjk : j = k
    · rw [hjk, process_callback p k hborn]
    · exact (hothers j hjk).2
  cases H.effect k op with
  | quiet leak born opens socket state app isOpen =>
      refine H.same hwired ?_ ?_ (hsame born) app fun fd => (isOpen fd).mpr
      · intro j
        by_cases hjk : j = k
        · exact hjk ▸ socket
        · exact congrArg SocketCanBackend._socket (hothers j hjk).1
      · intro j
        by_cases hjk : j = k
        · exact hjk ▸ state
        · exact congrArg (fun b => b._state) (hothers j hjk).1
  | scanned fd leak asked born opens backend app descriptors =>
      have hbackend : ∀ j, (process.step p (k, op)).1.backend j = p.backend j := by
        intro j
        by_cases hjk : j = k
        · exact hjk ▸ backend
        · exact (hothers j hjk).1
      refine H.same hwired ?_ ?_ (hsame born) app ?_
      · exact fun j => congrArg SocketCanBackend._socket (hbackend j)
      · exact fun j => congrArg (fun b => b._state) (hbackend j)
      · intro fd' hfd'
        change ((process.step p (k, op)).1.system k).descriptors fd' ≠ none
        rw [descriptors]
        exact update_ne_none hfd' _
  | opened fd leak asked born before socket state app descriptors =>
      obtain ⟨hfd, hunused⟩ := hunopened fd asked
      refine H.opened hwired hfd hunused before socket (hsame born k) hothers ?_ descriptors
      cases hopens : op.opens (p.system k) with
      | none =>
          rw [hopens] at app
          exact .inl app
      | some connection =>
          obtain ⟨fd', watch⟩ := connection
          have hsame : fd' = fd := Option.some.inj ((socket_of_opens hopens).symm.trans asked)
          rw [H.step_app hunopened hopens, hsame]
          split_ifs
          · exact .inr ⟨state (by rw [hopens]; exact Option.some_ne_none _), rfl⟩
          · exact .inl rfl
  | closed leak opens socket app descriptors =>
      exact H.closed hbase hwired socket hothers app descriptors

/-- One step adds its connection to the table, if there is none for the descriptor. -/
theorem Sound.step_files (H : Sound base p)
    (hunopened : ∀ fd, op.socket = some fd → 0 ≤ fd ∧ p.descriptors fd = none) (fd : Int) :
    (process.step p (k, op)).1.app.mFiles (fd, .read) =
      (p.app.mFiles (fd, .read)).or (firstOn fd (registers (p, k, op)).toList) := by
  cases hopens : op.opens (p.system k) with
  | none =>
      rw [H.step_mFiles hopens, registers, hopens]
      exact Option.or_none.symm
  | some connection =>
      obtain ⟨fd', watch⟩ := connection
      rw [H.step_app hunopened hopens, registers, hopens]
      cases watch with
      | false =>
          rw [if_neg fun h => Bool.false_ne_true h.1]
          exact Option.or_none.symm
      | true =>
          have hfirst : firstOn fd [(fd', p.callback k)] =
              if fd' = fd then some (p.callback k) else none := by
            by_cases hsame : fd' = fd <;> simp [firstOn, hsame]
          change _ = (p.app.mFiles (fd, .read)).or (firstOn fd [(fd', p.callback k)])
          rw [hfirst]
          by_cases hsame : fd' = fd
          · subst hsame
            rw [if_pos rfl]
            cases hfile : p.app.mFiles (fd', .read) with
            | none =>
                rw [if_pos ⟨rfl, rfl⟩, EventDispatcher.setFile_mFiles, Function.update_self]
                rfl
            | some func =>
                rw [if_neg fun h => Option.some_ne_none _ h.2]
                exact hfile
          · have hkey : (fd, EventDispatcher.FileOperation.read) ≠ (fd', .read) :=
              fun h => hsame (Prod.mk.inj h).1.symm
            rw [if_neg hsame, Option.or_none]
            split_ifs
            · rw [EventDispatcher.setFile_mFiles, Function.update_of_ne hkey]
            · rfl

/-- The table after a run. -/
theorem Sound.run (H : Sound base p) (hbase : base.descriptors (-1) = none)
    {ops : List (κ × ProcessOp)} (hops : Unopened p ops) :
    Sound base (process.state p ops) ∧ ∀ fd, (process.state p ops).app.mFiles (fd, .read) =
      (p.app.mFiles (fd, .read)).or (firstOn fd (registered p ops)) := by
  induction ops generalizing p with
  | nil => exact ⟨H, fun fd => Option.or_none.symm⟩
  | cons op ops ih =>
      have hop := hops (p, op) List.mem_cons_self
      obtain ⟨H', hlater⟩ := ih (H.step hbase hop) fun v hv => hops v (List.mem_cons_of_mem _ hv)
      refine ⟨H', fun fd => ?_⟩
      have hregistered : registered p (op :: ops) = (registers (p, op)).toList ++
          registered (process.step p op).1 ops := by
        rw [registered, Mealy.visits_cons, List.filterMap_cons]
        cases registers (p, op) <;> rfl
      rw [hregistered, firstOn_append, ← Option.or_assoc, ← H.step_files hop]
      exact hlater fd

/-- Part of a run is one, too. -/
theorem Unopened.mono {pre ops : List (κ × ProcessOp)} (hops : Unopened p ops)
    (hpre : pre <+: ops) : Unopened p pre := by
  intro v hv
  obtain ⟨pre', hpre', hv1⟩ := process.mem_visits_iff.mp hv
  exact hops v (process.mem_visits_iff.mpr ⟨pre', hpre'.trans hpre, hv1⟩)

end runs

/-- **Whose callback the dispatcher holds.** Interfaces come and go, and connect and disconnect as
they like; the kernel only hands out descriptors that are not open. Then `m_files` has for each
descriptor what was there before, or else, for ever, the interface whose connection on it was the
first that the kernel agreed to watch, whether that is still there or not. A connection is watched
just when the kernel agrees and nothing was registered on its descriptor before. -/
theorem files_state [DecidableEq κ] {p : Interfaces κ ω} (h : New p)
    {ops : List (κ × ProcessOp)} (hops : Unopened p ops) :
    (∀ fd, (process.state p ops).app.mFiles (fd, .read) =
      (p.app.mFiles (fd, .read)).or (firstOn fd (registered p ops))) ∧
    ∀ pre k op, pre ++ [(k, op)] <+: ops → ∀ fd watch,
      op.opens ((process.state p pre).system k) = some (fd, watch) →
      ((process.state p (pre ++ [(k, op)])).app.interest fd ≠ none ↔
        watch = true ∧ p.app.mFiles (fd, .read) = none ∧
          fd ∉ (registered p pre).map Prod.fst) := by
  refine ⟨(h.sound.run h.valid hops).2, ?_⟩
  intro pre k op hpre fd watch hopens
  have hsub : Unopened p (pre ++ [(k, op)]) := hops.mono hpre
  obtain ⟨H, hfiles⟩ := h.sound.run h.valid (hsub.mono (List.prefix_append pre [(k, op)]))
  have hlast := hsub (process.state p pre, k, op)
    (process.mem_visits_iff.mpr ⟨pre, List.prefix_rfl, rfl⟩)
  have hfree : (process.state p pre).app.interest fd = none :=
    not_not.mp fun hwatched => H.polled fd hwatched (hlast fd (socket_of_opens hopens)).2
  have hnone : (process.state p pre).app.mFiles (fd, .read) = none ↔
      p.app.mFiles (fd, .read) = none ∧ fd ∉ (registered p pre).map Prod.fst := by
    rw [hfiles fd, Option.or_eq_none_iff, firstOn_eq_none_iff]
  rw [Mealy.state_append, Mealy.state_cons, Mealy.state_nil, H.step_app hlast hopens, ← hnone]
  split_ifs with hregisters
  · rw [EventDispatcher.setFile_interest, Function.update_self]
    exact iff_of_true (Option.some_ne_none _) hregisters
  · exact iff_of_false (fun hwatched => hwatched hfree) hregisters

/-- Two interfaces at once, the second replaced by another one; then the first gets the descriptor
that the second had. -/
def secondToFirst : List (Fin 2 × ProcessOp) :=
  [(0, .call (.connect (granted 5))), (1, .call (.connect (granted 6))), (1, .create "can2"),
    (0, .call .disconnect), (0, .call (.connect (granted 6)))]

/-- Two interfaces on a machine with one other descriptor. -/
def two : Interfaces (Fin 2) Unit where
  backend k := SocketCanBackend.init (if k = 0 then "can0" else "can1")
  generation _ := 0
  app := EventDispatcher.init (fun _ => 0) ()
  descriptors := Function.update (fun _ => none) 3 (some .other)

theorem new_two : New two where
  interfaces k := ⟨_, rfl⟩
  polled fd h := absurd rfl h
  valid := by decide

theorem unopened_secondToFirst : Unopened two secondToFirst := by
  intro v hv fd hfd
  simp only [secondToFirst, Mealy.visits_cons, Mealy.visits_nil, List.mem_cons, List.not_mem_nil,
    or_false] at hv
  rcases hv with rfl | rfl | rfl | rfl | rfl
  · cases hfd
    exact ⟨by decide, by decide⟩
  · cases hfd
    exact ⟨by decide, by decide⟩
  · cases hfd
  · cases hfd
  · cases hfd
    exact ⟨by decide, by decide⟩

theorem files_state_secondToFirst :
    (∀ fd, (process.state two secondToFirst).app.mFiles (fd, .read) =
      (two.app.mFiles (fd, .read)).or (firstOn fd (registered two secondToFirst))) ∧
    ∀ pre k op, pre ++ [(k, op)] <+: secondToFirst → ∀ fd watch,
      op.opens ((process.state two pre).system k) = some (fd, watch) →
      ((process.state two (pre ++ [(k, op)])).app.interest fd ≠ none ↔
        watch = true ∧ two.app.mFiles (fd, .read) = none ∧
          fd ∉ (registered two pre).map Prod.fst) :=
  files_state new_two unopened_secondToFirst

/-- The first interface is connected. The dispatcher holds the callback of the second, which is
gone, and watches nothing. -/
example : let q := process.state two secondToFirst
    (q.backend 0)._state = .connectedState ∧ q.socket 0 = 6 ∧ q.generation 1 = 1 ∧
      q.app.mFiles (6, .read) = some (1, 0) ∧ q.app.interest 6 = none := by
  decide

/-- **What is watched has the right callback.** Whatever the interfaces do, a descriptor of theirs
that the kernel watches is that of one interface, which is there and connected, and the entry of
`m_files` for it is this interface's `readSocket`, never that of one that is gone or closed. No
interface has the descriptor of another one, or closes it, and what the process had open, and had
watched, before there were any is as it was. -/
theorem watched_state [DecidableEq κ] {p : Interfaces κ ω} (h : New p)
    {ops : List (κ × ProcessOp)} (hops : Unopened p ops) :
    let q := process.state p ops
    (∀ fd, p.descriptors fd = none → q.app.interest fd ≠ none →
      ∃! k, q.socket k = fd ∧ (q.backend k)._state = .connectedState ∧
        q.app.mFiles (fd, .read) = some (q.callback k)) ∧
    (∀ j k, q.socket j = q.socket k → q.socket k ≠ -1 → j = k) ∧
    (∀ k, q.socket k ≠ -1 →
      p.descriptors (q.socket k) = none ∧ q.descriptors (q.socket k) ≠ none) ∧
    ∀ fd, p.descriptors fd ≠ none → q.descriptors fd ≠ none ∧
      q.app.interest fd = p.app.interest fd ∧
      ∀ op, q.app.mFiles (fd, op) = p.app.mFiles (fd, op) := by
  intro q
  have H : Sound p q := (h.sound.run h.valid hops).1
  refine ⟨?_, H.apart, fun k hk => ⟨H.theirs k, H.isOpen k hk⟩, H.others⟩
  intro fd hfd hwatched
  obtain ⟨k, hk, hconn, hfile⟩ := H.watched fd hfd hwatched
  refine ⟨k, ⟨hk, hconn, hfile⟩, ?_⟩
  rintro j ⟨-, -, hfile'⟩
  exact congrArg Prod.fst (Option.some.inj (hfile'.symm.trans hfile))

theorem watched_state_secondToFirst :
    let q := process.state two secondToFirst
    (∀ fd, two.descriptors fd = none → q.app.interest fd ≠ none →
      ∃! k, q.socket k = fd ∧ (q.backend k)._state = .connectedState ∧
        q.app.mFiles (fd, .read) = some (q.callback k)) ∧
    (∀ j k, q.socket j = q.socket k → q.socket k ≠ -1 → j = k) ∧
    (∀ k, q.socket k ≠ -1 →
      two.descriptors (q.socket k) = none ∧ q.descriptors (q.socket k) ≠ none) ∧
    ∀ fd, two.descriptors fd ≠ none → q.descriptors fd ≠ none ∧
      q.app.interest fd = two.app.interest fd ∧
      ∀ op, q.app.mFiles (fd, op) = two.app.mFiles (fd, op) :=
  watched_state new_two unopened_secondToFirst

end Interfaces
end DPFlow.System
