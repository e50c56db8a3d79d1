import LinuxWinsock.Events.Mapping

namespace LinuxWinsock

open Kernel TransitionSystem

/-!
# Closing an event that a monitor may still signal

A client may close an event once every socket it was associated with is closed or is
associated with another event or none.  Nothing in the library waits for the monitor
threads, so a monitor that `epoll_wait` has given a batch before may still signal it.

* `associated_of_watched` — what a mapping's `epoll` instance watches is associated with the
  mapping's event: a monitor wakes up only for sockets that keep their event from being
  closed;
* `monitor_signals_live` — so if events are closed only while no monitor is between its
  batch and its last signal for that event, no monitor ever signals an event that is
  closed;
* `monitor_signals_closed` — and without that, one can.
-/

variable {w w' : World} {l : Label} {tr : Trace}

/-- The event the socket `s` is associated with: the one of its last registration, if `s`
    has not been closed since. -/
def associated (s : SOCKET) : Trace → WSAEVENT
  | [] => none
  | (w, l) :: tr =>
    match registers w l with
    | some (s', h, _) => if s' = s then h else associated s tr
    | none => if closes w l = some s then none else associated s tr

/-- The clients close an event only when no socket is associated with it. -/
def ClosesDissociated (tr : Trace) (_ : World) : Label → Prop
  | .closeEvent (some e) => ∀ s, associated s tr ≠ some e
  | _ => True

/-- The thread has entries of a batch left to look at. -/
def MonitorPc.busy : MonitorPc → Bool
  | .batch (_ :: _) => true
  | .checked _ _ => true
  | .call _ _ (_ :: _) => true
  | _ => false

/-- Some monitor is about to signal `e`, or will find `e` in its mapping for an entry of the
    batch it has. -/
def InFlight (w : World) (e : Addr) : Prop :=
  ∃ p pc, w.monitor p = some pc ∧
    ((∃ rev left, pc = .call (some e) rev left) ∨
      (pc.busy = true ∧ ∃ m, w.maps.cell p = some m ∧ m.event = some e))

/-- An event is closed only while no monitor is in flight with it, and no closed event is
    given to `WSAEventSelect`. -/
def NoneInFlight (w : World) : Label → Prop
  | .closeEvent (some e) => ¬ InFlight w e
  | .eventSelect _ _ (some e) _ => w.events.cell e ≠ none
  | _ => True

/-- A monitor that is calling `WSASetEvent` calls it on an event that is allocated. -/
def SignalsLive (w : World) : Prop :=
  ∀ p e rev left, w.monitor p = some (.call (some e) rev left) → w.events.cell e ≠ none

/-! ### What is watched is associated -/

theorem associated_of_registers {s : SOCKET} {h : WSAEVENT} {mask : BitVec 64}
    (hreg : registers w l = some (s, h, mask)) (s' : SOCKET) :
    associated s' ((w, l) :: tr) = if s = s' then h else associated s' tr := by
  simp only [associated, hreg]

theorem associated_of_closes {c : Option Fd} (hreg : registers w l = none)
    (hcl : closes w l = c) (s : SOCKET) :
    associated s ((w, l) :: tr) = if c = some s then none else associated s tr := by
  simp only [associated, hreg, hcl]

/-- A socket that is associated with an event was registered. -/
theorem registers_of_associated {s : SOCKET} (h : associated s tr ≠ none) :
    ∃ e ∈ tr, ∃ r, registers e.1 e.2 = some (s, r) := by
  induction tr with
  | nil => exact absurd rfl h
  | cons e tr ih =>
    obtain ⟨w, l⟩ := e
    cases hreg : registers w l with
    | none =>
      rw [associated_of_closes hreg rfl] at h
      split at h
      · exact absurd rfl h
      · obtain ⟨e, he, r, hr⟩ := ih h
        exact ⟨e, List.mem_cons_of_mem _ he, r, hr⟩
    | some r =>
      obtain ⟨s', r⟩ := r
      rw [associated_of_registers hreg] at h
      by_cases hs : s' = s
      · exact ⟨(w, l), List.mem_cons_self, r, by rw [hreg, hs]⟩
      · rw [if_neg hs] at h
        obtain ⟨e, he, r, hr⟩ := ih h
        exact ⟨e, List.mem_cons_of_mem _ he, r, hr⟩

/-- Every socket that its mapping's `epoll` instance watches is associated with the event
    of the mapping. -/
def WatchedAssociated (tr : Trace) (w : World) : Prop :=
  ∀ p m, w.maps.cell p = some m → w.kernel.interest m.epollFd m.sock ≠ none →
    associated m.sock tr = m.event

/-- A step that leaves the mappings alone: interest is lost only, and for all that the step
    closes. -/
theorem interest_of_effect (he : Effect w l w') (hreg : registers w l = none) :
    Frame w l w' ∧
      (∀ e f, w'.kernel.interest e f ≠ none → w.kernel.interest e f ≠ none ∧
        closes w l ≠ some f) := by
  cases hcl : closes w l with
  | none =>
    obtain ⟨frame, hint⟩ := interest_of_frame he hcl hreg
    exact ⟨frame, fun e f h => ⟨by rwa [hint] at h, nofun⟩⟩
  | some fd =>
    have hclosed : w'.kernel = w.kernel.close fd → ∀ e f, w'.kernel.interest e f ≠ none →
        w.kernel.interest e f ≠ none ∧ some fd ≠ some f := by
      intro hkernel e f h
      rw [hkernel, close_interest] at h
      split at h
      · exact absurd rfl h
      · rename_i hne
        exact ⟨h, fun heq => hne (.inr (Option.some.inj heq).symm)⟩
    cases he with
    | eventClosed _ _ marks frame _ _ kernel =>
      obtain rfl := Option.some.inj (marks.closes.symm.trans hcl)
      exact ⟨frame, hclosed kernel⟩
    | socketClosed _ marks frame _ kernel =>
      obtain rfl := Option.some.inj (marks.closes.symm.trans hcl)
      exact ⟨frame, hclosed kernel⟩
    -- the other effects close nothing
    | quiet marks => rw [marks.closes] at hcl; cases hcl
    | signalled _ _ _ marks => rw [marks.closes] at hcl; cases hcl
    | eventCreated _ _ marks => rw [marks.closes] at hcl; cases hcl
    | socketOpened _ _ marks => rw [marks.closes] at hcl; cases hcl
    | updated _ _ _ _ _ marks => rw [marks.closes] at hcl; cases hcl
    | created _ _ _ _ _ marks => rw [marks.closes] at hcl; cases hcl

theorem WatchedAssociated.step (h : WatchedAssociated tr w) (hi : Inv w) (he : Effect w l w') :
    WatchedAssociated ((w, l) :: tr) w' := by
  cases hreg : registers w l with
  | none =>
    obtain ⟨frame, hint⟩ := interest_of_effect he hreg
    intro p m hm hwatch
    rw [frame.maps] at hm
    obtain ⟨hbefore, hcl⟩ := hint _ _ hwatch
    rw [associated_of_closes hreg rfl, if_neg hcl]
    exact h p m hm hbefore
  | some r =>
    obtain ⟨s, hEvent, mask⟩ := r
    obtain ⟨L, hL⟩ := hi.maps
    cases he.registration hreg with
    | updated p m live sock kernel _ maps =>
      intro q n hn hwatch
      rw [associated_of_registers hreg]
      rw [kernel] at hwatch
      rw [maps] at hn
      rcases Heap.cell_of_put hn with ⟨rfl, rfl⟩ | ⟨hqp, hn⟩
      · exact if_pos sock.symm
      · -- the socket has one record only, so the call was for another socket
        have hs : s ≠ n.sock := fun heq => hqp (hL.socks q p n m hn live (by rw [← heq, sock]))
        rw [if_neg hs]
        exact h q n hn hwatch
    | created map epollFd unmapped created =>
      intro q n hn hwatch
      rw [associated_of_registers hreg]
      rw [created.interest] at hwatch
      rw [created.maps] at hn
      rcases Heap.cell_of_put hn with ⟨rfl, rfl⟩ | ⟨_, hn⟩
      · exact if_pos rfl
      · rw [if_neg (hL.epollFd_ne created hn)] at hwatch
        rw [if_neg (fun heq => unmapped q n hn heq.symm)]
        exact h q n hn hwatch

/-- In every reachable state, what a mapping's `epoll` instance watches is associated with
    the mapping's event. -/
theorem associated_of_watched (h : system.Run tr w) : WatchedAssociated tr w := by
  refine h.invariant (P := WatchedAssociated) ?_ ?_
  · intro s hs p m hm
    obtain rfl : s = World.start := hs
    cases hm
  · intro tr s l t hrun ih hstep
    obtain ⟨hi, he⟩ := effect_of_run hrun hstep
    exact ih.step hi he

/-! ### Events that a monitor can reach -/

/-- The event of a mapping is allocated as long as the mapping's `epoll` instance watches
    its socket or its monitor is busy with a batch, and so is an event being signalled. -/
structure EventsLive (w : World) : Prop where
  reachable : ∀ p m e, w.maps.cell p = some m → m.event = some e →
    (w.kernel.interest m.epollFd m.sock ≠ none ∨
      ∃ pc, w.monitor p = some pc ∧ pc.busy = true) → w.events.cell e ≠ none
  signalled : SignalsLive w

/-- A step that leaves the mappings and the monitors alone, watches nothing more and frees no
    event. -/
theorem EventsLive.of_frame (h : EventsLive w) (hmaps : w'.maps = w.maps)
    (hmon : w'.monitor = w.monitor)
    (hint : ∀ e f, w'.kernel.interest e f ≠ none → w.kernel.interest e f ≠ none)
    (hev : ∀ e, w.events.cell e ≠ none → w'.events.cell e ≠ none) : EventsLive w' where
  reachable p m e hm hme hor := by
    rw [hmaps] at hm
    rw [hmon] at hor
    refine hev e (h.reachable p m e hm hme ?_)
    rcases hor with hwatch | hbusy
    · exact .inl (hint _ _ hwatch)
    · exact .inr hbusy
  signalled p e rev left hp := by
    rw [hmon] at hp
    exact hev e (h.signalled p e rev left hp)

/-- A monitor moves to `pc`, where the event it can reach is allocated. -/
theorem EventsLive.setMonitor (h : EventsLive w) {p : Addr} {pc : MonitorPc}
    (hbusy : pc.busy = true → ∀ m e, w.maps.cell p = some m → m.event = some e →
      w.events.cell e ≠ none)
    (hcall : ∀ e rev left, pc = .call (some e) rev left → w.events.cell e ≠ none) :
    EventsLive (w.setMonitor p pc) where
  reachable q m e hm hme hor := by
    rcases hor with hwatch | ⟨pc', hq, hpc'⟩
    · exact h.reachable q m e hm hme (.inl hwatch)
    · have hq' : (if q = p then some pc else w.monitor q) = some pc' := hq
      split at hq'
      · rename_i hqp
        obtain rfl := Option.some.inj hq'
        exact hbusy hpc' m e (hqp ▸ hm) hme
      · exact h.reachable q m e hm hme (.inr ⟨pc', hq', hpc'⟩)
  signalled q e rev left hq := by
    have hq' : (if q = p then some pc else w.monitor q) = some (.call (some e) rev left) := hq
    split at hq'
    · exact hcall e rev left (Option.some.inj hq')
    · exact h.signalled q e rev left hq'

/-- A call of `WSASetEvent` keeps the invariant. -/
theorem EventsLive.setEvent (h : EventsLive w) (hi : Inv w) {hEvent : WSAEVENT}
    {o : Outcome Bool} (ho : wsaSetEvent w hEvent = some o) :
    EventsLive o.world ∧ o.world.maps = w.maps ∧ o.world.monitor = w.monitor := by
  cases hEvent with
  | none =>
    obtain rfl := Option.some.inj ho
    exact ⟨h, rfl, rfl⟩
  | some e =>
    cases he : w.events.cell e with
    | none => simp [wsaSetEvent, he] at ho
    | some event =>
      obtain ⟨w₁, hset, hs⟩ := wsaSetEvent_spec he (hi.events.flag e event he)
      obtain rfl := Option.some.inj (hset.symm.trans ho)
      refine ⟨h.of_frame hs.maps hs.monitor (fun a f hf => ?_) (fun a ha => ?_), hs.maps,
        hs.monitor⟩
      · rwa [hs.watch.interest] at hf
      · rw [hs.events, Heap.put_cell]
        split
        · exact Option.some_ne_none _
        · exact ha

/-- A step of a monitor: it gets a batch only for a socket that is watched, and it reads an
    event only while it is busy. -/
theorem EventsLive.monitor (h : EventsLive w) (hi : Inv w) {p : Addr} {answer : EpollAnswer}
    (hn : next w (.monitor p answer) = some w') : EventsLive w' := by
  obtain ⟨L, hL⟩ := hi.maps
  obtain ⟨pc, m, hpc, hm, hmove⟩ := monitorStep_cases hn
  -- as long as the thread is busy, the event of its mapping is allocated
  have hlive : pc.busy = true → ∀ n e, w.maps.cell p = some n → n.event = some e →
      w.events.cell e ≠ none := by
    intro hbusy n e hn hne
    exact h.reachable p n e hn hne (.inr ⟨pc, hpc, hbusy⟩)
  cases hmove with
  | test =>
    refine h.setMonitor (fun hb => ?_) (fun e rev left hcall => ?_)
    · split at hb <;> cases hb
    · split at hcall <;> cases hcall
  | interrupted => exact h.setMonitor nofun nofun
  | failed => exact h.setMonitor nofun nofun
  | @returned fds hposs =>
    refine h.setMonitor (fun hb n e hn hne => ?_) nofun
    obtain rfl := Option.some.inj (hm.symm.trans hn)
    cases fds with
    | nil => cases hb
    | cons f fds =>
      -- the first entry is for a watched descriptor, which can only be the socket
      simp only [batchPossible, List.all_cons, Bool.and_eq_true, decide_eq_true_eq] at hposs
      have hrev : w.kernel.revents m.epollFd f ≠ 0 := hposs.2.1
      have hwatch : w.kernel.interest m.epollFd f ≠ none := by
        intro hnone
        rw [Kernel.revents, hnone] at hrev
        exact hrev rfl
      have hf := hL.watch p m f hm hwatch
      rw [hf] at hwatch
      exact h.reachable p m e hm hne (.inl hwatch)
  | done => exact h.setMonitor nofun nofun
  | skip => exact h.setMonitor (fun _ => hlive rfl) nofun
  | check => exact h.setMonitor (fun _ => hlive rfl) nofun
  | read =>
    refine h.setMonitor (fun _ => hlive rfl) (fun e rev left hcall => ?_)
    have heq : m.event = some e := (MonitorPc.call.inj hcall).1
    exact hlive rfl m e hm heq
  | @signal event rev left o ho =>
    obtain ⟨hset, hmaps, hmon⟩ := h.setEvent hi ho
    refine hset.setMonitor (fun hb n e hcell hne => ?_) nofun
    cases left with
    | nil => cases hb
    | cons rev' left =>
      have hbusy : (MonitorPc.call event rev (rev' :: left)).busy = true := rfl
      exact hset.reachable p n e hcell hne (.inr ⟨_, by rw [hmon]; exact hpc, hbusy⟩)

/-- A call of `WSACloseEvent` that closes an event keeps the invariant: the event is that of
    no socket that is watched and of no monitor in flight. -/
theorem EventsLive.eventClosed (h : EventsLive w) (ha : WatchedAssociated tr w) {e : Addr}
    (hframe : Frame w (.closeEvent (some e)) w')
    (hint : ∀ g f, w'.kernel.interest g f ≠ none → w.kernel.interest g f ≠ none)
    (hevents : w'.events = w.events.free e)
    (hclient : ClosesDissociated tr w (.closeEvent (some e)))
    (hflight : NoneInFlight w (.closeEvent (some e))) : EventsLive w' := by
  have hmon : w'.monitor = w.monitor := hframe.monitor nofun
  constructor
  case reachable =>
    intro p m e' hm hme hor
    rw [hframe.maps] at hm
    rw [hmon] at hor
    have hor' : w.kernel.interest m.epollFd m.sock ≠ none ∨
        ∃ pc, w.monitor p = some pc ∧ pc.busy = true := hor.imp_left (hint _ _)
    -- the client has dissociated the event, and no monitor is in flight with it
    have hne : e' ≠ e := by
      rintro rfl
      rcases hor' with hwatch | ⟨pc, hpc, hbusy⟩
      · exact hclient m.sock ((ha p m hm hwatch).trans hme)
      · exact hflight ⟨p, pc, hpc, .inr ⟨hbusy, m, hm, hme⟩⟩
    rw [hevents, Heap.free_cell_of_ne _ hne]
    exact h.reachable p m e' hm hme hor'
  case signalled =>
    intro p e' rev left hp
    rw [hmon] at hp
    have hne : e' ≠ e := by
      rintro rfl
      exact hflight ⟨p, _, hp, .inl ⟨rev, left, rfl⟩⟩
    rw [hevents, Heap.free_cell_of_ne _ hne]
    exact h.signalled p e' rev left hp

/-- A call of `WSAEventSelect` that registers an allocated event keeps the invariant. -/
theorem EventsLive.registered (h : EventsLive w) (hi : Inv w) {s : SOCKET} {hEvent : WSAEVENT}
    {mask : BitVec 64} (hr : Registration w w' s hEvent mask)
    (hnew : ∀ e, hEvent = some e → w.events.cell e ≠ none) : EventsLive w' := by
  cases hr with
  | updated p m live _ kernel events maps monitor =>
    constructor
    case reachable =>
      intro q n e hq hne hor
      rw [events]
      rw [kernel, monitor] at hor
      rw [maps] at hq
      rcases Heap.cell_of_put hq with ⟨rfl, rfl⟩ | ⟨_, hq⟩
      · exact hnew e hne
      · exact h.reachable q n e hq hne hor
    case signalled =>
      intro q e rev left hq
      rw [monitor] at hq
      rw [events]
      exact h.signalled q e rev left hq
  | created map epollFd _ created =>
    obtain ⟨L, hL⟩ := hi.maps
    have hold : ∀ q, q ≠ map → w'.monitor q = w.monitor q := by
      intro q hq
      rw [created.monitor]
      exact if_neg hq
    -- the new monitor has read no event yet
    have htop : w'.monitor map = some .top := by
      rw [created.monitor]
      exact if_pos rfl
    constructor
    case reachable =>
      intro q n e hq hne hor
      rw [created.events]
      rw [created.maps] at hq
      rcases Heap.cell_of_put hq with ⟨rfl, rfl⟩ | ⟨hqm, hq⟩
      · exact hnew e hne
      · rw [created.interest, if_neg (hL.epollFd_ne created hq), hold q hqm] at hor
        exact h.reachable q n e hq hne hor
    case signalled =>
      intro q e rev left hq
      rw [created.events]
      by_cases hqm : q = map
      · rw [hqm, htop] at hq; cases hq
      · rw [hold q hqm] at hq
        exact h.signalled q e rev left hq

/-- A step of a run whose clients keep the rules, and in which no monitor is in flight with
    an event that is closed, keeps the invariant. -/
theorem EventsLive.step (h : EventsLive w) (hi : Inv w) (ha : WatchedAssociated tr w)
    (hn : next w l = some w') (hclient : ClosesDissociated tr w l) (hflight : NoneInFlight w l) :
    EventsLive w' := by
  by_cases hl : ∃ p answer, l = .monitor p answer
  · obtain ⟨p, answer, rfl⟩ := hl
    exact h.monitor hi hn
  have hmon : ∀ p answer, l ≠ .monitor p answer := fun p answer heq => hl ⟨p, answer, heq⟩
  have he := effect_of_next hi hn
  cases hreg : registers w l with
  | none =>
    obtain ⟨frame, hint⟩ := interest_of_effect he hreg
    -- every step but `WSACloseEvent` leaves the events allocated
    have hkept : (∀ e, w.events.cell e ≠ none → w'.events.cell e ≠ none) → EventsLive w' :=
      h.of_frame frame.maps (frame.monitor hmon) (fun e f hf => (hint e f hf).1)
    have hput : ∀ p event, w'.events = w.events.put p event → EventsLive w' := by
      intro p event hev
      refine hkept (fun e hlive => ?_)
      rw [hev, Heap.put_cell]
      split
      · exact Option.some_ne_none _
      · exact hlive
    cases he with
    | quiet _ _ _ _ events => exact hkept (fun e hlive => by rwa [events])
    | signalled _ _ _ _ _ _ _ _ events => exact hput _ _ events
    | eventCreated _ _ _ _ _ _ _ events => exact hput _ _ events
    | eventClosed p event _ frame label _ _ events =>
      subst label
      exact h.eventClosed ha frame (fun e f hf => (hint e f hf).1) events hclient hflight
    | socketOpened _ _ _ _ _ _ events => exact hkept (fun e hlive => by rwa [events])
    | socketClosed _ _ _ _ _ events => exact hkept (fun e hlive => by rwa [events])
    | updated _ _ _ _ _ marks => rw [marks.registers] at hreg; cases hreg
    | created _ _ _ _ _ marks => rw [marks.registers] at hreg; cases hreg
  | some r =>
    obtain ⟨s, hEvent, mask⟩ := r
    obtain ⟨a, rfl⟩ := label_of_registers hreg
    refine h.registered hi (he.registration hreg) ?_
    rintro e rfl
    exact hflight

/-- **Signals and closed events.**  In a run whose clients close an event only when no
    socket is associated with it, if in addition events are closed only while no monitor is
    in flight with them, and no closed event is registered, then in every state of the run
    the monitors signal allocated events only. -/
theorem monitor_signals_live (h : system.Run tr w) (hclient : AllSteps ClosesDissociated tr)
    (hflight : AllSteps (fun _ w l => NoneInFlight w l) tr) :
    Always (fun _ w => SignalsLive w) tr w := by
  have hlive : Always (fun _ w => EventsLive w) tr w := by
    refine h.always_of_allSteps ?_ ?_ (hclient.and hflight)
    · intro s hs
      obtain rfl : s = World.start := hs
      exact ⟨nofun, nofun⟩
    · intro tr s l t hrun ih hok hstep
      exact ih.step (inv_of_run hrun) (associated_of_watched hrun) hstep hok.1 hok.2
  exact hlive.mono (fun _ _ hl => hl.signalled)

/-- In a history of registrations of `s₀` only, no other socket is associated. -/
theorem not_associated (s₀ : SOCKET) {e : Addr}
    (hone : ∀ x ∈ tr, (registers x.1 x.2).all (fun r => decide (r.1 = s₀)) = true)
    (hnone : associated s₀ tr ≠ some e) (s : SOCKET) : associated s tr ≠ some e := by
  intro hs
  have hne : associated s tr ≠ none := by rw [hs]; exact Option.some_ne_none e
  obtain ⟨x, hx, r, hr⟩ := registers_of_associated hne
  have hall := hone x hx
  rw [hr, Option.all_some] at hall
  obtain rfl : s = s₀ := of_decide_eq_true hall
  exact hnone hs

/-- A monitor signals an event, and the event is closed after the monitor is done with it. -/
theorem monitor_signals_live_then_close : ∃ tr w, system.Run tr w ∧
    Always (fun _ w => SignalsLive w) tr w ∧ w.events.cell 200 = none ∧
    ∃ e ∈ tr, e.1.monitor 100 = some (.call (some 200) EPOLLIN []) := by
  have hpre := run_of_exec_isSome World.start next
    [.createEvent ⟨some 3, some 200⟩, .socket 5 false,
      .eventSelect ⟨some 100, some 6, true, true⟩ 5 (some 200) FD_READ,
      .network 5 EPOLLIN 0, .monitor 100 .failed, .monitor 100 (.returned [5]),
      .monitor 100 .failed, .monitor 100 .failed, .monitor 100 .failed, .closesocket 5] rfl
  have hrun := run_of_next hpre (.closeEvent (some 200)) rfl
  refine ⟨_, _, hrun, monitor_signals_live hrun ⟨?_, ?_⟩ ⟨?_, ?_⟩, rfl, by decide⟩
  · exact not_associated 5 (by decide) (by decide)
  · show True ∧ True ∧ True ∧ True ∧ True ∧ True ∧ True ∧ True ∧ True ∧ True ∧ True
    decide
  · rintro ⟨p, pc, hp, hor⟩
    by_cases h100 : p = 100
    · -- the only monitor has no entry left
      subst h100
      obtain rfl : MonitorPc.batch [] = pc := Option.some.inj hp
      rcases hor with ⟨_, _, hcall⟩ | ⟨hbusy, _⟩
      · cases hcall
      · cases hbusy
    · have hnone : (if p = 100 then _ else if p = 100 then _ else if p = 100 then _ else
          if p = 100 then _ else if p = 100 then _ else if p = 100 then _ else none) = some pc := hp
      simp only [if_neg h100] at hnone
      cases hnone
  · show True ∧ True ∧ True ∧ True ∧ True ∧ True ∧ True ∧ some _ ≠ none ∧ True ∧ True ∧ True
    exact ⟨trivial, trivial, trivial, trivial, trivial, trivial, trivial, nofun, trivial, trivial,
      trivial⟩

/-- A monitor has read its mapping's event for an entry of a batch when the client closes
    the socket and then the event: what it reads next and signals has been freed. -/
theorem monitor_signals_closed : ∃ tr w, system.Run tr w ∧ AllSteps ClosesDissociated tr ∧
    ¬ SignalsLive w := by
  have hpre := run_of_exec_isSome World.start next
    [.createEvent ⟨some 3, some 200⟩, .socket 5 false,
      .eventSelect ⟨some 100, some 6, true, true⟩ 5 (some 200) FD_READ,
      .network 5 EPOLLIN 0, .monitor 100 .failed, .monitor 100 (.returned [5]),
      .monitor 100 .failed, .closesocket 5] rfl
  have hclose := run_of_next hpre (.closeEvent (some 200)) rfl
  have hrun := run_of_next hclose (.monitor 100 .failed) rfl
  refine ⟨_, _, hrun, ⟨trivial, ?_, ?_⟩, fun hlive => hlive 100 200 EPOLLIN [] rfl rfl⟩
  · exact not_associated 5 (by decide) (by decide)
  · show True ∧ True ∧ True ∧ True ∧ True ∧ True ∧ True ∧ True ∧ True
    decide

end LinuxWinsock
