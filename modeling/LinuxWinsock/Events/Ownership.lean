import LinuxWinsock.Events.Invariant
import LinuxWinsock.Lib.Progress

namespace LinuxWinsock

open Kernel TransitionSystem

/-!
# Whose the descriptors are

Besides the sockets of its clients the process has descriptors that the library has opened for
itself: the `eventfd` of each event, and the `epoll` instance of each mapping.

* `monitor_cases` — what a step does to a monitor;
* `Owned`, `owned_of_run` — there are no others: no failure path leaves one behind;
* `descriptors_owned` — so each of them has exactly one owner, and each mapping has its monitor;
* `mapping_kept` — **leak**: nothing a client does afterwards releases a mapping, its `epoll`
  instance or its monitor.
-/

variable {w w' : World} {l : Label} {tr tr' : Trace}

/-! ### Owners -/

/-- Each descriptor of the library's own has an owner, and each mapping a monitor. -/
structure Owned (w : World) : Prop where
  eventfd : ∀ fd, w.kernel.counter fd ≠ none →
    ∃ p event, w.events.cell p = some event ∧ event.eventfd = fd
  epoll : ∀ fd, w.kernel.isEpoll fd = true → ∃ p m, w.maps.cell p = some m ∧ m.epollFd = fd
  monitor : ∀ p, w.maps.cell p ≠ none → w.monitor p ≠ none

theorem owned_start : Owned World.start where
  eventfd fd h := absurd rfl h
  epoll fd h := by cases h
  monitor p h := absurd rfl h

/-! ### Where a monitor is after a step -/

@[simp] theorem setMonitor_self (p : Addr) (pc : MonitorPc) :
    (w.setMonitor p pc).monitor p = some pc := if_pos rfl

theorem setMonitor_of_ne {p q : Addr} (pc : MonitorPc) (hq : q ≠ p) :
    (w.setMonitor p pc).monitor q = w.monitor q := if_neg hq

/-- A set moves no monitor. -/
theorem wsaSetEvent_monitor {hEvent : WSAEVENT} {o : Outcome Bool}
    (h : wsaSetEvent w hEvent = some o) : o.world.monitor = w.monitor := by
  unfold wsaSetEvent at h
  split at h
  · obtain rfl := Option.some.inj h
    rfl
  · split at h
    · cases h
    · split at h
      · obtain rfl := Option.some.inj h
        rfl
      · split at h
        · obtain rfl := Option.some.inj h
          rfl
        · obtain rfl := Option.some.inj h
          rfl

/-- A step of the monitor of `q` moves no other one. -/
theorem monitor_of_other {p q : Addr} {answer : EpollAnswer} (hpq : p ≠ q)
    (h : next w (.monitor q answer) = some w') : w'.monitor p = w.monitor p := by
  obtain ⟨pc, m, -, -, hmove⟩ := monitorStep_cases h
  cases hmove with
  | @signal event rev left o hset =>
    rw [setMonitor_of_ne _ hpq]
    exact congrFun (wsaSetEvent_monitor hset) p
  | _ => exact setMonitor_of_ne _ hpq

/-- **What a step does to the monitor of `p`**: nothing, or it starts it with its mapping, or it is
    the monitor's own step. -/
theorem monitor_cases (h : next w l = some w') (he : Effect w l w') (p : Addr) :
    (w'.monitor p = w.monitor p ∧ ∀ answer, l ≠ .monitor p answer) ∨
    (∃ s hd mask epollFd, Created w w' p epollFd s hd mask) ∨
    ∃ answer pc m, l = .monitor p answer ∧ w.monitor p = some pc ∧ w.maps.cell p = some m ∧
      MonitorMove w p m pc w' := by
  by_cases hmon : ∃ q answer, l = .monitor q answer
  · obtain ⟨q, answer, rfl⟩ := hmon
    by_cases hpq : p = q
    · obtain rfl := hpq
      obtain ⟨pc, m, hpc, hm, hmove⟩ := monitorStep_cases h
      exact .inr (.inr ⟨answer, pc, m, rfl, hpc, hm, hmove⟩)
    · refine .inl ⟨monitor_of_other hpq h, fun answer' heq => ?_⟩
      exact hpq (Label.monitor.inj heq).1.symm
  · have hno : ∀ q answer, l ≠ .monitor q answer := fun q answer heq => hmon ⟨q, answer, heq⟩
    have hframe : Frame w l w' → w'.monitor p = w.monitor p :=
      fun hf => congrFun (hf.monitor hno) p
    cases he with
    | quiet _ frame => exact .inl ⟨hframe frame, hno p⟩
    | signalled _ _ _ _ frame => exact .inl ⟨hframe frame, hno p⟩
    | eventCreated _ _ _ frame => exact .inl ⟨hframe frame, hno p⟩
    | eventClosed _ _ _ frame => exact .inl ⟨hframe frame, hno p⟩
    | socketOpened _ _ _ frame => exact .inl ⟨hframe frame, hno p⟩
    | socketClosed _ _ frame => exact .inl ⟨hframe frame, hno p⟩
    | updated _ _ _ _ _ _ _ _ _ _ _ _ monitor => exact .inl ⟨congrFun monitor p, hno p⟩
    | created s hd mask map epollFd _ _ hc =>
      by_cases hpm : p = map
      · obtain rfl := hpm
        exact .inr (.inl ⟨s, hd, mask, epollFd, hc⟩)
      · refine .inl ⟨?_, hno p⟩
        rw [hc.monitor]
        exact if_neg hpm

/-- The thread that made a step is somewhere. -/
theorem MonitorMove.place {p : Addr} {m : SocketEventMap} {pc : MonitorPc}
    (h : MonitorMove w p m pc w') : w'.monitor p ≠ none := by
  cases h with
  | _ =>
    rw [setMonitor_self]
    exact Option.some_ne_none _

/-- No step removes a monitor. -/
theorem monitor_kept (h : next w l = some w') (he : Effect w l w') {p : Addr}
    (hp : w.monitor p ≠ none) : w'.monitor p ≠ none := by
  rcases monitor_cases h he p with ⟨hsame, -⟩ | ⟨s, hd, mask, epollFd, hc⟩ |
    ⟨answer, pc, m, -, -, -, hmove⟩
  · rwa [hsame]
  · rw [hc.monitor]
    show (if p = p then some MonitorPc.top else w.monitor p) ≠ none
    rw [if_pos rfl]
    exact Option.some_ne_none _
  · exact hmove.place

/-! ### Each effect -/

/-- A step that only opens sockets or closes descriptors that are no `epoll` instance leaves the
    owners of the instances as they are. -/
theorem epoll_owned_of_frame (ho : Owned w) (hf : Frame w l w')
    (hepoll : ∀ fd, w'.kernel.isEpoll fd = true → w.kernel.isEpoll fd = true) :
    ∀ fd, w'.kernel.isEpoll fd = true → ∃ p m, w'.maps.cell p = some m ∧ m.epollFd = fd := by
  intro fd hfd
  rw [hf.maps]
  exact ho.epoll fd (hepoll fd hfd)

/-- The events are as they were, and no counter is new. -/
theorem eventfd_owned_of_eq (ho : Owned w) (hevents : w'.events = w.events)
    (hcount : ∀ fd, w'.kernel.counter fd ≠ none → w.kernel.counter fd ≠ none) :
    ∀ fd, w'.kernel.counter fd ≠ none →
      ∃ p event, w'.events.cell p = some event ∧ event.eventfd = fd := by
  intro fd hfd
  rw [hevents]
  exact ho.eventfd fd (hcount fd hfd)

/-- A new socket or `eventfd` is no `epoll` instance. -/
theorem isEpoll_of_openAt {k : Kernel} {fd e : Fd} {nb : Bool} {kind : FileKind}
    (hplain : ∀ I, kind ≠ .epoll I) (h : (k.openAt fd nb kind).isEpoll e = true) :
    k.isEpoll e = true := by
  rw [Kernel.isEpoll, openAt_file] at h
  split at h
  · cases kind with
    | epoll I => exact absurd rfl (hplain I)
    | socket r err => cases h
    | eventfd c => cases h
  · exact h

/-- What is an `epoll` instance after a `close` was one before. -/
theorem isEpoll_of_close {k : Kernel} {fd e : Fd} (h : (k.close fd).isEpoll e = true) :
    k.isEpoll e = true := by
  rw [close_isEpoll] at h
  split at h
  · cases h
  · exact h

/-- What has a counter after a `close` had one before. -/
theorem counter_of_close {k : Kernel} {fd g : Fd} (h : (k.close fd).counter g ≠ none) :
    k.counter g ≠ none := by
  rw [close_counter] at h
  split at h
  · exact absurd rfl h
  · exact h

/-- **Every effect leaves each descriptor of the library's with an owner.** -/
theorem owned_of_effect (ho : Owned w) (h : next w l = some w') (he : Effect w l w') :
    Owned w' := by
  have hmon : ∀ p, w.maps.cell p ≠ none → w'.monitor p ≠ none :=
    fun p hp => monitor_kept h he (ho.monitor p hp)
  have hmonitor : Frame w l w' → ∀ p, w'.maps.cell p ≠ none → w'.monitor p ≠ none := by
    intro hf p hp
    rw [hf.maps] at hp
    exact hmon p hp
  cases he with
  | quiet _ frame watch counter events =>
    refine ⟨eventfd_owned_of_eq ho events fun fd hfd => ?_,
      epoll_owned_of_frame ho frame fun fd hfd => ?_, hmonitor frame⟩
    · rwa [counter] at hfd
    · rwa [watch.isEpoll] at hfd
  | signalled p event flag _ frame live watch counter events =>
    refine ⟨fun fd hfd => ?_, epoll_owned_of_frame ho frame fun fd hfd => ?_, hmonitor frame⟩
    · -- the record keeps its descriptor
      have hold : w.kernel.counter fd ≠ none → ∃ q e, w.events.cell q = some e ∧ e.eventfd = fd :=
        ho.eventfd fd
      rw [events]
      by_cases heq : fd = event.eventfd
      · exact ⟨p, { event with signaled := flag }, Heap.put_cell_self _ _ _, heq.symm⟩
      · rw [counter, if_neg heq] at hfd
        obtain ⟨q, e, hq, hqe⟩ := hold hfd
        have hqp : q ≠ p := by
          rintro rfl
          obtain rfl := Option.some.inj (hq.symm.trans live)
          exact heq hqe.symm
        exact ⟨q, e, (Heap.put_cell_of_ne _ _ hqp).trans hq, hqe⟩
    · rwa [watch.isEpoll] at hfd
  | eventCreated p efd _ frame fresh free kernel events =>
    have hplain : ∀ I, FileKind.eventfd 0 ≠ .epoll I := by
      intro I heq
      cases heq
    refine ⟨fun fd hfd => ?_, epoll_owned_of_frame ho frame fun fd hfd => ?_, hmonitor frame⟩
    · rw [kernel, openAt_counter] at hfd
      rw [events]
      by_cases heq : fd = efd
      · exact ⟨p, ⟨efd, false⟩, Heap.put_cell_self _ _ _, heq.symm⟩
      · rw [if_neg heq] at hfd
        obtain ⟨q, e, hq, hqe⟩ := ho.eventfd fd hfd
        have hqp : q ≠ p := by
          rintro rfl
          rw [fresh] at hq
          cases hq
        exact ⟨q, e, (Heap.put_cell_of_ne _ _ hqp).trans hq, hqe⟩
    · rw [kernel] at hfd
      exact isEpoll_of_openAt hplain hfd
  | eventClosed p event _ frame _ live kernel events =>
    refine ⟨fun fd hfd => ?_, epoll_owned_of_frame ho frame fun fd hfd => ?_, hmonitor frame⟩
    · -- the descriptor of the record that is freed is closed
      rw [kernel, close_counter] at hfd
      split at hfd
      · exact absurd rfl hfd
      · rename_i hne
        obtain ⟨q, e, hq, hqe⟩ := ho.eventfd fd hfd
        have hqp : q ≠ p := by
          rintro rfl
          obtain rfl := Option.some.inj (hq.symm.trans live)
          exact hne hqe.symm
        refine ⟨q, e, ?_, hqe⟩
        rw [events, Heap.free_cell, if_neg hqp]
        exact hq
    · rw [kernel] at hfd
      exact isEpoll_of_close hfd
  | socketOpened fd nb _ frame free kernel events =>
    have hplain : ∀ I, FileKind.socket 0 0 ≠ .epoll I := by
      intro I heq
      cases heq
    refine ⟨eventfd_owned_of_eq ho events fun g hg => ?_,
      epoll_owned_of_frame ho frame fun g hg => ?_, hmonitor frame⟩
    · rw [kernel, openAt_counter] at hg
      split at hg
      · exact absurd rfl hg
      · exact hg
    · rw [kernel] at hg
      exact isEpoll_of_openAt hplain hg
  | socketClosed s _ frame isSocket kernel events =>
    refine ⟨eventfd_owned_of_eq ho events fun g hg => ?_,
      epoll_owned_of_frame ho frame fun g hg => ?_, hmonitor frame⟩
    · rw [kernel] at hg
      exact counter_of_close hg
    · rw [kernel] at hg
      exact isEpoll_of_close hg
  | updated s hd mask p m _ live sock kernel events maps head monitor =>
    refine ⟨eventfd_owned_of_eq ho events fun g hg => ?_, fun fd hfd => ?_, fun q hq => ?_⟩
    · rwa [kernel] at hg
    · rw [kernel] at hfd
      obtain ⟨q, n, hq, hqn⟩ := ho.epoll fd hfd
      rw [maps]
      by_cases hqp : q = p
      · obtain rfl := hqp
        obtain rfl := Option.some.inj (hq.symm.trans live)
        exact ⟨q, _, Heap.put_cell_self _ _ _, hqn⟩
      · exact ⟨q, n, (Heap.put_cell_of_ne _ _ hqp).trans hq, hqn⟩
    · rw [maps, Heap.put_cell] at hq
      split at hq
      · rename_i heq
        obtain rfl := heq
        exact hmon q (by rw [live]; exact Option.some_ne_none m)
      · exact hmon q hq
  | created s hd mask map epollFd _ _ hc =>
    refine ⟨eventfd_owned_of_eq ho hc.events fun g hg => ?_, fun fd hfd => ?_, fun q hq => ?_⟩
    · rwa [hc.counter] at hg
    · rw [hc.isEpoll] at hfd
      rw [hc.maps]
      by_cases heq : fd = epollFd
      · exact ⟨map, _, Heap.put_cell_self _ _ _, heq.symm⟩
      · rw [if_neg heq] at hfd
        obtain ⟨q, n, hq, hqn⟩ := ho.epoll fd hfd
        have hqp : q ≠ map := by
          rintro rfl
          rw [hc.fresh] at hq
          cases hq
        exact ⟨q, n, (Heap.put_cell_of_ne _ _ hqp).trans hq, hqn⟩
    · rw [hc.maps, Heap.put_cell] at hq
      split at hq
      · rename_i heq
        rw [hc.monitor]
        show (if q = map then some MonitorPc.top else w.monitor q) ≠ none
        rw [if_pos heq]
        exact Option.some_ne_none _
      · exact hmon q hq

/-- **There are no other descriptors**, in any state that the system reaches. -/
theorem owned_of_run (h : system.Run tr w) : Owned w := by
  refine h.invariant (P := fun _ w => Owned w) ?_ ?_
  · intro s hs
    obtain rfl : s = World.start := hs
    exact owned_start
  · intro tr s l t hrun ho hstep
    exact owned_of_effect ho hstep (effect_of_run hrun hstep).2

/-- **Each descriptor of the library's has one owner.**  In every state that the system reaches,
    whatever `malloc`, `eventfd`, `epoll_create1`, `epoll_ctl` and `pthread_create` answered on the
    way: an `eventfd` is open exactly if it is that of one live event, an `epoll` instance exactly if
    it is that of one mapping, and there is a monitor for each mapping and for nothing else. -/
theorem descriptors_owned (h : system.Run tr w) :
    (∀ fd, w.kernel.counter fd ≠ none ↔
      ∃! p, ∃ event, w.events.cell p = some event ∧ event.eventfd = fd) ∧
    (∀ fd, w.kernel.isEpoll fd = true ↔
      ∃! p, ∃ m, w.maps.cell p = some m ∧ m.epollFd = fd) ∧
    ∀ p, w.monitor p ≠ none ↔ w.maps.cell p ≠ none := by
  have ho := owned_of_run h
  have hi := inv_of_run h
  obtain ⟨L, hL⟩ := hi.maps
  refine ⟨fun fd => ⟨fun hfd => ?_, ?_⟩, fun fd => ⟨fun hfd => ?_, ?_⟩, fun p => ?_⟩
  · obtain ⟨p, event, hp, heq⟩ := ho.eventfd fd hfd
    refine ⟨p, ⟨event, hp, heq⟩, ?_⟩
    rintro q ⟨e, hq, hqe⟩
    exact hi.events.eventfds q p e event hq hp (hqe.trans heq.symm)
  · rintro ⟨p, ⟨event, hp, rfl⟩, -⟩
    exact hi.events.counter_ne_none hp
  · obtain ⟨p, m, hp, heq⟩ := ho.epoll fd hfd
    refine ⟨p, ⟨m, hp, heq⟩, ?_⟩
    rintro q ⟨n, hq, hqn⟩
    exact hL.epollFds q p n m hq hp (hqn.trans heq.symm)
  · rintro ⟨p, ⟨m, hp, rfl⟩, -⟩
    exact hL.epoll p m hp
  · exact ⟨hL.monitored p, ho.monitor p⟩

/-- A socket is registered for an event. -/
def registerFive : List Label :=
  [.createEvent ⟨some 7, some 200⟩, .socket 5 false,
    .eventSelect ⟨some 100, some 6, true, true⟩ 5 (some 200) FD_READ]

/-- The state after that. -/
def fiveRegistered : World := ((exec next registerFive [] World.start).getD ([], World.start)).2

theorem fiveRegistered_run : ∃ tr, system.Run tr fiveRegistered :=
  ⟨_, run_of_exec_isSome World.start next registerFive rfl⟩

/-- The owners of its two descriptors. -/
theorem descriptors_owned_selected : ∃ tr w, system.Run tr w ∧
    (∃! p, ∃ event, w.events.cell p = some event ∧ event.eventfd = 7) ∧
    ∃! p, ∃ m, w.maps.cell p = some m ∧ m.epollFd = 6 := by
  obtain ⟨tr, hrun⟩ := fiveRegistered_run
  obtain ⟨heventfd, hepoll, -⟩ := descriptors_owned hrun
  exact ⟨tr, fiveRegistered, hrun, (heventfd 7).mp (by decide), (hepoll 6).mp (by decide)⟩

/-! ### What is never released -/

/-- The mapping at `p` in a later state: its event and its mask may have changed. -/
structure Kept (p : Addr) (m : SocketEventMap) (id : Option Nat) (w : World) : Prop where
  cell : ∃ n, w.maps.cell p = some n ∧ n.sock = m.sock ∧ n.epollFd = m.epollFd
  instance_id : w.kernel.objectId m.epollFd = id
  monitored : w.monitor p ≠ none

/-- What is closed is no `epoll` instance. -/
theorem objectId_close_of_plain {k : Kernel} {fd e : Fd} (he : k.isEpoll e = true)
    (hplain : k.isEpoll fd = false) : (k.close fd).objectId e = k.objectId e := by
  rw [close_objectId, if_neg]
  rintro rfl
  rw [hplain] at he
  cases he

/-- What is opened has another number than the files that are open. -/
theorem objectId_openAt_of_isEpoll {k : Kernel} {fd e : Fd} {nb : Bool} {kind : FileKind}
    (he : k.isEpoll e = true) (hfree : k.file fd = none) :
    (k.openAt fd nb kind).objectId e = k.objectId e := by
  rw [openAt_objectId, if_neg]
  rintro rfl
  rw [Kernel.isEpoll, hfree] at he
  cases he

/-- A mapping after a step: the same socket and instance, and the same event unless the step
    registers the socket. -/
theorem mapping_of_effect (he : Effect w l w') {p : Addr} {m : SocketEventMap}
    (hm : w.maps.cell p = some m) : ∃ n, w'.maps.cell p = some n ∧ n.sock = m.sock ∧
      n.epollFd = m.epollFd ∧
      (n.event = m.event ∨ ∃ mask, registers w l = some (m.sock, n.event, mask)) := by
  have hframe : Frame w l w' → ∃ n, w'.maps.cell p = some n ∧ n.sock = m.sock ∧
      n.epollFd = m.epollFd ∧
      (n.event = m.event ∨ ∃ mask, registers w l = some (m.sock, n.event, mask)) := by
    intro hf
    exact ⟨m, by rw [hf.maps]; exact hm, rfl, rfl, .inl rfl⟩
  cases he with
  | quiet _ frame => exact hframe frame
  | signalled _ _ _ _ frame => exact hframe frame
  | eventCreated _ _ _ frame => exact hframe frame
  | eventClosed _ _ _ frame => exact hframe frame
  | socketOpened _ _ _ frame => exact hframe frame
  | socketClosed _ _ frame => exact hframe frame
  | updated s hd mask q n marks live sock _ _ maps =>
    rw [maps]
    by_cases hpq : p = q
    · obtain rfl := hpq
      obtain rfl := Option.some.inj (hm.symm.trans live)
      refine ⟨_, Heap.put_cell_self _ _ _, rfl, rfl, .inr ⟨mask, ?_⟩⟩
      rw [marks.registers, sock]
    · exact ⟨m, (Heap.put_cell_of_ne _ _ hpq).trans hm, rfl, rfl, .inl rfl⟩
  | created s hd mask map epollFd _ _ hc =>
    have hpm : p ≠ map := by
      rintro rfl
      rw [hc.fresh] at hm
      cases hm
    rw [hc.maps]
    exact ⟨m, (Heap.put_cell_of_ne _ _ hpm).trans hm, rfl, rfl, .inl rfl⟩

/-- No step releases a mapping, its `epoll` instance or its monitor. -/
theorem kept_of_effect {p : Addr} {m : SocketEventMap} {id : Option Nat} (hi : Inv w)
    (hk : Kept p m id w) (h : next w l = some w') (he : Effect w l w') : Kept p m id w' := by
  obtain ⟨L, hL⟩ := hi.maps
  obtain ⟨n, hn, hsock, hfd⟩ := hk.cell
  have hepoll : w.kernel.isEpoll m.epollFd = true := by
    rw [← hfd]
    exact hL.epoll p n hn
  refine ⟨?_, Eq.trans ?_ hk.instance_id, monitor_kept h he hk.monitored⟩
  · obtain ⟨n', hn', hsock', hfd', -⟩ := mapping_of_effect he hn
    exact ⟨n', hn', hsock'.trans hsock, hfd'.trans hfd⟩
  · cases he with
    | quiet _ _ watch => exact watch.objectId _
    | signalled _ _ _ _ _ _ watch => exact watch.objectId _
    | eventCreated _ efd _ _ _ free kernel =>
      rw [kernel]
      exact objectId_openAt_of_isEpoll hepoll free
    | eventClosed q event _ _ _ live kernel =>
      rw [kernel]
      apply objectId_close_of_plain hepoll
      exact isEpoll_eq_false_of_counter (hi.events.counter_ne_none live)
    | socketOpened fd nb _ _ free kernel =>
      rw [kernel]
      exact objectId_openAt_of_isEpoll hepoll free
    | socketClosed s _ _ isSocket kernel =>
      rw [kernel]
      exact objectId_close_of_plain hepoll (isEpoll_eq_false_of_socket isSocket)
    | updated _ _ _ _ _ _ _ _ kernel => rw [kernel]
    | created s hd mask map epollFd _ _ hc =>
      apply hc.objectId
      rw [← hfd]
      exact hL.epollFd_ne hc hn

/-- **What is registered stays for good.**  From any state that the system reaches, nothing that
    clients, monitors and the network do afterwards (closing the socket and the event, and
    dissociating the socket included) releases a mapping: it keeps its socket number and its `epoll`
    instance, which stays the same open file, and its monitor. -/
theorem mapping_kept (h : system.Run tr w) {p : Addr} {m : SocketEventMap}
    (hm : w.maps.cell p = some m) (h' : (system.startingAt w).Run tr' w') :
    (∃ n, w'.maps.cell p = some n ∧ n.sock = m.sock ∧ n.epollFd = m.epollFd) ∧
    w'.kernel.isEpoll m.epollFd = true ∧
    w'.kernel.objectId m.epollFd = w.kernel.objectId m.epollFd ∧ w'.monitor p ≠ none := by
  have hmon : w.monitor p ≠ none :=
    (owned_of_run h).monitor p (by rw [hm]; exact Option.some_ne_none m)
  have hkept : Inv w' ∧ Kept p m (w.kernel.objectId m.epollFd) w' := by
    refine h'.invariant (P := fun _ u => Inv u ∧ Kept p m (w.kernel.objectId m.epollFd) u) ?_ ?_
    · rintro u rfl
      exact ⟨inv_of_run h, ⟨m, hm, rfl, rfl⟩, rfl, hmon⟩
    · rintro tr s l t - ⟨hi, hk⟩ hstep
      have he := effect_of_next hi hstep
      exact ⟨inv_of_effect hi he, kept_of_effect hi hk hstep he⟩
  obtain ⟨hi, hk⟩ := hkept
  obtain ⟨L, hL⟩ := hi.maps
  obtain ⟨n, hn, hsock, hfd⟩ := hk.cell
  refine ⟨⟨n, hn, hsock, hfd⟩, ?_, hk.instance_id, hk.monitored⟩
  rw [← hfd]
  exact hL.epoll p n hn

/-- The socket and the event are closed, and the mapping stays. -/
theorem mapping_kept_closed : ∃ tr w tr' w', system.Run tr w ∧
    (system.startingAt w).Run tr' w' ∧ w'.kernel.file 5 = none ∧ w'.events.cell 200 = none ∧
    w'.kernel.isEpoll 6 = true ∧ w'.monitor 100 ≠ none := by
  obtain ⟨tr, hrun⟩ := fiveRegistered_run
  have hrun' := run_of_exec_isSome fiveRegistered next
    [.closesocket 5, .closeEvent (some 200)] rfl
  have hkept := mapping_kept hrun (p := 100) rfl hrun'
  exact ⟨tr, fiveRegistered, _, _, hrun, hrun', rfl, rfl, hkept.2.1, hkept.2.2.2⟩

end LinuxWinsock
