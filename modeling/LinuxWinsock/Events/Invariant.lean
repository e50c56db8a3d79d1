import LinuxWinsock.Events.Effect

namespace LinuxWinsock

open Kernel LinkedList TransitionSystem

/-!
# The invariant holds in every reachable state

Each effect of a step keeps the invariant, so `Inv` holds wherever the system goes:

* `MapInv.of_frame`, `MapInv.updated`, `MapInv.created` — the mappings;
* `EventInv.of_counter`, `EventInv.signalled`, … — the events;
* `inv_of_effect`, `inv_of_run` — a step, and a run.
-/

variable {w w' : World} {l : Label} {L : List Addr}

/-! ### The mappings -/

/-- A step that leaves the mappings alone keeps `MapInv`, if no `epoll` instance is closed
    and nothing is added to an interest set. -/
theorem MapInv.of_frame (h : MapInv w L) (hf : Frame w l w')
    (hepoll : ∀ e, w.kernel.isEpoll e = true → w'.kernel.isEpoll e = true)
    (hwatch : ∀ e f, w'.kernel.interest e f ≠ none → w.kernel.interest e f ≠ none) :
    MapInv w' L := by
  have hcell : ∀ p, w'.maps.cell p = w.maps.cell p := fun p => by rw [hf.maps]
  constructor
  case list =>
    show Chain _ _ _ _
    rw [hf.maps, hf.head]
    exact h.list
  case listed => intro p m hp; exact h.listed p m (by rwa [hcell] at hp)
  case socks =>
    intro p q m n hp hq
    rw [hcell] at hp hq
    exact h.socks p q m n hp hq
  case epoll =>
    intro p m hp
    rw [hcell] at hp
    exact hepoll _ (h.epoll p m hp)
  case epollFds =>
    intro p q m n hp hq
    rw [hcell] at hp hq
    exact h.epollFds p q m n hp hq
  case watch =>
    intro p m f hp hint
    rw [hcell] at hp
    exact h.watch p m f hp (hwatch _ _ hint)
  case monitored =>
    intro p hp
    rw [hcell]
    exact h.monitored p (hf.monitored p hp)

/-- A step that leaves the files as they are, but for counters and sockets' states. -/
theorem MapInv.of_sameWatch (h : MapInv w L) (hf : Frame w l w')
    (hwatch : SameWatch w.kernel w'.kernel) : MapInv w' L := by
  refine h.of_frame hf (fun e he => ?_) (fun e f hint => ?_)
  · rwa [hwatch.isEpoll]
  · rwa [hwatch.interest] at hint

/-- A step that opens a file other than an `epoll` instance. -/
theorem MapInv.openAt (h : MapInv w L) (hf : Frame w l w') {fd : Fd} {nb : Bool}
    {kind : FileKind} (hplain : ∀ I, kind ≠ .epoll I) (hfree : w.kernel.file fd = none)
    (hkernel : w'.kernel = w.kernel.openAt fd nb kind) : MapInv w' L := by
  refine h.of_frame hf (fun e he => ?_) (fun e f hint => ?_)
  · rw [hkernel]; exact openAt_isEpoll hfree he
  · rwa [hkernel, openAt_interest hplain hfree] at hint

/-- A step that closes a file other than an `epoll` instance. -/
theorem MapInv.close (h : MapInv w L) (hf : Frame w l w') {fd : Fd}
    (hplain : w.kernel.isEpoll fd = false) (hkernel : w'.kernel = w.kernel.close fd) :
    MapInv w' L := by
  refine h.of_frame hf (fun e he => ?_) (fun e f hint => ?_)
  · have hne : e ≠ fd := by
      rintro rfl
      rw [hplain] at he
      cases he
    rw [hkernel, close_isEpoll, if_neg hne]
    exact he
  · rw [hkernel, close_interest] at hint
    split at hint
    · exact absurd rfl hint
    · exact hint

/-- A record whose event and mask were changed is a record of the list as before. -/
theorem cell_of_updated {p q : Addr} {m n : SocketEventMap} {h : WSAEVENT} {mask : BitVec 64}
    {maps : Heap SocketEventMap} (hp : maps.cell p = some m)
    (hq : (maps.put p { m with event := h, networkEvents := mask }).cell q = some n) :
    ∃ n₀, maps.cell q = some n₀ ∧ n₀.sock = n.sock ∧ n₀.epollFd = n.epollFd := by
  rcases Heap.cell_of_put hq with ⟨rfl, rfl⟩ | ⟨_, hq⟩
  · exact ⟨m, hp, rfl, rfl⟩
  · exact ⟨n, hq, rfl, rfl⟩

/-- The update path keeps `MapInv`: it changes neither a socket nor an `epoll` instance. -/
theorem MapInv.updated (hi : MapInv w L) {p : Addr} {m : SocketEventMap} {h : WSAEVENT}
    {mask : BitVec 64} (hp : w.maps.cell p = some m) (hkernel : w'.kernel = w.kernel)
    (hmaps : w'.maps = w.maps.put p { m with event := h, networkEvents := mask })
    (hhead : w'.gSocketEventMap = w.gSocketEventMap) (hmon : w'.monitor = w.monitor) :
    MapInv w' L := by
  have hback : ∀ q n, w'.maps.cell q = some n →
      ∃ n₀, w.maps.cell q = some n₀ ∧ n₀.sock = n.sock ∧ n₀.epollFd = n.epollFd := by
    intro q n hq
    rw [hmaps] at hq
    exact cell_of_updated hp hq
  constructor
  case list =>
    show Chain _ _ _ _
    rw [hmaps, hhead]
    exact hi.list.put_of_next_eq hp rfl
  case listed =>
    intro q n hq
    obtain ⟨n₀, hq₀, _⟩ := hback q n hq
    exact hi.listed q n₀ hq₀
  case socks =>
    rw [hmaps]
    exact Heap.KeyedBy.update hi.socks hp rfl
  case epoll =>
    intro q n hq
    obtain ⟨n₀, hq₀, _, hne⟩ := hback q n hq
    rw [hkernel, ← hne]
    exact hi.epoll q n₀ hq₀
  case epollFds =>
    rw [hmaps]
    exact Heap.KeyedBy.update hi.epollFds hp rfl
  case watch =>
    intro q n f hq hint
    obtain ⟨n₀, hq₀, hns, hne⟩ := hback q n hq
    rw [hkernel, ← hne] at hint
    rw [← hns]
    exact hi.watch q n₀ f hq₀ hint
  case monitored =>
    intro q hq
    rw [hmon] at hq
    rw [hmaps, Heap.put_cell]
    split
    · exact Option.some_ne_none _
    · exact hi.monitored q hq

/-- The new `epoll` instance of the create path is none of the list's: its number was free. -/
theorem MapInv.epollFd_ne (hi : MapInv w L) {s : SOCKET} {h : WSAEVENT} {mask : BitVec 64}
    {map : Addr} {epollFd : Fd} (hc : Created w w' map epollFd s h mask) {q : Addr}
    {n : SocketEventMap} (hq : w.maps.cell q = some n) : n.epollFd ≠ epollFd := by
  intro heq
  have hep := hi.epoll q n hq
  rw [heq, Kernel.isEpoll, hc.free] at hep
  cases hep

/-- The create path keeps `MapInv`: the new record is in front of the list, its socket had
    none, and its `epoll` instance is new. -/
theorem MapInv.created (hi : MapInv w L) {s : SOCKET} {h : WSAEVENT} {mask : BitVec 64}
    {map : Addr} {epollFd : Fd} (hun : ∀ p m, w.maps.cell p = some m → m.sock ≠ s)
    (hc : Created w w' map epollFd s h mask) : MapInv w' (map :: L) := by
  -- a record of the new heap is the new one or one of before
  have hback : ∀ q n, w'.maps.cell q = some n →
      (q = map ∧ n = ⟨s, h, mask, epollFd, true, w.gSocketEventMap⟩) ∨
      (q ≠ map ∧ w.maps.cell q = some n) := by
    intro q n hq
    rw [hc.maps] at hq
    exact Heap.cell_of_put hq
  constructor
  case list =>
    show Chain _ _ _ _
    rw [hc.maps, hc.head]
    exact hi.list.push hc.fresh rfl
  case listed =>
    intro q n hq
    rcases hback q n hq with ⟨rfl, _⟩ | ⟨_, hq⟩
    · exact List.mem_cons_self
    · exact List.mem_cons_of_mem _ (hi.listed q n hq)
  case socks =>
    rw [hc.maps]
    exact Heap.KeyedBy.put hi.socks (fun q n _ hq => hun q n hq)
  case epoll =>
    intro q n hq
    rw [hc.isEpoll]
    rcases hback q n hq with ⟨rfl, rfl⟩ | ⟨_, hq⟩
    · exact if_pos rfl
    · rw [if_neg (hi.epollFd_ne hc hq)]
      exact hi.epoll q n hq
  case epollFds =>
    rw [hc.maps]
    exact Heap.KeyedBy.put hi.epollFds (fun q n _ hq => hi.epollFd_ne hc hq)
  case watch =>
    intro q n f hq hint
    rw [hc.interest] at hint
    rcases hback q n hq with ⟨rfl, rfl⟩ | ⟨_, hq⟩
    · rw [if_pos rfl] at hint
      by_contra hf
      exact hint (if_neg hf)
    · rw [if_neg (hi.epollFd_ne hc hq)] at hint
      exact hi.watch q n f hq hint
  case monitored =>
    intro q hq
    rw [hc.maps, Heap.put_cell]
    by_cases hqm : q = map
    · rw [if_pos hqm]; exact Option.some_ne_none _
    · rw [if_neg hqm]
      have hsame : w'.monitor q = w.monitor q := by rw [hc.monitor]; exact if_neg hqm
      rw [hsame] at hq
      exact hi.monitored q hq

/-! ### The events -/

/-- The `eventfd` of a live event is open on an `eventfd`. -/
theorem EventInv.counter_ne_none (h : EventInv w) {p : Addr} {event : WSAEventStruct}
    (hp : w.events.cell p = some event) : w.kernel.counter event.eventfd ≠ none := by
  have hflag : w.kernel.counter event.eventfd = some _ := h.flag p event hp
  rw [hflag]
  exact Option.some_ne_none _

/-- A step that keeps the events and every counter keeps `EventInv`. -/
theorem EventInv.of_counter (h : EventInv w) (hevents : w'.events = w.events)
    (hcount : ∀ g, w.kernel.counter g ≠ none → w'.kernel.counter g = w.kernel.counter g) :
    EventInv w' where
  flag p event hp := by
    rw [hevents] at hp
    show w'.kernel.counter event.eventfd = _
    rw [hcount _ (h.counter_ne_none hp)]
    exact h.flag p event hp
  eventfds p q e f hp hq := by
    rw [hevents] at hp hq
    exact h.eventfds p q e f hp hq

/-- A set or a reset changes the flag and the counter of one event together. -/
theorem EventInv.signalled (h : EventInv w) {p : Addr} {event : WSAEventStruct} {flag : Bool}
    (hp : w.events.cell p = some event)
    (hcount : ∀ g, w'.kernel.counter g =
      if g = event.eventfd then some (if flag then 1 else 0) else w.kernel.counter g)
    (hevents : w'.events = w.events.put p { event with signaled := flag }) : EventInv w' := by
  have hback : ∀ q e, w'.events.cell q = some e →
      (q = p ∧ e = { event with signaled := flag }) ∨ (q ≠ p ∧ w.events.cell q = some e) := by
    intro q e hq
    rw [hevents] at hq
    exact Heap.cell_of_put hq
  constructor
  case flag =>
    intro q e hq
    show w'.kernel.counter e.eventfd = _
    rw [hcount]
    rcases hback q e hq with ⟨rfl, rfl⟩ | ⟨hqp, hq⟩
    · exact if_pos rfl
    · have hne : e.eventfd ≠ event.eventfd := fun heq => hqp (h.eventfds q p e event hq hp heq)
      rw [if_neg hne]
      exact h.flag q e hq
  case eventfds =>
    rw [hevents]
    exact Heap.KeyedBy.update h.eventfds hp rfl

/-- A new event has a new `eventfd` with counter 0. -/
theorem EventInv.eventCreated (h : EventInv w) {p : Addr} {efd : Fd}
    (hfree : w.kernel.file efd = none)
    (hkernel : w'.kernel = w.kernel.openAt efd true (.eventfd 0))
    (hevents : w'.events = w.events.put p ⟨efd, false⟩) : EventInv w' := by
  have hold : ∀ q e, w.events.cell q = some e → e.eventfd ≠ efd := by
    intro q e hq heq
    have hne := h.counter_ne_none hq
    rw [heq, Kernel.counter, hfree] at hne
    exact hne rfl
  have hback : ∀ q e, w'.events.cell q = some e →
      (q = p ∧ e = ⟨efd, false⟩) ∨ (q ≠ p ∧ w.events.cell q = some e) := by
    intro q e hq
    rw [hevents] at hq
    exact Heap.cell_of_put hq
  constructor
  case flag =>
    intro q e hq
    show w'.kernel.counter e.eventfd = _
    rw [hkernel, openAt_counter]
    rcases hback q e hq with ⟨rfl, rfl⟩ | ⟨_, hq⟩
    · rw [if_pos rfl]; rfl
    · rw [if_neg (hold q e hq)]
      exact h.flag q e hq
  case eventfds =>
    rw [hevents]
    exact Heap.KeyedBy.put h.eventfds (fun q e _ hq => hold q e hq)

/-- Closing an event closes no other event's `eventfd`. -/
theorem EventInv.eventClosed (h : EventInv w) {p : Addr} {event : WSAEventStruct}
    (hp : w.events.cell p = some event) (hkernel : w'.kernel = w.kernel.close event.eventfd)
    (hevents : w'.events = w.events.free p) : EventInv w' := by
  have hback : ∀ q e, w'.events.cell q = some e → q ≠ p ∧ w.events.cell q = some e := by
    intro q e hq
    rw [hevents] at hq
    exact Heap.cell_of_free hq
  constructor
  case flag =>
    intro q e hq
    obtain ⟨hqp, hq⟩ := hback q e hq
    have hne : e.eventfd ≠ event.eventfd := fun heq => hqp (h.eventfds q p e event hq hp heq)
    show w'.kernel.counter e.eventfd = _
    rw [hkernel, close_counter, if_neg hne]
    exact h.flag q e hq
  case eventfds =>
    intro q r e f hq hr
    exact h.eventfds q r e f (hback q e hq).2 (hback r f hr).2

/-! ### A step and a run -/

/-- The create path watches an open file. -/
theorem clean_of_created (hclean : w.kernel.Clean) {s : SOCKET} {h : WSAEVENT} {mask : BitVec 64}
    {map : Addr} {epollFd : Fd} (hc : Created w w' map epollFd s h mask) : w'.kernel.Clean := by
  intro e f hf
  have hopen : w'.kernel.objectId f = none := objectId_eq_none.mpr hf
  have hne : f ≠ epollFd := by
    rintro rfl
    rw [hc.objectId_self] at hopen
    cases hopen
  rw [hc.objectId f hne] at hopen
  have hfile := objectId_eq_none.mp hopen
  have hfs : f ≠ s := fun heq => hc.isOpen (heq ▸ hfile)
  rw [hc.interest, if_neg hfs]
  split
  · rfl
  · exact hclean e f hfile

/-- The create path hands out the next identity. -/
theorem fresh_of_created (hfresh : w.kernel.Fresh) {s : SOCKET} {h : WSAEVENT} {mask : BitVec 64}
    {map : Addr} {epollFd : Fd} (hc : Created w w' map epollFd s h mask) : w'.kernel.Fresh := by
  intro g id hg
  rw [hc.nextId]
  by_cases hgfd : g = epollFd
  · rw [hgfd, hc.objectId_self] at hg
    have heq := Option.some.inj hg
    omega
  · rw [hc.objectId g hgfd] at hg
    have hlt := hfresh g id hg
    omega

/-- Every effect keeps the invariant. -/
theorem inv_of_effect (hi : Inv w) (he : Effect w l w') : Inv w' := by
  obtain ⟨L, hL⟩ := hi.maps
  cases he with
  | quiet _ frame watch counter events =>
    refine ⟨hi.clean.of_sameWatch watch, hi.fresh.of_sameWatch watch,
      ⟨L, hL.of_sameWatch frame watch⟩, ?_⟩
    exact hi.events.of_counter events (fun g _ => counter g)
  | signalled p event flag _ frame live watch counter events =>
    exact ⟨hi.clean.of_sameWatch watch, hi.fresh.of_sameWatch watch,
      ⟨L, hL.of_sameWatch frame watch⟩, hi.events.signalled live counter events⟩
  | eventCreated p efd _ frame _ free kernel events =>
    have hplain : ∀ I, FileKind.eventfd 0 ≠ .epoll I := nofun
    refine ⟨?_, ?_, ⟨L, hL.openAt frame hplain free kernel⟩,
      hi.events.eventCreated free kernel events⟩
    · rw [kernel]; exact hi.clean.openAt hplain free
    · rw [kernel]; exact hi.fresh.openAt _ _ _
  | eventClosed p event _ frame _ live kernel events =>
    -- what is closed is an `eventfd`, so no mapping loses its instance
    have hplain := isEpoll_eq_false_of_counter (hi.events.counter_ne_none live)
    refine ⟨?_, ?_, ⟨L, hL.close frame hplain kernel⟩, hi.events.eventClosed live kernel events⟩
    · rw [kernel]; exact hi.clean.close _
    · rw [kernel]; exact hi.fresh.close _
  | socketOpened fd nb _ frame free kernel events =>
    have hplain : ∀ I, FileKind.socket 0 0 ≠ .epoll I := nofun
    refine ⟨?_, ?_, ⟨L, hL.openAt frame hplain free kernel⟩,
      hi.events.of_counter events (fun g hg => ?_)⟩
    · rw [kernel]; exact hi.clean.openAt hplain free
    · rw [kernel]; exact hi.fresh.openAt _ _ _
    · -- the number was free, so it has no counter
      have hne : g ≠ fd := by
        rintro rfl
        rw [Kernel.counter, free] at hg
        exact hg rfl
      rw [kernel, openAt_counter, if_neg hne]
  | socketClosed s _ frame isSocket kernel events =>
    have hplain := isEpoll_eq_false_of_socket isSocket
    obtain ⟨id, nb, r, err, hs⟩ := isSocket
    refine ⟨?_, ?_, ⟨L, hL.close frame hplain kernel⟩,
      hi.events.of_counter events (fun g hg => ?_)⟩
    · rw [kernel]; exact hi.clean.close _
    · rw [kernel]; exact hi.fresh.close _
    · -- a socket has no counter
      have hne : g ≠ s := by
        rintro rfl
        rw [Kernel.counter, hs] at hg
        exact hg rfl
      rw [kernel, close_counter, if_neg hne]
  | updated s h mask p m _ live _ kernel events maps head monitor =>
    refine ⟨?_, ?_, ⟨L, hL.updated live kernel maps head monitor⟩, ?_⟩
    · rw [kernel]; exact hi.clean
    · rw [kernel]; exact hi.fresh
    · exact hi.events.of_counter events (fun g _ => by rw [kernel])
  | created s h mask map epollFd _ unmapped hc =>
    exact ⟨clean_of_created hi.clean hc, fresh_of_created hi.fresh hc,
      ⟨_, hL.created unmapped hc⟩, hi.events.of_counter hc.events (fun g _ => hc.counter g)⟩

/-! ### What the invariant says of a call -/

/-- Every record that is allocated is in the list. -/
theorem Inv.mem_of_mapList (hi : Inv w) {L : List Addr} (hL : w.MapList L) {p : Addr}
    {m : SocketEventMap} (hm : w.maps.cell p = some m) : p ∈ L := by
  obtain ⟨L', hL'⟩ := hi.maps
  rw [hL.unique hL'.list]
  exact hL'.listed p m hm

/-- The report of a call that returns 0 is that of the pending error, and such a call has a place for
    it and a socket with a mapping. -/
theorem enumReport_iff (hi : Inv w) {s : SOCKET} {h : WSAEVENT} {hasOut : Bool}
    {r : Outcome Int × WSANETWORKEVENTS} (hr : wsaEnumNetworkEvents w s h hasOut = some r)
    {P : WSANETWORKEVENTS → Prop} {Q : Prop}
    (hP : ∀ p m, w.maps.cell p = some m → m.sock = s → (P (reportError w.kernel s).1 ↔ Q)) :
    (∀ r, wsaEnumNetworkEvents w s h hasOut = some r → r.1.ret = 0 → P r.2) ↔
      (hasOut = true → (∃ p m, w.maps.cell p = some m ∧ m.sock = s) → Q) := by
  obtain ⟨L, hL⟩ := hi.maps
  rcases wsaEnumNetworkEvents_cases hL.list hr with ⟨hret, _, hfail⟩ |
    ⟨hret, hout, hrep, ⟨p, _, m, hm, hms⟩, _⟩
  · -- the call fails: there is no report
    refine iff_of_true (fun r' hr' hret' => ?_) (fun hout hmapped => ?_)
    · obtain rfl := Option.some.inj (hr.symm.trans hr')
      rw [hret] at hret'
      exact absurd hret' (by decide)
    · rcases hfail with hfalse | hun
      · rw [hout] at hfalse
        cases hfalse
      · obtain ⟨p, m, hm, hms⟩ := hmapped
        exact absurd hms (hun p (hL.listed p m hm) m hm)
  · have hiff := hP p m hm hms
    rw [← hrep] at hiff
    constructor
    · intro hall _ _
      exact hiff.mp (hall r hr hret)
    · intro hcond r' hr' _
      obtain rfl := Option.some.inj (hr.symm.trans hr')
      exact hiff.mpr (hcond hout ⟨p, m, hm, hms⟩)

/-! ### Runs -/

/-- **The invariant of the event system** holds in every state it reaches. -/
theorem inv_of_run {tr : Trace} (h : system.Run tr w) : Inv w := by
  refine h.invariant (P := fun _ w => Inv w) ?_ ?_
  · intro s hs
    obtain rfl : s = World.start := hs
    exact inv_start
  · intro tr s l t _ hi hstep
    exact inv_of_effect hi (effect_of_next hi hstep)

/-- Every step a run takes has one of the effects. -/
theorem effect_of_run {tr : Trace} (h : system.Run tr w) (hstep : system.step w l w') :
    Inv w ∧ Effect w l w' :=
  ⟨inv_of_run h, effect_of_next (inv_of_run h) hstep⟩

end LinuxWinsock
