import LinuxWinsock.Events.System

namespace LinuxWinsock

open Kernel LinkedList

/-!
# What a step of the event system can do

The invariant of the event system, and the inversion lemma for its steps.

* `Inv` — the mappings form a list with one record a socket, each with an `epoll`
  instance of its own that watches at most that socket, and each event has an `eventfd`
  of its own whose counter is the event's flag;
* `Effect`, `effect_of_next` — a step does one of eight things to the descriptors, the
  events and the mappings.  Every invariant of the system is derived from this lemma;
* `Registration`, `Effect.registration` — the two of them that register something.
-/

/-! ### The invariant -/

/-- The mappings are the records of the list `l`, one for a socket, each with an `epoll`
    instance of its own that watches nothing else. -/
structure MapInv (w : World) (l : List Addr) : Prop where
  list : w.MapList l
  listed : ∀ p m, w.maps.cell p = some m → p ∈ l
  socks : ∀ p q m n, w.maps.cell p = some m → w.maps.cell q = some n → m.sock = n.sock → p = q
  epoll : ∀ p m, w.maps.cell p = some m → w.kernel.isEpoll m.epollFd = true
  epollFds : ∀ p q m n, w.maps.cell p = some m → w.maps.cell q = some n →
    m.epollFd = n.epollFd → p = q
  watch : ∀ p m f, w.maps.cell p = some m → w.kernel.interest m.epollFd f ≠ none → f = m.sock
  monitored : ∀ p, w.monitor p ≠ none → w.maps.cell p ≠ none

/-- Every event has its own `eventfd`, and the counter of that is the event's flag. -/
structure EventInv (w : World) : Prop where
  flag : ∀ p event, w.events.cell p = some event → CounterIsFlag w.kernel event
  eventfds : ∀ p q e f, w.events.cell p = some e → w.events.cell q = some f →
    e.eventfd = f.eventfd → p = q

/-- The invariant of the event system. -/
structure Inv (w : World) : Prop where
  clean : w.kernel.Clean
  fresh : w.kernel.Fresh
  maps : ∃ l, MapInv w l
  events : EventInv w

/-- The invariant holds before the first call. -/
theorem inv_start : Inv World.start := by
  have hmaps : ∀ p m, World.start.maps.cell p ≠ some m := fun _ _ h => by cases h
  have hevents : ∀ p e, World.start.events.cell p ≠ some e := fun _ _ h => by cases h
  constructor
  case clean => exact fun _ _ _ => rfl
  case fresh => exact fun _ _ hg => by cases hg
  case maps =>
    exact ⟨[], .nil, fun p m hp => absurd hp (hmaps p m), fun p _ m _ hp => absurd hp (hmaps p m),
      fun p m hp => absurd hp (hmaps p m), fun p _ m _ hp => absurd hp (hmaps p m),
      fun p m _ hp => absurd hp (hmaps p m), fun _ hp => absurd rfl hp⟩
  case events =>
    exact ⟨fun p e hp => absurd hp (hevents p e), fun p _ e _ hp => absurd hp (hevents p e)⟩

/-! ### The effects -/

/-- The step leaves the mappings alone, and starts no monitor.  A call of `WSAEventSelect`
    can only do so for a socket that has no mapping. -/
structure Frame (w : World) (l : Label) (w' : World) : Prop where
  maps : w'.maps = w.maps
  head : w'.gSocketEventMap = w.gSocketEventMap
  monitored : ∀ p, w'.monitor p ≠ none → w.monitor p ≠ none
  monitor : (∀ p answer, l ≠ .monitor p answer) → w'.monitor = w.monitor
  unmapped : ∀ a s h mask, l = .eventSelect a s h mask →
    ∀ p m, w.maps.cell p = some m → m.sock ≠ s

/-- What the step closes, signals and registers. -/
structure Marks (w : World) (l : Label) (c : Option Fd) (s : Option (Addr × Bool))
    (r : Option (SOCKET × WSAEVENT × BitVec 64)) : Prop where
  closes : closes w l = c
  signals : signals w l = s
  registers : registers w l = r

/-- What a step can do to the descriptors, the events and the mappings. -/
inductive Effect (w : World) (l : Label) (w' : World) : Prop
  /-- Nothing, but for the state of a socket and the place of a monitor. -/
  | quiet (marks : Marks w l none none none) (frame : Frame w l w')
      (watch : SameWatch w.kernel w'.kernel)
      (counter : ∀ g, w'.kernel.counter g = w.kernel.counter g)
      (events : w'.events = w.events)
  /-- An event is set or reset. -/
  | signalled (p : Addr) (event : WSAEventStruct) (flag : Bool)
      (marks : Marks w l none (some (p, flag)) none) (frame : Frame w l w')
      (live : w.events.cell p = some event) (watch : SameWatch w.kernel w'.kernel)
      (counter : ∀ g, w'.kernel.counter g =
        if g = event.eventfd then some (if flag then 1 else 0) else w.kernel.counter g)
      (events : w'.events = w.events.put p { event with signaled := flag })
  | eventCreated (p : Addr) (efd : Fd) (marks : Marks w l none (some (p, false)) none)
      (frame : Frame w l w') (fresh : w.events.cell p = none)
      (free : w.kernel.file efd = none)
      (kernel : w'.kernel = w.kernel.openAt efd true (.eventfd 0))
      (events : w'.events = w.events.put p ⟨efd, false⟩)
  | eventClosed (p : Addr) (event : WSAEventStruct)
      (marks : Marks w l (some event.eventfd) none none) (frame : Frame w l w')
      (label : l = .closeEvent (some p)) (live : w.events.cell p = some event)
      (kernel : w'.kernel = w.kernel.close event.eventfd)
      (events : w'.events = w.events.free p)
  | socketOpened (fd : Fd) (nb : Bool) (marks : Marks w l none none none)
      (frame : Frame w l w') (free : w.kernel.file fd = none)
      (kernel : w'.kernel = w.kernel.openAt fd nb (.socket 0 0)) (events : w'.events = w.events)
  | socketClosed (s : SOCKET) (marks : Marks w l (some s) none none) (frame : Frame w l w')
      (isSocket : ∃ id nb r err, w.kernel.file s = some ⟨id, nb, .socket r err⟩)
      (kernel : w'.kernel = w.kernel.close s) (events : w'.events = w.events)
  /-- `WSAEventSelect` changes the socket's mapping. -/
  | updated (s : SOCKET) (h : WSAEVENT) (mask : BitVec 64) (p : Addr) (m : SocketEventMap)
      (marks : Marks w l none none (some (s, h, mask))) (live : w.maps.cell p = some m)
      (sock : m.sock = s)
      (kernel : w'.kernel = w.kernel) (events : w'.events = w.events)
      (maps : w'.maps = w.maps.put p { m with event := h, networkEvents := mask })
      (head : w'.gSocketEventMap = w.gSocketEventMap) (monitor : w'.monitor = w.monitor)
  /-- `WSAEventSelect` makes a mapping. -/
  | created (s : SOCKET) (h : WSAEVENT) (mask : BitVec 64) (map : Addr) (epollFd : Fd)
      (marks : Marks w l none none (some (s, h, mask)))
      (unmapped : ∀ p m, w.maps.cell p = some m → m.sock ≠ s)
      (created : Created w w' map epollFd s h mask)

/-- The label is not one of `WSAEventSelect`. -/
def Label.NotSelect : Label → Prop
  | .eventSelect _ _ _ _ => False
  | _ => True

/-- A frame for a step of a client or of the network. -/
theorem Frame.of_eq {w w' : World} {l : Label} (hl : l.NotSelect) (hmaps : w'.maps = w.maps)
    (hhead : w'.gSocketEventMap = w.gSocketEventMap) (hmon : w'.monitor = w.monitor) :
    Frame w l w' :=
  ⟨hmaps, hhead, fun p h => by rwa [hmon] at h, fun _ => hmon,
    fun a s h mask heq => by rw [heq] at hl; exact absurd hl id⟩

/-- A frame for a step of a monitor: only its own place changes. -/
theorem Frame.setMonitor {w w₁ : World} {p : Addr} {answer : EpollAnswer} {pc : MonitorPc}
    (hmaps : w₁.maps = w.maps) (hhead : w₁.gSocketEventMap = w.gSocketEventMap)
    (hmon : w₁.monitor = w.monitor) (hpc : w.monitor p ≠ none) :
    Frame w (.monitor p answer) (w₁.setMonitor p pc) where
  maps := hmaps
  head := hhead
  monitored q hq := by
    by_cases hqp : q = p
    · rw [hqp]; exact hpc
    · have hsame : (w₁.setMonitor p pc).monitor q = w₁.monitor q := if_neg hqp
      rwa [hsame, hmon] at hq
  monitor hl := absurd rfl (hl p answer)
  unmapped := nofun

/-- A step that changes nothing at all. -/
theorem Effect.unchanged {w : World} {l : Label} (hl : l.NotSelect)
    (marks : Marks w l none none none) : Effect w l w :=
  .quiet marks (.of_eq hl rfl rfl rfl) (SameWatch.refl _) (fun _ => rfl) rfl

/-! ### The inversion lemma, one kind of step at a time -/

section Steps

variable {w w' : World}

theorem effect_createEvent (hi : Inv w) {a : CreateAnswers}
    (h : next w (.createEvent a) = some w') : Effect w (.createEvent a) w' := by
  simp only [next] at h
  split at h
  · rename_i hposs
    obtain rfl := Option.some.inj h
    obtain ⟨efd, mem⟩ := a
    simp only [CreateAnswers.possible, Bool.and_eq_true] at hposs
    cases efd with
    | none => exact .unchanged trivial ⟨rfl, rfl, rfl⟩
    | some efd =>
      have hfree : w.kernel.file efd = none := by
        have hfd := hposs.1
        simp only [Option.all_some, Bool.and_eq_true] at hfd
        exact Option.isNone_iff_eq_none.mp hfd.2
      cases mem with
      | none =>
        -- the `eventfd` is closed again: the table is the one before the call
        have hfile := close_openAt_file hi.clean hfree true (.eventfd 0)
        refine .quiet ⟨rfl, rfl, rfl⟩ (.of_eq trivial rfl rfl rfl)
          (sameWatch_of_file_eq hfile (Nat.le_succ _)) (fun g => ?_) rfl
        show Option.bind (((w.kernel.openAt efd true (.eventfd 0)).close efd).file g) _ = _
        rw [hfile]; rfl
      | some p =>
        have hfresh : w.events.cell p = none := by
          have hp := hposs.2
          simpa only [Option.all_some, Option.isNone_iff_eq_none] using hp
        exact .eventCreated p efd ⟨rfl, rfl, rfl⟩ (.of_eq trivial rfl rfl rfl) hfresh hfree rfl rfl
  · cases h

theorem effect_closeEvent {hEvent : WSAEVENT} (h : next w (.closeEvent hEvent) = some w') :
    Effect w (.closeEvent hEvent) w' := by
  obtain ⟨o, ho, rfl⟩ := Option.map_eq_some_iff.mp h
  cases hEvent with
  | none =>
    obtain rfl := Option.some.inj ho
    exact .unchanged trivial ⟨rfl, rfl, rfl⟩
  | some p =>
    simp only [wsaCloseEvent] at ho
    split at ho
    · cases ho
    · rename_i event hp
      obtain rfl := Option.some.inj ho
      have hcloses : closes w (.closeEvent (some p)) = some event.eventfd := by
        simp only [closes, hp, Option.map_some]
      exact .eventClosed p event ⟨hcloses, rfl, rfl⟩ (.of_eq trivial rfl rfl rfl) rfl hp rfl rfl

/-- The effect of a call that sets or resets the event at `p`. -/
theorem Effect.of_signalled {l : Label} (hl : l.NotSelect) {p : Addr}
    {event : WSAEventStruct} {flag : Bool} (marks : Marks w l none (some (p, flag)) none)
    (hp : w.events.cell p = some event) (hs : Signalled w w' p event flag) : Effect w l w' :=
  .signalled p event flag marks (.of_eq hl hs.maps hs.head hs.monitor) hp hs.watch hs.counter
    hs.events

theorem effect_setEvent (hi : Inv w) {hEvent : WSAEVENT}
    (h : next w (.setEvent hEvent) = some w') : Effect w (.setEvent hEvent) w' := by
  obtain ⟨o, ho, rfl⟩ := Option.map_eq_some_iff.mp h
  cases hEvent with
  | none =>
    obtain rfl := Option.some.inj ho
    exact .unchanged trivial ⟨rfl, rfl, rfl⟩
  | some p =>
    cases hp : w.events.cell p with
    | none => simp [wsaSetEvent, hp] at ho
    | some event =>
      obtain ⟨w₁, hset, hs⟩ := wsaSetEvent_spec hp (hi.events.flag p event hp)
      obtain rfl := Option.some.inj (hset.symm.trans ho)
      exact .of_signalled trivial ⟨rfl, rfl, rfl⟩ hp hs

theorem effect_resetEvent (hi : Inv w) {hEvent : WSAEVENT}
    (h : next w (.resetEvent hEvent) = some w') : Effect w (.resetEvent hEvent) w' := by
  obtain ⟨o, ho, rfl⟩ := Option.map_eq_some_iff.mp h
  cases hEvent with
  | none =>
    obtain rfl := Option.some.inj ho
    exact .unchanged trivial ⟨rfl, rfl, rfl⟩
  | some p =>
    cases hp : w.events.cell p with
    | none => simp [wsaResetEvent, hp] at ho
    | some event =>
      obtain ⟨w₁, hreset, hs⟩ := wsaResetEvent_spec hp (hi.events.flag p event hp)
      obtain rfl := Option.some.inj (hreset.symm.trans ho)
      exact .of_signalled trivial ⟨rfl, rfl, rfl⟩ hp hs

theorem effect_eventSelect (hi : Inv w) {a : SelectAnswers} {s : SOCKET} {h : WSAEVENT}
    {mask : BitVec 64} (hn : next w (.eventSelect a s h mask) = some w') :
    Effect w (.eventSelect a s h mask) w' := by
  obtain ⟨l, hl⟩ := hi.maps
  simp only [next] at hn
  split at hn
  · rename_i hposs
    obtain ⟨o, ho, hcases⟩ := wsaEventSelect_cases hl.list hi.clean hposs s h mask
    rw [ho, Option.map_some] at hn
    obtain rfl := Option.some.inj hn
    have hreg : registers w (.eventSelect a s h mask) =
        if o.ret = 0 then some (s, h, mask) else none := by
      simp only [registers, ho, Option.any_some, decide_eq_true_eq]
    rcases hcases with ⟨p, m, _, hm, hms, rfl⟩ | ⟨hun, hret, map, epollFd, hc⟩ |
      ⟨hun, hret, _, hu⟩
    · exact .updated s h mask p m ⟨rfl, rfl, hreg⟩ hm hms rfl rfl rfl rfl rfl
    · rw [if_pos hret] at hreg
      refine .created s h mask map epollFd ⟨rfl, rfl, hreg⟩ (fun p m hm => ?_) hc
      exact hun p (hl.listed p m hm) m hm
    · have hne : o.ret ≠ 0 := by rw [hret]; decide
      rw [if_neg hne] at hreg
      have hframe : Frame w (.eventSelect a s h mask) o.world := by
        refine ⟨hu.maps, hu.head, fun p hp => by rwa [hu.monitor] at hp, fun _ => hu.monitor, ?_⟩
        rintro a' s' h' mask' ⟨rfl, rfl, rfl, rfl⟩ p m hm
        exact hun p (hl.listed p m hm) m hm
      refine .quiet ⟨rfl, rfl, hreg⟩ hframe (sameWatch_of_file_eq hu.file hu.nextId)
        (fun g => ?_) hu.events
      rw [counter, counter, hu.file]
  · cases hn

theorem effect_enumNetworkEvents (hi : Inv w) {s : SOCKET} {h : WSAEVENT} {hasOut : Bool}
    (hn : next w (.enumNetworkEvents s h hasOut) = some w') :
    Effect w (.enumNetworkEvents s h hasOut) w' := by
  obtain ⟨l, hl⟩ := hi.maps
  obtain ⟨r, hr, rfl⟩ := Option.map_eq_some_iff.mp hn
  have hsig : ∀ p, h = some p → signals w (.enumNetworkEvents s h hasOut) =
      if r.1.ret = 0 then some (p, false) else none := by
    rintro p rfl
    simp only [signals, hr, Option.any_some, decide_eq_true_eq]
  rcases wsaEnumNetworkEvents_cases hl.list hr with ⟨hret, hw, _⟩ | ⟨hret, _, _, _, hrest⟩
  · have hne : r.1.ret ≠ 0 := by rw [hret]; decide
    rw [hw]
    cases h with
    | none => exact .unchanged trivial ⟨rfl, rfl, rfl⟩
    | some p => exact .unchanged trivial ⟨rfl, by rw [hsig p rfl, if_neg hne], rfl⟩
  · obtain ⟨hwatch, hcount⟩ := reportError_spec w.kernel s
    rcases hrest with ⟨rfl, hw⟩ | ⟨p, o, rfl, hw, ho⟩
    · rw [hw]
      exact .quiet ⟨rfl, rfl, rfl⟩ (.of_eq trivial rfl rfl rfl) hwatch hcount rfl
    · cases hp : w.events.cell p with
      | none => simp [wsaResetEvent, hp] at ho
      | some event =>
        -- the reset runs on the kernel without the pending error
        have hflag : CounterIsFlag (reportError w.kernel s).2 event := by
          show Kernel.counter _ _ = _
          rw [hcount]
          exact hi.events.flag p event hp
        have hspec := wsaResetEvent_spec
          (w := { w with kernel := (reportError w.kernel s).2 }) hp hflag
        obtain ⟨w₁, hreset, hs⟩ := hspec
        obtain rfl := Option.some.inj (hreset.symm.trans ho)
        rw [hw]
        refine .signalled p event false ⟨rfl, ?_, rfl⟩
          (.of_eq trivial hs.maps hs.head hs.monitor) hp ?_ (fun g => ?_) hs.events
        · rw [hsig p rfl, if_pos hret]
        · exact hwatch.trans hs.watch
        · rw [hs.counter, hcount]

/-- The effect of a call that closes a socket. -/
theorem effect_closing {l : Label} {s : SOCKET} (hclosable : closable w.kernel s = true)
    (hs : (w.kernel.file s).isSome) (hcloses : closes w l = some s)
    (hsig : signals w l = none) (hreg : registers w l = none) (hl : l.NotSelect) :
    Effect w l { w with kernel := w.kernel.close s } := by
  obtain ⟨o, ho⟩ := Option.isSome_iff_exists.mp hs
  refine .socketClosed s ⟨hcloses, hsig, hreg⟩ (.of_eq hl rfl rfl rfl) ?_ rfl rfl
  obtain ⟨id, nb, kind⟩ := o
  cases kind with
  | socket r err => exact ⟨id, nb, r, err, ho⟩
  | epoll I => simp [closable, ho, OpenFile.socketState] at hclosable
  | eventfd c => simp [closable, ho, OpenFile.socketState] at hclosable

theorem effect_monitor (hi : Inv w) {p : Addr} {answer : EpollAnswer}
    (h : next w (.monitor p answer) = some w') : Effect w (.monitor p answer) w' := by
  obtain ⟨pc, m, hpc, _, hmove⟩ := monitorStep_cases h
  have hsome : w.monitor p ≠ none := by rw [hpc]; exact Option.some_ne_none pc
  -- all moves but the call of `WSASetEvent` only change the place of the thread
  have hquiet : ∀ pc', (∀ e rev left, pc ≠ .call (some e) rev left) →
      Effect w (.monitor p answer) (w.setMonitor p pc') := by
    intro pc' hnot
    have hsig : signals w (.monitor p answer) = none := by
      simp only [signals, hpc]
      split
      · rename_i e rev left heq
        exact absurd (Option.some.inj heq) (hnot e rev left)
      · rfl
    exact .quiet ⟨rfl, hsig, rfl⟩ (.setMonitor rfl rfl rfl hsome) (SameWatch.refl _)
      (fun _ => rfl) rfl
  cases hmove with
  | @signal event rev left o ho =>
    cases event with
    | none =>
      obtain rfl := Option.some.inj ho
      exact hquiet _ (fun e rev' left' => by simp)
    | some e =>
      cases he : w.events.cell e with
      | none => simp [wsaSetEvent, he] at ho
      | some event =>
        obtain ⟨w₁, hset, hs⟩ := wsaSetEvent_spec he (hi.events.flag e event he)
        obtain rfl := Option.some.inj (hset.symm.trans ho)
        have hsig : signals w (.monitor p answer) = some (e, true) := by
          simp only [signals, hpc]
        exact .signalled e event true ⟨rfl, hsig, rfl⟩
          (.setMonitor hs.maps hs.head hs.monitor hsome) he hs.watch hs.counter hs.events
  | test => exact hquiet _ (fun _ _ _ => by simp)
  | interrupted => exact hquiet _ (fun _ _ _ => by simp)
  | failed => exact hquiet _ (fun _ _ _ => by simp)
  | returned _ => exact hquiet _ (fun _ _ _ => by simp)
  | done => exact hquiet _ (fun _ _ _ => by simp)
  | skip _ => exact hquiet _ (fun _ _ _ => by simp)
  | check _ => exact hquiet _ (fun _ _ _ => by simp)
  | read => exact hquiet _ (fun _ _ _ => by simp)

end Steps

/-- A step that registers something is a call of `WSAEventSelect` with these arguments. -/
theorem label_of_registers {w : World} {l : Label} {s : SOCKET} {h : WSAEVENT} {mask : BitVec 64}
    (hreg : registers w l = some (s, h, mask)) : ∃ a, l = .eventSelect a s h mask := by
  cases l with
  | eventSelect a s' h' mask' =>
    simp only [registers] at hreg
    split at hreg
    · obtain ⟨rfl, rfl, rfl⟩ := Option.some.inj hreg
      exact ⟨a, rfl⟩
    · cases hreg
  | _ => cases hreg

/-- What a call of `WSAEventSelect` that registers `(s, h, mask)` does. -/
inductive Registration (w w' : World) (s : SOCKET) (h : WSAEVENT) (mask : BitVec 64) : Prop
  | updated (p : Addr) (m : SocketEventMap) (live : w.maps.cell p = some m) (sock : m.sock = s)
      (kernel : w'.kernel = w.kernel) (events : w'.events = w.events)
      (maps : w'.maps = w.maps.put p { m with event := h, networkEvents := mask })
      (monitor : w'.monitor = w.monitor)
  | created (map : Addr) (epollFd : Fd)
      (unmapped : ∀ p m, w.maps.cell p = some m → m.sock ≠ s)
      (created : Created w w' map epollFd s h mask)

/-- A step that registers something updates the socket's mapping or makes one. -/
theorem Effect.registration {w w' : World} {l : Label} (he : Effect w l w') {s : SOCKET}
    {h : WSAEVENT} {mask : BitVec 64} (hreg : registers w l = some (s, h, mask)) :
    Registration w w' s h mask := by
  -- the six other effects register nothing
  have hnone : registers w l ≠ none := by rw [hreg]; exact Option.some_ne_none _
  cases he with
  | updated s' h' mask' p m marks live sock kernel events maps _ monitor =>
    obtain ⟨rfl, rfl, rfl⟩ := Option.some.inj (hreg.symm.trans marks.registers)
    exact .updated p m live sock kernel events maps monitor
  | created s' h' mask' map epollFd marks unmapped created =>
    obtain ⟨rfl, rfl, rfl⟩ := Option.some.inj (hreg.symm.trans marks.registers)
    exact .created map epollFd unmapped created
  | quiet marks => exact absurd marks.registers hnone
  | signalled _ _ _ marks => exact absurd marks.registers hnone
  | eventCreated _ _ marks => exact absurd marks.registers hnone
  | eventClosed _ _ marks => exact absurd marks.registers hnone
  | socketOpened _ _ marks => exact absurd marks.registers hnone
  | socketClosed _ marks => exact absurd marks.registers hnone

/-- **All that a step can do.** -/
theorem effect_of_next {w w' : World} {l : Label} (hi : Inv w) (h : next w l = some w') :
    Effect w l w' := by
  cases l with
  | createEvent a => exact effect_createEvent hi h
  | closeEvent hEvent => exact effect_closeEvent h
  | setEvent hEvent => exact effect_setEvent hi h
  | resetEvent hEvent => exact effect_resetEvent hi h
  | waitForMultipleEvents select c hs t =>
    obtain ⟨o, ho, rfl⟩ := Option.map_eq_some_iff.mp h
    rw [wsaWaitForMultipleEvents_world ho]
    exact .unchanged trivial ⟨rfl, rfl, rfl⟩
  | eventSelect a s hEvent mask => exact effect_eventSelect hi h
  | enumNetworkEvents s hEvent hasOut => exact effect_enumNetworkEvents hi h
  | socket fd nb =>
    simp only [next] at h
    split at h
    · rename_i hfree
      obtain rfl := Option.some.inj h
      exact .socketOpened fd nb ⟨rfl, rfl, rfl⟩ (.of_eq trivial rfl rfl rfl)
        (Option.isNone_iff_eq_none.mp hfree.2) rfl rfl
    · cases h
  | closesocket s =>
    simp only [next] at h
    split at h
    · rename_i hclosable
      obtain rfl := Option.some.inj h
      -- a number that is not open is not closed
      cases hs : w.kernel.file s with
      | none =>
        have hcloses : closes w (.closesocket s) = none := by simp only [closes, hs, Option.map_none]
        simp only [closesocket, hs]
        exact .unchanged trivial ⟨hcloses, rfl, rfl⟩
      | some o =>
        have hcloses : closes w (.closesocket s) = some s := by simp only [closes, hs, Option.map_some]
        simp only [closesocket, hs]
        exact effect_closing hclosable (by rw [hs]; rfl) hcloses rfl rfl trivial
    · cases h
  | disconnectEx ok s flags =>
    simp only [next] at h
    split at h
    · rename_i hpre
      obtain rfl := Option.some.inj h
      cases ok with
      | false => exact .unchanged trivial ⟨rfl, rfl, rfl⟩
      | true =>
        -- with the flag the socket is shut down but stays open
        by_cases hflags : flags &&& TF_REUSE_SOCKET = 0
        · have hcloses : closes w (.disconnectEx true s flags) = some s := if_pos ⟨rfl, hflags⟩
          have hw : (disconnectEx true w s flags).world = { w with kernel := w.kernel.close s } :=
            congrArg Outcome.world (if_pos hflags)
          rw [hw]
          exact effect_closing hpre.1 (hpre.2 rfl) hcloses rfl rfl trivial
        · have hcloses : closes w (.disconnectEx true s flags) = none :=
            if_neg (fun hand => hflags hand.2)
          have hw : (disconnectEx true w s flags).world = w :=
            congrArg Outcome.world (if_neg hflags)
          rw [hw]
          exact .unchanged trivial ⟨hcloses, rfl, rfl⟩
    · cases h
  | network fd ready error =>
    obtain ⟨k, hk, rfl⟩ := Option.map_eq_some_iff.mp h
    obtain ⟨hwatch, hcount⟩ := setSocket_spec hk
    exact .quiet ⟨rfl, rfl, rfl⟩ (.of_eq trivial rfl rfl rfl) hwatch hcount rfl
  | monitor p answer => exact effect_monitor hi h

end LinuxWinsock
