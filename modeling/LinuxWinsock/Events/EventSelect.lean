import LinuxWinsock.Events.Event

namespace LinuxWinsock

open Kernel LinkedList

/-!
# `WSAEventSelect`, `WSAEnumNetworkEvents` and the closing of a socket

The functions that tie sockets to events.  `wsaEventSelect` looks the socket up in
`g_socket_event_map` and either changes the mapping it finds or makes a new one, with its
own `epoll` instance and monitor thread; each of the four ways the second path can fail
has its own undo.

`wsaEventSelect_cases` says once what a call can do to a list of mappings, and every
invariant of the list is proved from it.
-/

/-! ### The translation of network events to `epoll` conditions -/

/-- The interest mask `WSAEventSelect` registers for a set of network events. -/
def epollEvents (lNetworkEvents : BitVec 64) : BitVec 32 :=
  (if lNetworkEvents &&& (FD_READ ||| FD_ACCEPT) ≠ 0 then EPOLLIN else 0) |||
  (if lNetworkEvents &&& (FD_WRITE ||| FD_CONNECT) ≠ 0 then EPOLLOUT else 0) |||
  (if lNetworkEvents &&& FD_OOB ≠ 0 then EPOLLPRI else 0) |||
  (if lNetworkEvents &&& FD_CLOSE ≠ 0 then EPOLLRDHUP else 0)

/-! ### `WSAEventSelect` -/

/-- What `malloc`, `epoll_create1`, `epoll_ctl` and `pthread_create` answer during one call
    of `WSAEventSelect`; `none` and `false` are failures. -/
structure SelectAnswers where
  malloc : Option Addr
  epollCreate1 : Option Fd
  epollCtl : Bool
  pthreadCreate : Bool

/-- The memory handed out is free, and so is the descriptor. -/
def SelectAnswers.possible (a : SelectAnswers) (w : World) : Bool :=
  a.malloc.all (fun p => (w.maps.cell p).isNone) &&
    a.epollCreate1.all (fun fd => decide (0 ≤ fd) && (w.kernel.file fd).isNone)

/-- A record as `malloc` returns it, before its fields are assigned. -/
def SocketEventMap.uninit : SocketEventMap := ⟨0, none, 0, 0, false, none⟩

/-- `WSAEventSelect` from "Create new mapping" on. -/
def createMapping (a : SelectAnswers) (w : World) (s : SOCKET) (hEventObject : WSAEVENT)
    (lNetworkEvents : BitVec 64) : Outcome Int :=
  match a.malloc with
  | none => ⟨w, SOCKET_ERROR, WSA_NOT_ENOUGH_MEMORY⟩
  | some map =>
    let maps := w.maps.put map SocketEventMap.uninit
    -- from here on every failure exit frees the record
    match a.epollCreate1 with
    | none => ⟨{ w with maps := maps.free map }, SOCKET_ERROR, WSAENETDOWN⟩
    | some epollFd =>
      let k := w.kernel.openAt epollFd false (.epoll fun _ => none)
      match if a.epollCtl then k.epollCtlAdd epollFd s (epollEvents lNetworkEvents) else none with
      | none =>
        ⟨{ w with kernel := k.close epollFd, maps := maps.free map }, SOCKET_ERROR, WSAENETDOWN⟩
      | some k' =>
        let node : SocketEventMap :=
          { sock := s, event := hEventObject, networkEvents := lNetworkEvents,
            epollFd := epollFd, running := true, next := w.gSocketEventMap }
        let maps' := maps.put map node
        if a.pthreadCreate then
          -- the socket is made non-blocking after the mutex is released
          ⟨{ w with kernel := k'.setNonblock s, maps := maps', gSocketEventMap := some map,
                    monitor := fun p => if p = map then some .top else w.monitor p }, 0, 0⟩
        else
          -- the record is already at the head, so it is unlinked before it is freed
          ⟨{ w with kernel := k'.close epollFd, maps := maps'.free map,
                    gSocketEventMap := node.next }, SOCKET_ERROR, WSAENETDOWN⟩

/-- The search loop that `WSAEventSelect` and `WSAEnumNetworkEvents` share. -/
def findMapping (w : World) (s : SOCKET) : Option (Option Addr) :=
  search SocketEventMap.next w.maps (fun m => decide (m.sock = s)) w.gSocketEventMap

def wsaEventSelect (a : SelectAnswers) (w : World) (s : SOCKET) (hEventObject : WSAEVENT)
    (lNetworkEvents : BitVec 64) : Option (Outcome Int) :=
  match findMapping w s with
  | none => none
  | some none => some (createMapping a w s hEventObject lNetworkEvents)
  | some (some p) =>
    match w.maps.cell p with
    | none => none
    | some existing =>
      -- the update path: the record changes, the kernel is not told
      some ⟨{ w with maps := w.maps.put p { existing with
                event := hEventObject, networkEvents := lNetworkEvents } }, 0, 0⟩

/-! ### What a call can do -/

/-- No mapping of the list is for `s`. -/
def Unmapped (w : World) (l : List Addr) (s : SOCKET) : Prop :=
  ∀ p ∈ l, ∀ m, w.maps.cell p = some m → m.sock ≠ s

/-- The call changed nothing: what it opened is closed and what it allocated is freed. -/
structure Undone (w w' : World) : Prop where
  file : w'.kernel.file = w.kernel.file
  nextId : w.kernel.nextId ≤ w'.kernel.nextId
  maps : w'.maps = w.maps
  head : w'.gSocketEventMap = w.gSocketEventMap
  events : w'.events = w.events
  monitor : w'.monitor = w.monitor

/-- The call made a mapping: a record at `map` at the head of the list, with the `epoll`
    instance `epollFd` that watches the socket for the translated mask, and a monitor. -/
structure Created (w w' : World) (map : Addr) (epollFd : Fd) (s : SOCKET) (h : WSAEVENT)
    (mask : BitVec 64) : Prop where
  fresh : w.maps.cell map = none
  free : w.kernel.file epollFd = none
  isOpen : w.kernel.file s ≠ none
  maps : w'.maps = w.maps.put map ⟨s, h, mask, epollFd, true, w.gSocketEventMap⟩
  head : w'.gSocketEventMap = some map
  events : w'.events = w.events
  monitor : w'.monitor = fun p => if p = map then some .top else w.monitor p
  interest : ∀ e f, w'.kernel.interest e f =
    if e = epollFd then (if f = s then some (epollEvents mask) else none)
    else w.kernel.interest e f
  isEpoll : ∀ e, w'.kernel.isEpoll e = if e = epollFd then true else w.kernel.isEpoll e
  counter : ∀ g, w'.kernel.counter g = w.kernel.counter g
  objectId : ∀ g, g ≠ epollFd → w'.kernel.objectId g = w.kernel.objectId g
  objectId_self : w'.kernel.objectId epollFd = some w.kernel.nextId
  nextId : w'.kernel.nextId = w.kernel.nextId + 1
  nonblock : w'.kernel.nonblock s = true
  nonblock_mono : ∀ g, w.kernel.nonblock g = true → w'.kernel.nonblock g = true

/-- The search loop, on a list that ends, finds the socket's mapping or finds that there is
    none. -/
theorem findMapping_cases {w : World} {l : List Addr} (hl : w.MapList l) (s : SOCKET) :
    (∃ p m, p ∈ l ∧ w.maps.cell p = some m ∧ m.sock = s ∧ findMapping w s = some (some p)) ∨
    (Unmapped w l s ∧ findMapping w s = some none) := by
  have hfind := search_eq_find? hl (fun m => decide (m.sock = s))
  cases hs : l.find? (fun a => (w.maps.cell a).any (fun m => decide (m.sock = s))) with
  | some p =>
    rw [hs] at hfind
    obtain ⟨hp, m, hm, hms⟩ := mem_of_search_eq_some hl hfind
    exact .inl ⟨p, m, hp, hm, of_decide_eq_true hms, hfind⟩
  | none =>
    rw [hs] at hfind
    refine .inr ⟨fun p hp m hm => ?_, hfind⟩
    exact of_decide_eq_false (not_of_search_eq_none hl hfind hp hm)

/-- The successful end of the create path. -/
theorem created_of_epollCtlAdd {w : World} {map : Addr} {epollFd : Fd} {s : SOCKET}
    {h : WSAEVENT} {mask : BitVec 64} {k : Kernel} (hmap : w.maps.cell map = none)
    (hfd : w.kernel.file epollFd = none)
    (hk : (w.kernel.openAt epollFd false (.epoll fun _ => none)).epollCtlAdd epollFd s
      (epollEvents mask) = some k) :
    Created w
      { w with
        kernel := k.setNonblock s
        maps := (w.maps.put map SocketEventMap.uninit).put map
          ⟨s, h, mask, epollFd, true, w.gSocketEventMap⟩
        gSocketEventMap := some map
        monitor := fun p => if p = map then some .top else w.monitor p }
      map epollFd s h mask := by
  obtain ⟨hne, hopen, id, nb, I, hf, rfl⟩ := epollCtlAdd_eq_some hk
  rw [openAt_file, if_pos rfl, Option.some.injEq, OpenFile.mk.injEq] at hf
  obtain ⟨rfl, rfl, hI⟩ := hf
  obtain rfl := FileKind.epoll.inj hI
  rw [openAt_file, if_neg hne] at hopen
  -- the table before `fcntl`: the new instance, and everything else as it was
  have hfile : ∀ g, (((w.kernel.openAt epollFd false (.epoll fun _ => none)).set epollFd
      ⟨w.kernel.nextId, false,
        .epoll (fun g => if g = s then some (epollEvents mask) else none)⟩).file g) =
      if g = epollFd then
        some ⟨w.kernel.nextId, false,
          .epoll (fun g => if g = s then some (epollEvents mask) else none)⟩
      else w.kernel.file g := by
    intro g
    rw [set_file, openAt_file]
    split <;> rfl
  constructor
  case fresh => exact hmap
  case free => exact hfd
  case isOpen => exact hopen
  case maps =>
    ext1 q
    by_cases hq : q = map
    · simp [hq]
    · simp only [Heap.put_cell, if_neg hq]
  case head => rfl
  case events => rfl
  case monitor => rfl
  case interest =>
    intro e f
    rw [setNonblock_interest, Kernel.interest, hfile]
    split <;> rfl
  case isEpoll =>
    intro e
    rw [setNonblock_isEpoll, Kernel.isEpoll, hfile]
    split <;> rfl
  case counter =>
    intro g
    rw [setNonblock_counter, Kernel.counter, hfile]
    by_cases hg : g = epollFd
    · rw [if_pos hg, hg, Kernel.counter, hfd]; rfl
    · rw [if_neg hg]; rfl
  case objectId =>
    intro g hg
    rw [setNonblock_objectId, Kernel.objectId, hfile, if_neg hg]; rfl
  case objectId_self =>
    rw [setNonblock_objectId, Kernel.objectId, hfile, if_pos rfl]; rfl
  case nextId =>
    rw [setNonblock_nextId]; rfl
  case nonblock =>
    rw [setNonblock_nonblock, hfile, if_neg hne]
    simp [Option.isSome_iff_ne_none.mpr hopen]
  case nonblock_mono =>
    intro g hg
    have hgfd : g ≠ epollFd := by
      rintro rfl
      rw [Kernel.nonblock, hfd] at hg; cases hg
    rw [setNonblock_nonblock, Kernel.nonblock, hfile, if_neg hgfd, ← Kernel.nonblock, hg]
    rfl

/-- **What a call of `WSAEventSelect` can do** to a list of mappings that ends: it returns,
    and it changed the socket's mapping in place, or made a mapping for a socket that had
    none, or failed and undid everything it had done. -/
theorem wsaEventSelect_cases {w : World} {l : List Addr} (hl : w.MapList l)
    (hk : w.kernel.Clean) {a : SelectAnswers} (ha : a.possible w = true) (s : SOCKET)
    (h : WSAEVENT) (mask : BitVec 64) :
    ∃ o, wsaEventSelect a w s h mask = some o ∧
    ((∃ p m, p ∈ l ∧ w.maps.cell p = some m ∧ m.sock = s ∧
        o = ⟨{ w with maps := w.maps.put p { m with event := h, networkEvents := mask } },
          0, 0⟩) ∨
      (Unmapped w l s ∧ o.ret = 0 ∧ ∃ map epollFd, Created w o.world map epollFd s h mask) ∨
      (Unmapped w l s ∧ o.ret = SOCKET_ERROR ∧ o.lastError ≠ 0 ∧ Undone w o.world)) := by
  simp only [SelectAnswers.possible, Bool.and_eq_true] at ha
  obtain ⟨hmalloc, hcreate⟩ := ha
  rcases findMapping_cases hl s with ⟨p, m, hp, hm, hms, hsearch⟩ | ⟨hun, hsearch⟩
  · refine ⟨_, ?_, .inl ⟨p, m, hp, hm, hms, rfl⟩⟩
    simp only [wsaEventSelect, hsearch, hm]
  refine ⟨createMapping a w s h mask, by simp only [wsaEventSelect, hsearch], .inr ?_⟩
  unfold createMapping
  -- no failure exit leaves `g_wsa_last_error` at 0
  have hmem : WSA_NOT_ENOUGH_MEMORY ≠ 0 := by decide
  have hnet : WSAENETDOWN ≠ 0 := by decide
  cases hma : a.malloc with
  | none => exact .inr ⟨hun, rfl, hmem, ⟨rfl, le_refl _, rfl, rfl, rfl, rfl⟩⟩
  | some map =>
    have hfresh : w.maps.cell map = none := by simpa [hma] using hmalloc
    have hfreed := Heap.free_put_of_fresh w.maps SocketEventMap.uninit hfresh
    cases hec : a.epollCreate1 with
    | none => exact .inr ⟨hun, rfl, hnet, ⟨rfl, le_refl _, hfreed, rfl, rfl, rfl⟩⟩
    | some epollFd =>
      have hfd : w.kernel.file epollFd = none := by
        simp only [hec, Option.all_some, Bool.and_eq_true] at hcreate
        exact Option.isNone_iff_eq_none.mp hcreate.2
      have hclosed := close_openAt_file hk hfd false (.epoll fun _ => none)
      dsimp only
      split
      · exact .inr ⟨hun, rfl, hnet, ⟨hclosed, Nat.le_succ _, hfreed, rfl, rfl, rfl⟩⟩
      · rename_i k hadd
        have hadd' : (w.kernel.openAt epollFd false (.epoll fun _ => none)).epollCtlAdd epollFd s
            (epollEvents mask) = some k := by
          split at hadd
          · exact hadd
          · cases hadd
        split
        · exact .inl ⟨hun, rfl, map, epollFd, created_of_epollCtlAdd hfresh hfd hadd'⟩
        · refine .inr ⟨hun, rfl, hnet, ⟨?_, ?_, ?_, rfl, rfl, rfl⟩⟩
          · -- closing the instance undoes both its opening and the change to its set
            rw [← hclosed]
            obtain ⟨_, _, id, nb, I, _, rfl⟩ := epollCtlAdd_eq_some hadd'
            funext g
            rw [close_file, close_file, set_file]
            split
            · rfl
            · rfl
          · obtain ⟨_, _, id, nb, I, _, rfl⟩ := epollCtlAdd_eq_some hadd'
            exact Nat.le_succ _
          · ext1 q
            by_cases hq : q = map
            · simp [hq, hfresh]
            · simp only [Heap.free_cell, Heap.put_cell, if_neg hq]

/-! ### `WSAEnumNetworkEvents` -/

structure WSANETWORKEVENTS where
  lNetworkEvents : BitVec 64
  iErrorCode : Fin FD_MAX_EVENTS → Int

/-- The record after `memset(lpNetworkEvents, 0, sizeof(WSANETWORKEVENTS))`. -/
def WSANETWORKEVENTS.zero : WSANETWORKEVENTS := ⟨0, fun _ => 0⟩

/-- The report for a pending error, and the kernel after `getsockopt` took it. -/
def reportError (k : Kernel) (s : SOCKET) : WSANETWORKEVENTS × Kernel :=
  match k.takeError s with
  | some (error, k') =>
    if error ≠ 0 then
      (⟨WSANETWORKEVENTS.zero.lNetworkEvents ||| FD_CONNECT,
        fun i => if i.val = FD_CONNECT_BIT then error else WSANETWORKEVENTS.zero.iErrorCode i⟩, k')
    else (WSANETWORKEVENTS.zero, k')
  | none => (WSANETWORKEVENTS.zero, k)

/-- The result comes with the record at `lpNetworkEvents` after the call; `hasOut` is false
    for a `NULL` pointer. -/
def wsaEnumNetworkEvents (w : World) (s : SOCKET) (hEventObject : WSAEVENT) (hasOut : Bool) :
    Option (Outcome Int × WSANETWORKEVENTS) :=
  if hasOut then
    match findMapping w s with
    | none => none
    | some none => some (⟨w, SOCKET_ERROR, WSAEINVAL⟩, WSANETWORKEVENTS.zero)
    | some (some _) =>
      -- the mapping found is not read: neither its mask nor its `epoll` instance
      let w' := { w with kernel := (reportError w.kernel s).2 }
      match hEventObject with
      | none => some (⟨w', 0, 0⟩, (reportError w.kernel s).1)
      | some _ =>
        -- the result of the reset is dropped
        (wsaResetEvent w' hEventObject).map
          (fun o => (⟨o.world, 0, 0⟩, (reportError w.kernel s).1))
  else some (⟨w, SOCKET_ERROR, WSAEFAULT⟩, WSANETWORKEVENTS.zero)

/-- Taking the pending error is seen by no `epoll` set and no event. -/
theorem reportError_spec (k : Kernel) (s : SOCKET) :
    SameWatch k (reportError k s).2 ∧ ∀ g, (reportError k s).2.counter g = k.counter g := by
  unfold reportError
  split
  · rename_i hk
    have hspec := takeError_spec hk
    split
    · exact hspec
    · exact hspec
  · exact ⟨SameWatch.refl k, fun _ => rfl⟩

/-- An error is pending on the socket open at `s`. -/
def errorPending (k : Kernel) (s : SOCKET) : Prop :=
  ∃ r err, k.socketAt s = some (r, err) ∧ err ≠ 0

/-- The report is `FD_CONNECT` if an error is pending, and empty otherwise. -/
theorem reportError_events (k : Kernel) (s : SOCKET) :
    (errorPending k s ∧ (reportError k s).1.lNetworkEvents = FD_CONNECT) ∨
      (¬ errorPending k s ∧ (reportError k s).1.lNetworkEvents = 0) := by
  have hzero : WSANETWORKEVENTS.zero.lNetworkEvents ||| FD_CONNECT = FD_CONNECT := by decide
  unfold reportError errorPending socketAt takeError
  cases hf : k.file s with
  | none => exact .inr ⟨by simp, rfl⟩
  | some o =>
    obtain ⟨id, nb, kind⟩ := o
    cases kind with
    | epoll I => exact .inr ⟨by simp [OpenFile.socketState], rfl⟩
    | eventfd c => exact .inr ⟨by simp [OpenFile.socketState], rfl⟩
    | socket r err =>
      by_cases herr : err = 0
      · exact .inr ⟨by simp [OpenFile.socketState, herr], by simp [herr, WSANETWORKEVENTS.zero]⟩
      · exact .inl ⟨⟨r, err, rfl, herr⟩, by simp [herr, hzero]⟩

/-- **What a call of `WSAEnumNetworkEvents` can do**: fail and change nothing, or report
    the pending error of a socket that has a mapping and then reset the event, if one is
    given. -/
theorem wsaEnumNetworkEvents_cases {w : World} {l : List Addr} (hl : w.MapList l) {s : SOCKET}
    {h : WSAEVENT} {hasOut : Bool} {r : Outcome Int × WSANETWORKEVENTS}
    (hr : wsaEnumNetworkEvents w s h hasOut = some r) :
    (r.1.ret = SOCKET_ERROR ∧ r.1.world = w ∧ (hasOut = false ∨ Unmapped w l s)) ∨
    (r.1.ret = 0 ∧ hasOut = true ∧ r.2 = (reportError w.kernel s).1 ∧
      (∃ p ∈ l, ∃ m, w.maps.cell p = some m ∧ m.sock = s) ∧
      ((h = none ∧ r.1.world = { w with kernel := (reportError w.kernel s).2 }) ∨
        ∃ p o, h = some p ∧ r.1.world = o.world ∧
          wsaResetEvent { w with kernel := (reportError w.kernel s).2 } (some p) = some o)) := by
  unfold wsaEnumNetworkEvents at hr
  split at hr
  · rename_i hout
    rcases findMapping_cases hl s with ⟨p, m, hp, hm, hms, hfind⟩ | ⟨hun, hfind⟩
    · have hmap : ∃ p ∈ l, ∃ m, w.maps.cell p = some m ∧ m.sock = s := ⟨p, hp, m, hm, hms⟩
      rw [hfind] at hr
      cases h with
      | none =>
        obtain rfl := Option.some.inj hr
        exact .inr ⟨rfl, hout, rfl, hmap, .inl ⟨rfl, rfl⟩⟩
      | some q =>
        obtain ⟨o, ho, rfl⟩ := Option.map_eq_some_iff.mp hr
        exact .inr ⟨rfl, hout, rfl, hmap, .inr ⟨q, o, rfl, rfl, ho⟩⟩
    · rw [hfind] at hr
      obtain rfl := Option.some.inj hr
      exact .inl ⟨rfl, rfl, .inr hun⟩
  · rename_i hout
    obtain rfl := Option.some.inj hr
    exact .inl ⟨rfl, rfl, .inl (Bool.eq_false_of_not_eq_true hout)⟩

/-! ### `closesocket` and `DisconnectEx` -/

/-- The only error number of `close` here is `EBADF`. -/
def closesocket (w : World) (s : SOCKET) : Outcome Int :=
  match w.kernel.file s with
  | none => ⟨w, SOCKET_ERROR, WSAEBADF⟩
  | some _ => ⟨{ w with kernel := w.kernel.close s }, 0, 0⟩

/-- `shutdownOk` is whether `shutdown(s, SHUT_RDWR)` succeeds. -/
def disconnectEx (shutdownOk : Bool) (w : World) (s : SOCKET) (dwFlags : BitVec 32) :
    Outcome Bool :=
  if !shutdownOk then ⟨w, false, WSAENOTCONN⟩
  else if dwFlags &&& TF_REUSE_SOCKET = 0 then
    ⟨{ w with kernel := w.kernel.close s }, true, 0⟩
  else ⟨w, true, 0⟩

end LinuxWinsock
