import LinuxWinsock.Kernel
import LinuxWinsock.Lib.LinkedList

namespace LinuxWinsock

/-!
# The state of the event functions

`wsa_events.c` keeps its state in heap records (events and socket mappings), the global
list `g_socket_event_map`, one monitor thread for each mapping, and the kernel objects
they hold descriptors of.  `World` is that state; every API function of the file is a
function on it.  A function that would dereference a pointer to memory that is not
allocated returns `none`: it has no defined behaviour there.
-/

/-- `WSAEVENT`, a pointer to a `WSAEventStruct`; `none` is `NULL`. -/
abbrev WSAEVENT := Option Addr

/-- The event record.  Its mutex makes each function's critical section atomic. -/
structure WSAEventStruct where
  eventfd : Fd
  signaled : Bool
  deriving DecidableEq

/-- The record that ties a socket to its event, its monitor's `epoll` instance and the
    next record of the list. -/
structure SocketEventMap where
  sock : SOCKET
  event : WSAEVENT
  networkEvents : BitVec 64
  epollFd : Fd
  running : Bool
  next : Option Addr
  deriving DecidableEq

/-- Where a mapping's monitor thread stands.  An entry of a batch is the `events` word that
    `epoll_wait` stored for it. -/
inductive MonitorPc where
  /-- About to test `map->running`. -/
  | top
  /-- About to call `epoll_wait`. -/
  | wait
  /-- In the `for` loop, with these entries of the batch left. -/
  | batch (left : List (BitVec 32))
  /-- `map->event` was read for the entry `rev` and was not `NULL`. -/
  | checked (rev : BitVec 32) (left : List (BitVec 32))
  /-- `map->event` was read again, and `WSASetEvent` is called with what was read. -/
  | call (event : WSAEVENT) (rev : BitVec 32) (left : List (BitVec 32))
  /-- The thread has returned. -/
  | exited
  deriving DecidableEq

/-- The state of the process as far as `wsa_events.c` sees it. -/
structure World where
  kernel : Kernel
  events : Heap WSAEventStruct
  maps : Heap SocketEventMap
  gSocketEventMap : Option Addr
  monitor : Addr → Option MonitorPc

/-- What a call leaves behind: the state, its return value and `g_wsa_last_error` of the
    calling thread. -/
structure Outcome (ρ : Type) where
  world : World
  ret : ρ
  lastError : Int

namespace World

/-- The list of mappings is `l`, from its head on. -/
def MapList (w : World) (l : List Addr) : Prop :=
  LinkedList.Chain SocketEventMap.next w.maps w.gSocketEventMap l

/-- The state before the first call: nothing is open and nothing is allocated. -/
def start : World where
  kernel := ⟨fun _ => none, 0⟩
  events := Heap.empty
  maps := Heap.empty
  gSocketEventMap := none
  monitor := fun _ => none

end World

end LinuxWinsock
