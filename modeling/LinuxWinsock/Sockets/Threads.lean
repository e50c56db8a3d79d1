import LinuxWinsock.Events.EventSelect
import LinuxWinsock.Ext.Descriptors
import LinuxWinsock.Sockets.Inherit

namespace LinuxWinsock.Files

open Function Ext Sockets

/-!
# Threads that open and close sockets

The functions of `winsock2.c`, `wsa_extended.c` and `ms_extensions.c` that open, close or configure
sockets, called by any number of threads.  Those that make one system call that matters are one
step; `AcceptEx` makes its system calls one after the other, and other threads go on between them.

* `OpenFiles` — the descriptors, and the flags that the kernel keeps of them and of their sockets;
* `wsaSocketA`, `wsaSocketW`, `wsaAccept`, `wsaSocketPair`, `wsaConnect`, `closesocket`,
  `ioctlsocket`, `disconnectEx` — the functions;
* `wsaSocketA_descriptor`, `closesocket_sameOpen`, … — they are those of the other modules, seen
  there over less of the state;
* `next` — the steps of the threads.
-/

/-! ### The kernel -/

/-- What each descriptor refers to, whether an `exec` closes it, and whether a socket does not
    block. -/
structure OpenFiles where
  table : Descriptors Fd
  cloexec : Fd → Bool
  nonblock : Nat → Bool

namespace OpenFiles

variable (k : OpenFiles)

/-- A new socket at `fd`, with these flags. -/
def openAt (fd : Fd) (d : Descriptor) : OpenFiles where
  table := k.table.openAt fd
  cloexec := update k.cloexec fd d.cloexec
  nonblock := update k.nonblock k.table.next d.nonblock

/-- `dup2`, which does nothing for one and the same descriptor. -/
def dup2 (oldfd newfd : Fd) : OpenFiles :=
  if oldfd = newfd then k
  else { k with table := k.table.dup2 oldfd newfd, cloexec := update k.cloexec newfd false }

def close (fd : Fd) : OpenFiles := { k with table := k.table.close fd }

/-- The flags of a descriptor that is open. -/
def descriptor (fd : Fd) : Option Descriptor :=
  (k.table.file fd).map (fun f => ⟨k.nonblock f, k.cloexec fd⟩)

/-- The flag of the socket at `fd`. -/
def setNonblock (fd : Fd) (b : Bool) : OpenFiles :=
  match k.table.file fd with
  | some f => { k with nonblock := update k.nonblock f b }
  | none => k

def setCloexec (fd : Fd) (b : Bool) : OpenFiles := { k with cloexec := update k.cloexec fd b }

end OpenFiles

/-- The flags in the type of a socket. -/
def typeFlags (type : BitVec 32) : Descriptor where
  nonblock := decide (type &&& SOCK_NONBLOCK ≠ 0)
  cloexec := decide (type &&& SOCK_CLOEXEC ≠ 0)

def FIONBIO : BitVec 64 := 0x5421
def FIOCLEX : BitVec 64 := 0x5451
def FIONCLEX : BitVec 64 := 0x5450

/-- `ioctl` at an open descriptor that the kernel does not refuse: the requests that set flags. -/
def OpenFiles.ioctl (k : OpenFiles) (fd : Fd) (request : BitVec 64) (argp : BitVec 64) :
    OpenFiles :=
  -- the kernel reads an `int` at the address
  if request = FIONBIO then k.setNonblock fd (decide (argp.setWidth 32 ≠ 0))
  else if request = FIOCLEX then k.setCloexec fd true
  else if request = FIONCLEX then k.setCloexec fd false
  else k

/-! ### The functions -/

/-- What a call leaves behind: its result, the last error, and the descriptors. -/
structure Outcome (α : Type) where
  ret : α
  lastError : Int
  files : OpenFiles

variable (k : OpenFiles)

/-- `lpProtocolInfo` and `g` are not used; `af` and `protocol` go to the kernel only. -/
def wsaSocketA (_af type _protocol dwFlags : BitVec 32) (answer : Except Int Fd) :
    Outcome SOCKET :=
  match answer with
  | .error errno => ⟨INVALID_SOCKET, errnoToWsaError errno, k⟩
  | .ok fd => ⟨fd, 0, k.openAt fd (typeFlags (type ||| sockFlags dwFlags))⟩

def wsaSocketW (af type protocol dwFlags : BitVec 32) (answer : Except Int Fd) : Outcome SOCKET :=
  wsaSocketA k af type protocol dwFlags answer

/-- The result and the length at `addrlen`.  The kernel answers with a descriptor and the length of
    the address, which it stores itself; the new socket has none of the flags. -/
def wsaAccept (_s : SOCKET) (addrlen : Option (BitVec 32))
    (answer : Except Int (Fd × BitVec 32)) : Outcome (SOCKET × Option (BitVec 32)) :=
  match answer with
  | .error errno => ⟨(INVALID_SOCKET, addrlen), errnoToWsaError errno, k⟩
  | .ok (fd, len) => ⟨(fd, addrlen.map (fun _ => len)), 0, k.openAt fd ⟨false, false⟩⟩

/-- The result and the sockets at `socks`. -/
def wsaSocketPair (_af type _protocol : BitVec 32) (socks : SOCKET × SOCKET)
    (answer : Except Int (Fd × Fd)) : Outcome (Int × SOCKET × SOCKET) :=
  match answer with
  | .error errno => ⟨(SOCKET_ERROR, socks), errnoToWsaError errno, k⟩
  | .ok (fd, fd') =>
    ⟨(0, fd, fd'), 0, (k.openAt fd (typeFlags type)).openAt fd' (typeFlags type)⟩

/-- The kernel answers with an error number, or with none. -/
def wsaConnect (_s : SOCKET) (answer : Option Int) : Outcome Int :=
  match answer with
  | some errno => ⟨SOCKET_ERROR, errnoToWsaError errno, k⟩
  | none => ⟨0, 0, k⟩

def closesocket (s : SOCKET) : Outcome Int :=
  match k.table.file s with
  | none => ⟨SOCKET_ERROR, errnoToWsaError EBADF, k⟩
  | some _ => ⟨0, 0, k.close s⟩

/-- `argp` is what the argument points to, and `answer` what the kernel refuses an open descriptor
    with. -/
def ioctlsocket (s : SOCKET) (cmd argp : BitVec 64) (answer : Option Int) : Outcome Int :=
  match k.table.file s, answer with
  | none, _ => ⟨SOCKET_ERROR, errnoToWsaError EBADF, k⟩
  | some _, some errno => ⟨SOCKET_ERROR, errnoToWsaError errno, k⟩
  | some _, none => ⟨0, 0, k.ioctl s cmd argp⟩

/-- `shutdownOk` tells whether the connection is shut down; the result of `close` is not looked
    at. -/
def disconnectEx (s : SOCKET) (dwFlags : BitVec 32) (shutdownOk : Bool) : Outcome Bool :=
  if !shutdownOk then ⟨false, WSAENOTCONN, k⟩
  else if dwFlags &&& TF_REUSE_SOCKET = 0 then ⟨true, 0, k.close s⟩
  else ⟨true, 0, k⟩

/-- A system call of `AcceptEx`. -/
def OpenFiles.perform (answers : Answers) : Syscall → OpenFiles
  | .accept _ =>
    match answers.accept with
    | some (fd, _) => k.openAt fd ⟨false, false⟩
    | none => k
  | .dup2 oldfd newfd => if answers.dup2 then k.dup2 oldfd newfd else k
  | .close fd => k.close fd
  | .recv _ _ => k
  | .getsockname _ => k

/-! ### The same functions over other states -/

/-- What a call leaves behind, by the flags of the open descriptors only. -/
def Outcome.descriptors {α : Type} (o : Outcome α) : Sockets.Outcome α :=
  ⟨o.ret, o.lastError, o.files.descriptor⟩

@[simp] theorem descriptor_openAt (fd : Fd) (d : Descriptor) :
    (k.openAt fd d).descriptor = update k.descriptor fd (some d) := by
  funext g
  by_cases hg : g = fd
  · subst hg
    simp [OpenFiles.descriptor, OpenFiles.openAt]
  · simp only [OpenFiles.descriptor, OpenFiles.openAt, Descriptors.openAt_file, update_of_ne hg]
    cases hfile : k.table.file g with
    | none => rfl
    | some f =>
      -- the file of another descriptor is not the new one
      have hne : f ≠ k.table.next := fun h => k.table.file_ne_next g (h ▸ hfile)
      simp [hne]

@[simp] theorem descriptor_close (fd : Fd) :
    (k.close fd).descriptor = update k.descriptor fd none := by
  funext g
  by_cases hg : g = fd
  · subst hg
    simp [OpenFiles.descriptor, OpenFiles.close]
  · simp [OpenFiles.descriptor, OpenFiles.close, hg]

theorem wsaSocketA_descriptor (af type protocol dwFlags : BitVec 32) (answer : Except Int Fd) :
    Sockets.wsaSocketA af type protocol dwFlags answer k.descriptor =
      (wsaSocketA k af type protocol dwFlags answer).descriptors := by
  cases answer with
  | error errno => rfl
  | ok fd => simp [Sockets.wsaSocketA, socket, wsaSocketA, Outcome.descriptors, typeFlags]

theorem wsaSocketW_descriptor (af type protocol dwFlags : BitVec 32) (answer : Except Int Fd) :
    Sockets.wsaSocketW af type protocol dwFlags answer k.descriptor =
      (wsaSocketW k af type protocol dwFlags answer).descriptors :=
  wsaSocketA_descriptor k af type protocol dwFlags answer

theorem closesocket_descriptor (s : SOCKET) :
    Sockets.closesocket s k.descriptor = (closesocket k s).descriptors := by
  unfold Sockets.closesocket closesocket
  cases hfile : k.table.file s with
  | none => simp [OpenFiles.descriptor, hfile, Outcome.descriptors]
  | some f =>
    have hopen : k.descriptor s = some ⟨k.nonblock f, k.cloexec s⟩ := by
      simp [OpenFiles.descriptor, hfile]
    simp [hopen, Outcome.descriptors]

/-- The same descriptors are open in the state of the event system. -/
def SameOpen (w : LinuxWinsock.World) : Prop :=
  ∀ fd, w.kernel.file fd = none ↔ k.table.file fd = none

variable {k}

theorem SameOpen.close {w : LinuxWinsock.World} (h : SameOpen k w) (s : SOCKET) :
    SameOpen (k.close s) { w with kernel := w.kernel.close s } := by
  intro fd
  by_cases hfd : fd = s
  · simp [Kernel.close, OpenFiles.close, hfd]
  · simp [Kernel.close, OpenFiles.close, hfd, h fd]

/-- `closesocket` does the same there. -/
theorem closesocket_sameOpen {w : LinuxWinsock.World} (h : SameOpen k w) (s : SOCKET) :
    (LinuxWinsock.closesocket w s).ret = (closesocket k s).ret ∧
      (LinuxWinsock.closesocket w s).lastError = (closesocket k s).lastError ∧
      SameOpen (closesocket k s).files (LinuxWinsock.closesocket w s).world := by
  unfold LinuxWinsock.closesocket closesocket
  cases hfile : w.kernel.file s with
  | none =>
    rw [(h s).mp hfile]
    exact ⟨rfl, rfl, h⟩
  | some o =>
    have hopen : k.table.file s ≠ none := by
      intro hnone
      rw [← h s, hfile] at hnone
      cases hnone
    obtain ⟨f, hf⟩ := Option.ne_none_iff_exists'.mp hopen
    rw [hf]
    exact ⟨rfl, rfl, h.close s⟩

/-- `DisconnectEx` does the same there. -/
theorem disconnectEx_sameOpen {w : LinuxWinsock.World} (h : SameOpen k w) (s : SOCKET)
    (dwFlags : BitVec 32) (shutdownOk : Bool) :
    (LinuxWinsock.disconnectEx shutdownOk w s dwFlags).ret =
        (disconnectEx k s dwFlags shutdownOk).ret ∧
      (LinuxWinsock.disconnectEx shutdownOk w s dwFlags).lastError =
        (disconnectEx k s dwFlags shutdownOk).lastError ∧
      SameOpen (disconnectEx k s dwFlags shutdownOk).files
        (LinuxWinsock.disconnectEx shutdownOk w s dwFlags).world := by
  unfold LinuxWinsock.disconnectEx disconnectEx
  cases shutdownOk with
  | false => exact ⟨rfl, rfl, h⟩
  | true =>
    by_cases hflag : dwFlags &&& TF_REUSE_SOCKET = 0
    · simp only [hflag, if_true, Bool.not_true, Bool.false_eq_true, if_false]
      exact ⟨trivial, trivial, h.close s⟩
    · simp only [hflag, Bool.not_true, Bool.false_eq_true, if_false]
      exact ⟨trivial, trivial, h⟩

/-! ### The threads -/

/-- The arguments of `AcceptEx`, with what the kernel answers to its calls. -/
structure AcceptExArgs where
  answers : Answers
  sListenSocket : SOCKET
  sAcceptSocket : SOCKET
  lpOutputBuffer : Option Nat
  dwReceiveDataLength : BitVec 32
  dwLocalAddressLength : BitVec 32
  dwRemoteAddressLength : BitVec 32
  lpdwBytesReceived : Option (BitVec 32)
  mem : Memory

/-- What the call leaves behind, with the system calls that it makes. -/
def AcceptExArgs.run (a : AcceptExArgs) : Option Accepted :=
  acceptEx a.answers a.sListenSocket a.sAcceptSocket a.lpOutputBuffer a.dwReceiveDataLength
    a.dwLocalAddressLength a.dwRemoteAddressLength a.lpdwBytesReceived a.mem

/-- An `AcceptEx` in progress: the system calls that it has still to make. -/
structure Pending where
  answers : Answers
  calls : List Syscall

/-- The process: its descriptors, and the threads that are inside `AcceptEx`. -/
structure World where
  files : OpenFiles
  pending : Nat → Option Pending

/-- A step of the thread `tid`, with the kernel's answer. -/
inductive Label where
  | wsaSocketA (tid : Nat) (af type protocol dwFlags : BitVec 32) (answer : Except Int Fd)
  | wsaSocketW (tid : Nat) (af type protocol dwFlags : BitVec 32) (answer : Except Int Fd)
  | wsaAccept (tid : Nat) (s : SOCKET) (addrlen : Option (BitVec 32))
      (answer : Except Int (Fd × BitVec 32))
  | wsaSocketPair (tid : Nat) (af type protocol : BitVec 32) (socks : SOCKET × SOCKET)
      (answer : Except Int (Fd × Fd))
  | wsaConnect (tid : Nat) (s : SOCKET) (answer : Option Int)
  | closesocket (tid : Nat) (s : SOCKET)
  | ioctlsocket (tid : Nat) (s : SOCKET) (cmd argp : BitVec 64) (answer : Option Int)
  | disconnectEx (tid : Nat) (s : SOCKET) (dwFlags : BitVec 32) (shutdownOk : Bool)
  /-- `AcceptEx` is called. -/
  | acceptEx (tid : Nat) (args : AcceptExArgs)
  /-- Its next system call is made. -/
  | syscall (tid : Nat)

def Label.tid : Label → Nat
  | .wsaSocketA tid .. => tid
  | .wsaSocketW tid .. => tid
  | .wsaAccept tid .. => tid
  | .wsaSocketPair tid .. => tid
  | .wsaConnect tid .. => tid
  | .closesocket tid .. => tid
  | .ioctlsocket tid .. => tid
  | .disconnectEx tid .. => tid
  | .acceptEx tid .. => tid
  | .syscall tid => tid

/-- The descriptors that the kernel answers with are free, and not the same. -/
def World.admits (w : World) (fds : List Fd) : Bool :=
  decide fds.Nodup && fds.all (fun fd => decide (0 ≤ fd) && (w.files.table.file fd).isNone)

/-- The new descriptors of a system call of `AcceptEx`. -/
def newOf (answers : Answers) : Syscall → List Fd
  | .accept _ => (answers.accept.map Prod.fst).toList
  | _ => []

/-- The new descriptors of an answer. -/
def newFd : Except Int Fd → List Fd
  | .ok fd => [fd]
  | .error _ => []

/-- A call of a thread that is not inside `AcceptEx`. -/
def World.call {α : Type} (w : World) (tid : Nat) (fds : List Fd) (o : Outcome α) : Option World :=
  if (w.pending tid).isNone && w.admits fds then some { w with files := o.files } else none

/-- The step labelled `l`; `none` where the thread cannot take it, the kernel cannot answer so, or
    the behaviour is undefined. -/
def next (w : World) : Label → Option World
  | .wsaSocketA tid af type protocol dwFlags answer =>
    w.call tid (newFd answer) (wsaSocketA w.files af type protocol dwFlags answer)
  | .wsaSocketW tid af type protocol dwFlags answer =>
    w.call tid (newFd answer) (wsaSocketW w.files af type protocol dwFlags answer)
  | .wsaAccept tid s addrlen answer =>
    w.call tid (newFd (answer.map Prod.fst)) (wsaAccept w.files s addrlen answer)
  | .wsaSocketPair tid af type protocol socks answer =>
    let fds := match answer with
      | .ok (fd, fd') => [fd, fd']
      | .error _ => []
    w.call tid fds (wsaSocketPair w.files af type protocol socks answer)
  | .wsaConnect tid s answer => w.call tid [] (wsaConnect w.files s answer)
  | .closesocket tid s => w.call tid [] (closesocket w.files s)
  | .ioctlsocket tid s cmd argp answer => w.call tid [] (ioctlsocket w.files s cmd argp answer)
  | .disconnectEx tid s dwFlags shutdownOk =>
    w.call tid [] (disconnectEx w.files s dwFlags shutdownOk)
  | .acceptEx tid args =>
    if (w.pending tid).isNone then
      args.run.map (fun o =>
        { w with pending := update w.pending tid (some ⟨args.answers, o.calls⟩) })
    else none
  | .syscall tid =>
    match w.pending tid with
    | some ⟨answers, c :: calls⟩ =>
      if w.admits (newOf answers c) then
        some
          ⟨w.files.perform answers c,
            update w.pending tid (if calls = [] then none else some ⟨answers, calls⟩)⟩
      else none
    | _ => none

/-- No socket is open. -/
def World.start : World where
  files := ⟨⟨fun _ => none, 0, fun _ _ h => by cases h⟩, fun _ => false, fun _ => false⟩
  pending := fun _ => none

def system : TransitionSystem World Label := .ofFun World.start next

end LinuxWinsock.Files
