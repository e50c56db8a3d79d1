import LinuxWinsock.Addr.Lists
import LinuxWinsock.Addr.Wide
import LinuxWinsock.Async.Calls
import LinuxWinsock.Async.Exits
import LinuxWinsock.Blocking.Hooks
import LinuxWinsock.Ext.ByteOrder
import LinuxWinsock.Ext.Errors
import LinuxWinsock.Ext.Ioctl
import LinuxWinsock.Msg.Atomic
import LinuxWinsock.Sockets.Threads
import LinuxWinsock.Startup.Startup

namespace LinuxWinsock.LastError

open Memory CString WideString Addr

/-!
# The last error of each call

The functions of the API with what they do to `g_wsa_last_error` of the calling thread.  The state
that a call finds, and the answers of the kernel and of the C library, are arguments of the call.

* `wsaEnumProtocolsA`, … — the functions that are stubs in the source;
* `Call`, `Call.after` — every call, whether it fails, and the last error after it;
* `Call.silent` — the calls that leave the last error alone;
* `effect_of_call` — any other call leaves an error exactly if it fails.
-/

/-! ### Stubs -/

/-- What a stub leaves behind: its result, the last error, and what it has written at its output
    argument, if it has one. -/
structure Stub (α β : Type) where
  ret : α
  lastError : Int
  out : β

/-- `sizeof(WSAPROTOCOL_INFOA)` or `sizeof(WSAPROTOCOL_INFOW)`: five words, a `GUID`, a word, the
    chain of a word and seven more, eleven words, and 256 characters. -/
def sizeofProtocolInfo (charSize : Nat) : Nat :=
  5 * 4 + 16 + 4 + (1 + 7) * 4 + 11 * 4 + 256 * charSize

/-- `lpiProtocols` and `lpProtocolBuffer` are not used; the length is written if it is asked for. -/
def wsaEnumProtocols (charSize : Nat) (lpdwBufferLength : Option (BitVec 32)) :
    Stub Int (Option (BitVec 32)) :=
  ⟨SOCKET_ERROR, WSAENOBUFS,
    lpdwBufferLength.map (fun _ => BitVec.ofNat 32 (10 * sizeofProtocolInfo charSize))⟩

def wsaEnumProtocolsA : Option (BitVec 32) → Stub Int (Option (BitVec 32)) := wsaEnumProtocols 1

def wsaEnumProtocolsW : Option (BitVec 32) → Stub Int (Option (BitVec 32)) := wsaEnumProtocols 4

/-- `lpProtocolInfo` is not used. -/
def wsaDuplicateSocketA (_s : SOCKET) (_dwProcessId : BitVec 32) : Stub Int Unit :=
  ⟨SOCKET_ERROR, WSAEINVAL, ()⟩

def wsaDuplicateSocketW (_s : SOCKET) (_dwProcessId : BitVec 32) : Stub Int Unit :=
  ⟨SOCKET_ERROR, WSAEINVAL, ()⟩

/-- The call is accepted, and nothing is posted to the window. -/
def wsaAsyncSelect (_s : SOCKET) (_hWnd : BitVec 64) (_wMsg : BitVec 32) (_lEvent : BitVec 64) :
    Stub Int Unit :=
  ⟨0, 0, ()⟩

/-- The handle is always 1. -/
def createIoCompletionPort (_FileHandle _ExistingCompletionPort _CompletionKey : BitVec 64)
    (_NumberOfConcurrentThreads : BitVec 32) : Stub (BitVec 64) Unit :=
  ⟨1, 0, ()⟩

/-- The four functions of completion ports and overlapped calls that are not supported; none of
    their arguments is used. -/
def notSupported : Stub Bool Unit := ⟨false, WSAEOPNOTSUPP, ()⟩

def getQueuedCompletionStatus : Stub Bool Unit := notSupported

def postQueuedCompletionStatus : Stub Bool Unit := notSupported

def getQueuedCompletionStatusEx : Stub Bool Unit := notSupported

def wsaGetOverlappedResult : Stub Bool Unit := notSupported

/-- `lpGuid` is not compared with anything; where both pointers are there, `NULL` is written. -/
def wsaGetExtensionFunctionPointer (hasGuid : Bool) (lpfnFunction : Option (BitVec 64)) :
    Stub Int (Option (BitVec 64)) :=
  match hasGuid, lpfnFunction with
  | true, some _ => ⟨SOCKET_ERROR, WSAEINVAL, some 0⟩
  | _, _ => ⟨SOCKET_ERROR, WSAEFAULT, lpfnFunction⟩

/-! ### The calls -/

/-- The kernel that answers each request of a message call like this. -/
def kernelOf (answers : Msg.Request → Msg.Answer) : Msg.Kernel Unit := ⟨fun _ r => (answers r, ())⟩

/-- A call of the API, with what it finds and what it is answered. -/
inductive Call where
  -- `winsock2.c`
  | wsaStartup (wVersionRequested : BitVec 16) (lpWSAData : Option Nat) (count : BitVec 32)
      (mem : Memory)
  | wsaCleanup (count : BitVec 32)
  | closesocket (k : Files.OpenFiles) (s : SOCKET)
  | ioctlsocket (k : Files.OpenFiles) (s : SOCKET) (cmd argp : BitVec 64) (answer : Option Int)
  -- `wsa_extended.c`
  | wsaSocketA (k : Files.OpenFiles) (af type protocol dwFlags : BitVec 32)
      (answer : Except Int Fd)
  | wsaSocketW (k : Files.OpenFiles) (af type protocol dwFlags : BitVec 32)
      (answer : Except Int Fd)
  | wsaAccept (k : Files.OpenFiles) (s : SOCKET) (addrlen : Option (BitVec 32))
      (answer : Except Int (Fd × BitVec 32))
  | wsaConnect (k : Files.OpenFiles) (s : SOCKET) (answer : Option Int)
  | wsaSocketPair (k : Files.OpenFiles) (af type protocol : BitVec 32) (socks : SOCKET × SOCKET)
      (answer : Except Int (Fd × Fd))
  | message (answers : Msg.Request → Msg.Answer) (mallocOk : Bool) (call : Msg.Call)
  | wsaIoctl (answer : Except Int (BitVec 32)) (a : Ext.IoctlArgs) (mem : Nat → Memory)
  | wsaHtonl (s : SOCKET) (hostlong : BitVec 64) (lpnetlong : Option (BitVec 64))
  | wsaHtons (s : SOCKET) (hostshort : BitVec 16) (lpnetshort : Option (BitVec 16))
  | wsaNtohl (s : SOCKET) (netlong : BitVec 64) (lphostlong : Option (BitVec 64))
  | wsaNtohs (s : SOCKET) (netshort : BitVec 16) (lphostshort : Option (BitVec 16))
  -- `wsa_events.c`
  | wsaCreateEvent (a : CreateAnswers) (w : World)
  | wsaCloseEvent (w : World) (hEvent : WSAEVENT)
  | wsaSetEvent (w : World) (hEvent : WSAEVENT)
  | wsaResetEvent (w : World) (hEvent : WSAEVENT)
  | wsaWaitForMultipleEvents (select : SelectCall → SelectAnswer) (w : World)
      (cEvents : BitVec 32) (lphEvents : Option (List WSAEVENT)) (dwTimeout : BitVec 32)
  | wsaEventSelect (a : SelectAnswers) (w : World) (s : SOCKET) (hEventObject : WSAEVENT)
      (lNetworkEvents : BitVec 64)
  | wsaEnumNetworkEvents (w : World) (s : SOCKET) (hEventObject : WSAEVENT) (hasOut : Bool)
  | wsaAsyncSelect (s : SOCKET) (hWnd : BitVec 64) (wMsg : BitVec 32) (lEvent : BitVec 64)
  /-- One of the six lookups that `wsa_events.c` and `wsock32.c` start: the call `c` of a run of
      theirs, when it returns. -/
  | wsaAsyncGet (resolve : Async.Query → Option Async.Answer) (tr : Async.Trace)
      (w : Async.World) (c : Nat)
  | wsaCancelAsyncRequest (r : Async.Requests) (h : Async.HANDLE)
  -- `wsa_addr.c`
  | inetPtonA (libc : Libc) (family : BitVec 32) (pszAddrString : CString)
  | inetPtonW (libc : Libc) (buffer : CharArray INET6_ADDRSTRLEN) (family : BitVec 32)
      (pszAddrString : WString)
  | inetNtopA (libc : Libc) (family : BitVec 32) (pAddr : Memory) (stringBufSize : BitVec 64)
  | inetNtopW (libc : Libc) (family : BitVec 32) (pAddr : Memory) (pStringBuf : List WChar)
      (stringBufSize : BitVec 64)
  | getAddrInfoA (getaddrinfo : Lookup) (pNodeName pServiceName : Option CString)
      (pHints : Option AddrInfo)
  | getAddrInfoW (q : Lists.Query) (L : Ledger Block)
  /-- The list is released by the C library. -/
  | freeAddrInfoA (pAddrInfo : Option Addr)
  | freeAddrInfoW (L : Ledger Block) (pAddrInfo : Option Addr)
  | getNameInfoA (getnameinfo : NameLookup) (pSockaddr : Memory) (sockaddrLength : BitVec 32)
      (node service : Option (BitVec 32)) (flags : BitVec 32)
  | getNameInfoW (getnameinfo : NameLookup) (pSockaddr : Memory) (sockaddrLength : BitVec 32)
      (pNodeBuffer : Option (List WChar)) (nodeBufferSize : BitVec 32)
      (pServiceBuffer : Option (List WChar)) (serviceBufferSize : BitVec 32) (flags : BitVec 32)
  | wsaAddressToStringA (libc : Libc) (lpsaAddress : Option Memory) (dwAddressLength : BitVec 32)
      (hasString : Bool) (lpdwAddressStringLength : Option (BitVec 32))
  | wsaAddressToStringW (libc : Libc) (lpsaAddress : Option Memory) (dwAddressLength : BitVec 32)
      (lpszAddressString : Option (List WChar)) (lpdwAddressStringLength : Option (BitVec 32))
  | wsaStringToAddressA (libc : Libc) (addressString : Option CString)
      (addressFamily : BitVec 32) (lpAddress : Option Memory)
      (lpAddressLength : Option (BitVec 32))
  | wsaStringToAddressW (libc : Libc) (buffer : CharArray printSize) (addressString : WString)
      (addressFamily : BitVec 32) (lpAddress : Option Memory)
      (lpAddressLength : Option (BitVec 32))
  | wsaEnumProtocolsA (lpdwBufferLength : Option (BitVec 32))
  | wsaEnumProtocolsW (lpdwBufferLength : Option (BitVec 32))
  | wsaDuplicateSocketA (s : SOCKET) (dwProcessId : BitVec 32)
  | wsaDuplicateSocketW (s : SOCKET) (dwProcessId : BitVec 32)
  -- `ms_extensions.c`
  | extension (errno : Int) (c : Ext.ExtCall)
  | getAcceptExSockaddrs (lpOutputBuffer : Nat) (dwReceiveDataLength dwLocalAddressLength
      dwRemoteAddressLength : BitVec 32) (hasLocal hasRemote : Bool)
  | createIoCompletionPort (fileHandle existingCompletionPort completionKey : BitVec 64)
      (numberOfConcurrentThreads : BitVec 32)
  | getQueuedCompletionStatus
  | postQueuedCompletionStatus
  | getQueuedCompletionStatusEx
  | wsaGetExtensionFunctionPointer (hasGuid : Bool) (lpfnFunction : Option (BitVec 64))
  | wsaGetOverlappedResult
  -- `wsock32.c`
  | wsaSetBlockingHook (lpBlockFunc : Blocking.LPWSABLOCKINGHOOK) (t : Blocking.ThreadState)
  | wsaUnhookBlockingHook (t : Blocking.ThreadState)
  | wsaCancelBlockingCall (t : Blocking.ThreadState)
  | wsaIsBlocking (t : Blocking.ThreadState)

namespace Call

/-- The result is `SOCKET_ERROR` or `INVALID_SOCKET`. -/
def isError (ret : Int) : Bool := decide (ret = -1)

/-- Whether the call fails, and the last error after it, where `e` is the one before; `none` where
    its behaviour is undefined. -/
def after (e : Int) : Call → Option (Bool × Int)
  | wsaStartup version data count mem =>
    some (decide ((Startup.startupBody version data count mem).1.ret ≠ 0), e)
  | wsaCleanup count => some (decide ((Startup.cleanupBody count).1.ret ≠ 0), e)
  | closesocket k s =>
    let o := Files.closesocket k s
    some (isError o.ret, o.lastError)
  | ioctlsocket k s cmd argp answer =>
    let o := Files.ioctlsocket k s cmd argp answer
    some (isError o.ret, o.lastError)
  | wsaSocketA k af type protocol flags answer =>
    let o := Files.wsaSocketA k af type protocol flags answer
    some (isError o.ret, o.lastError)
  | wsaSocketW k af type protocol flags answer =>
    let o := Files.wsaSocketW k af type protocol flags answer
    some (isError o.ret, o.lastError)
  | wsaAccept k s addrlen answer =>
    let o := Files.wsaAccept k s addrlen answer
    some (isError o.ret.1, o.lastError)
  | wsaConnect k s answer =>
    let o := Files.wsaConnect k s answer
    some (isError o.ret, o.lastError)
  | wsaSocketPair k af type protocol socks answer =>
    let o := Files.wsaSocketPair k af type protocol socks answer
    some (isError o.ret.1, o.lastError)
  | message answers mallocOk call =>
    let o := call.perform (kernelOf answers) () mallocOk
    some (isError o.ret, o.lastError)
  | wsaIoctl answer a mem =>
    let o := Ext.wsaIoctl answer a mem
    some (isError o.ret, o.lastError)
  | wsaHtonl s x out => some (isError (Ext.wsaHtonl s x out).ret, (Ext.wsaHtonl s x out).lastError)
  | wsaHtons s x out => some (isError (Ext.wsaHtons s x out).ret, (Ext.wsaHtons s x out).lastError)
  | wsaNtohl s x out => some (isError (Ext.wsaNtohl s x out).ret, (Ext.wsaNtohl s x out).lastError)
  | wsaNtohs s x out => some (isError (Ext.wsaNtohs s x out).ret, (Ext.wsaNtohs s x out).lastError)
  | wsaCreateEvent a w =>
    let o := LinuxWinsock.wsaCreateEvent a w
    some (o.ret.isNone, o.lastError)
  | wsaCloseEvent w h => (LinuxWinsock.wsaCloseEvent w h).map (fun o => (!o.ret, o.lastError))
  | wsaSetEvent w h => (LinuxWinsock.wsaSetEvent w h).map (fun o => (!o.ret, o.lastError))
  | wsaResetEvent w h => (LinuxWinsock.wsaResetEvent w h).map (fun o => (!o.ret, o.lastError))
  | wsaWaitForMultipleEvents select w count handles timeout =>
    (LinuxWinsock.wsaWaitForMultipleEvents select w count handles timeout).map
      (fun o => (decide (o.ret = WSA_WAIT_FAILED), o.lastError))
  | wsaEventSelect a w s h events =>
    (LinuxWinsock.wsaEventSelect a w s h events).map (fun o => (isError o.ret, o.lastError))
  | wsaEnumNetworkEvents w s h hasOut =>
    (LinuxWinsock.wsaEnumNetworkEvents w s h hasOut).map
      (fun r => (isError r.1.ret, r.1.lastError))
  | wsaAsyncSelect s hWnd wMsg lEvent =>
    let o := LastError.wsaAsyncSelect s hWnd wMsg lEvent
    some (isError o.ret, o.lastError)
  | wsaAsyncGet _ _ w c => (w.calls c).exit e
  -- the call returns 0, whether it has found the request or not
  | wsaCancelAsyncRequest r h => (Async.wsaCancelAsyncRequest r h).map (fun _ => (false, 0))
  | inetPtonA libc family t =>
    let o := Addr.inetPtonA libc family t
    some (decide (o.ret ≠ 1), o.lastError.getD e)
  | inetPtonW libc buffer family t =>
    (Addr.inetPtonW libc buffer family t).map (fun o => (decide (o.ret ≠ 1), o.lastError.getD e))
  | inetNtopA libc family pAddr n => some ((Addr.inetNtopA libc family pAddr n).isNone, e)
  | inetNtopW libc family pAddr out n =>
    let o := Addr.inetNtopW libc family pAddr out n
    some (!o.found, o.lastError.getD e)
  | getAddrInfoA getaddrinfo node service hints =>
    some ((Addr.getAddrInfoA getaddrinfo node service hints).toOption.isNone, e)
  | getAddrInfoW q L => (q.call L).map (fun o => (decide (o.ret ≠ 0), o.lastError.getD e))
  -- the functions without a result do not fail
  | freeAddrInfoA _ => some (false, e)
  | freeAddrInfoW L pAddrInfo => (Addr.freeAddrInfoW L pAddrInfo).map (fun _ => (false, e))
  | getNameInfoA getnameinfo sa length node service flags =>
    some ((Addr.getNameInfoA getnameinfo sa length node service flags).toOption.isNone, e)
  | getNameInfoW getnameinfo sa length node nodeSize service serviceSize flags =>
    let o := Addr.getNameInfoW getnameinfo sa length node nodeSize service serviceSize flags
    some (decide (o.ret ≠ 0), o.lastError.getD e)
  | wsaAddressToStringA libc sa length hasString capacity =>
    let o := Addr.wsaAddressToStringA libc sa length hasString capacity
    some (isError o.ret, o.lastError)
  | wsaAddressToStringW libc sa length out capacity =>
    (Addr.wsaAddressToStringW libc sa length out capacity).map
      (fun o => (isError o.ret, o.lastError))
  | wsaStringToAddressA libc t family address length =>
    let o := Addr.wsaStringToAddressA libc t family address length
    some (isError o.ret, o.lastError)
  | wsaStringToAddressW libc buffer t family address length =>
    (Addr.wsaStringToAddressW libc buffer t family address length).map
      (fun o => (isError o.ret, o.lastError))
  | wsaEnumProtocolsA length =>
    some (isError (LastError.wsaEnumProtocolsA length).ret,
      (LastError.wsaEnumProtocolsA length).lastError)
  | wsaEnumProtocolsW length =>
    some (isError (LastError.wsaEnumProtocolsW length).ret,
      (LastError.wsaEnumProtocolsW length).lastError)
  | wsaDuplicateSocketA s pid =>
    some (isError (LastError.wsaDuplicateSocketA s pid).ret,
      (LastError.wsaDuplicateSocketA s pid).lastError)
  | wsaDuplicateSocketW s pid =>
    some (isError (LastError.wsaDuplicateSocketW s pid).ret,
      (LastError.wsaDuplicateSocketW s pid).lastError)
  | extension errno c => (c.outcome errno).map (fun r => (!r.1, r.2))
  | getAcceptExSockaddrs .. => some (false, e)
  | createIoCompletionPort file port key threads =>
    let o := LastError.createIoCompletionPort file port key threads
    some (decide (o.ret = 0), o.lastError)
  | getQueuedCompletionStatus =>
    some (!LastError.getQueuedCompletionStatus.ret, LastError.getQueuedCompletionStatus.lastError)
  | postQueuedCompletionStatus =>
    some (!LastError.postQueuedCompletionStatus.ret,
      LastError.postQueuedCompletionStatus.lastError)
  | getQueuedCompletionStatusEx =>
    some (!LastError.getQueuedCompletionStatusEx.ret,
      LastError.getQueuedCompletionStatusEx.lastError)
  | wsaGetExtensionFunctionPointer hasGuid out =>
    let o := LastError.wsaGetExtensionFunctionPointer hasGuid out
    some (isError o.ret, o.lastError)
  | wsaGetOverlappedResult =>
    some (!LastError.wsaGetOverlappedResult.ret, LastError.wsaGetOverlappedResult.lastError)
  | wsaSetBlockingHook f t =>
    let o := Blocking.wsaSetBlockingHook f { t with lastError := e }
    some (o.1.isNone, o.2.lastError)
  | wsaUnhookBlockingHook t =>
    let o := Blocking.wsaUnhookBlockingHook { t with lastError := e }
    some (isError o.1, o.2.lastError)
  | wsaCancelBlockingCall t =>
    let o := Blocking.wsaCancelBlockingCall { t with lastError := e }
    some (isError o.1, o.2.lastError)
  -- there is no result for a failure
  | wsaIsBlocking _ => some (false, e)

/-- The library is called with readable names, and has no list for them. -/
def lookupFails (q : Lists.Query) : Bool :=
  match (narrowParam q.nodeBuffer q.pNodeName).bind readParam,
    (narrowParam q.serviceBuffer q.pServiceName).bind readParam with
  | some node, some service =>
    (q.getaddrinfo node service (q.pHints.map ADDRINFOW.toHints)).toOption.isNone
  | _, _ => false

/-- The library has no text for an address, or the text is converted. -/
def ntopPasses (libc : Libc) (family : BitVec 32) (pAddr : Memory) (out : List WChar)
    (n : BitVec 64) : Bool :=
  match Addr.inetNtopA libc family pAddr (BitVec.ofNat 64 INET6_ADDRSTRLEN) with
  | none => true
  | some text => (mbstowcs out text n.toNat).2.isSome

/-- The library has no names for an address. -/
def namesFail (getnameinfo : NameLookup) (pSockaddr : Memory) (sockaddrLength : BitVec 32)
    (pNodeBuffer pServiceBuffer : Option (List WChar)) (flags : BitVec 32) : Bool :=
  (getnameinfo pSockaddr sockaddrLength (pNodeBuffer.map (fun _ => NI_MAXHOST))
    (pServiceBuffer.map (fun _ => NI_MAXSERV)) flags).toOption.isNone

/-- The calls that leave the last error alone: start-up and clean-up, the conversions and lookups
    that are passed on to the C library, as far as no text has to be converted before or after, the
    releases of their lists, `GetAcceptExSockaddrs`, the service lookups that have been started, and
    the hooks. -/
def silent : Call → Bool
  | wsaStartup .. => true
  | wsaCleanup .. => true
  | wsaAsyncGet _ _ w c => (w.calls c).serviceRecord.isSome
  | inetPtonA .. => true
  | inetPtonW _ buffer _ t => (wcstombs buffer.bytes t INET6_ADDRSTRLEN).2.isSome
  | inetNtopA .. => true
  | inetNtopW libc family pAddr out n => ntopPasses libc family pAddr out n
  | getAddrInfoA .. => true
  | getAddrInfoW q _ => lookupFails q
  | freeAddrInfoA _ => true
  | freeAddrInfoW .. => true
  | getAcceptExSockaddrs .. => true
  | getNameInfoA .. => true
  | getNameInfoW getnameinfo sa length node _ service _ flags =>
    namesFail getnameinfo sa length node service flags
  | wsaSetBlockingHook f _ => f.isSome
  | wsaUnhookBlockingHook _ => true
  | wsaCancelBlockingCall t => t.gBlockingInProgress
  | wsaIsBlocking _ => true
  | _ => false

/-- What is documented of the answers: error numbers are positive, and descriptors are not
    negative; and a lookup is one of a run. -/
def Documented : Call → Prop
  | ioctlsocket _ _ _ _ answer => ∀ errno ∈ answer, 0 < errno
  | wsaSocketA _ _ _ _ _ answer => (∀ n, answer = .error n → 0 < n) ∧ ∀ fd, answer = .ok fd → 0 ≤ fd
  | wsaSocketW _ _ _ _ _ answer => (∀ n, answer = .error n → 0 < n) ∧ ∀ fd, answer = .ok fd → 0 ≤ fd
  | wsaAccept _ _ _ answer =>
    (∀ n, answer = .error n → 0 < n) ∧ ∀ r, answer = .ok r → 0 ≤ r.1
  | wsaConnect _ _ answer => ∀ errno ∈ answer, 0 < errno
  | wsaSocketPair _ _ _ _ _ answer => ∀ n, answer = .error n → 0 < n
  | message answers _ _ => ∀ r, (answers r).result < 0 → 0 < (answers r).errno
  | wsaIoctl answer _ _ => ∀ n, answer = .error n → 0 < n
  | wsaAsyncGet resolve tr w _ => (Async.system resolve).Run tr w
  | _ => True

end Call

/-! ### The two effects -/

/-- The last error says whether the call failed. -/
def Tells (r : Bool × Int) : Prop := r.2 ≠ 0 ↔ r.1 = true

theorem tells_failed (err : Int) (h : err ≠ 0) : Tells (true, err) := iff_of_true h rfl

theorem tells_succeeded : Tells (false, 0) := by simp [Tells]

/-- A failure of the kernel's. -/
theorem tells_errno (errno : Int) (h : 0 < errno) :
    Tells (Call.isError SOCKET_ERROR, errnoToWsaError errno) :=
  tells_failed _ (errnoToWsaError_ne_zero h)

/-- A descriptor is no error. -/
theorem isError_of_nonneg {fd : Int} (h : 0 ≤ fd) : Call.isError fd = false := by
  simp only [Call.isError, decide_eq_false_iff_not]
  omega

section Sockets

variable {k : Files.OpenFiles} {s : SOCKET}

theorem tells_closesocket :
    Tells (Call.isError (Files.closesocket k s).ret, (Files.closesocket k s).lastError) := by
  unfold Files.closesocket
  split
  · exact tells_errno EBADF (by decide)
  · exact tells_succeeded

theorem tells_ioctlsocket {cmd argp : BitVec 64} {answer : Option Int}
    (h : ∀ errno ∈ answer, 0 < errno) :
    Tells (Call.isError (Files.ioctlsocket k s cmd argp answer).ret,
      (Files.ioctlsocket k s cmd argp answer).lastError) := by
  unfold Files.ioctlsocket
  split
  · exact tells_errno EBADF (by decide)
  · exact tells_errno _ (h _ rfl)
  · exact tells_succeeded

theorem tells_wsaSocketA {af type protocol flags : BitVec 32} {answer : Except Int Fd}
    (h : ∀ n, answer = .error n → 0 < n) (hfd : ∀ fd, answer = .ok fd → 0 ≤ fd) :
    Tells (Call.isError (Files.wsaSocketA k af type protocol flags answer).ret,
      (Files.wsaSocketA k af type protocol flags answer).lastError) := by
  cases answer with
  | error errno => exact tells_errno errno (h errno rfl)
  | ok fd =>
    show Tells (Call.isError fd, 0)
    rw [isError_of_nonneg (hfd fd rfl)]
    exact tells_succeeded

theorem tells_wsaAccept {addrlen : Option (BitVec 32)} {answer : Except Int (Fd × BitVec 32)}
    (h : ∀ n, answer = .error n → 0 < n) (hfd : ∀ r, answer = .ok r → 0 ≤ r.1) :
    Tells (Call.isError (Files.wsaAccept k s addrlen answer).ret.1,
      (Files.wsaAccept k s addrlen answer).lastError) := by
  cases answer with
  | error errno => exact tells_errno errno (h errno rfl)
  | ok r =>
    show Tells (Call.isError r.1, 0)
    rw [isError_of_nonneg (hfd r rfl)]
    exact tells_succeeded

theorem tells_wsaConnect {answer : Option Int} (h : ∀ errno ∈ answer, 0 < errno) :
    Tells (Call.isError (Files.wsaConnect k s answer).ret,
      (Files.wsaConnect k s answer).lastError) := by
  cases answer with
  | some errno => exact tells_errno errno (h errno rfl)
  | none => exact tells_succeeded

theorem tells_wsaSocketPair {af type protocol : BitVec 32} {socks : SOCKET × SOCKET}
    {answer : Except Int (Fd × Fd)} (h : ∀ n, answer = .error n → 0 < n) :
    Tells (Call.isError (Files.wsaSocketPair k af type protocol socks answer).ret.1,
      (Files.wsaSocketPair k af type protocol socks answer).lastError) := by
  cases answer with
  | error errno => exact tells_errno errno (h errno rfl)
  | ok r => exact tells_succeeded

end Sockets

section Extended

/-- Every message call leaves by one of the three exits. -/
theorem tells_message {answers : Msg.Request → Msg.Answer} (mallocOk : Bool) (call : Msg.Call)
    (h : ∀ r, (answers r).result < 0 → 0 < (answers r).errno) :
    Tells (Call.isError (call.perform (kernelOf answers) () mallocOk).ret,
      (call.perform (kernelOf answers) () mallocOk).lastError) := by
  obtain ⟨plan, hperform, -⟩ := call.perform_eq (kernelOf answers) () mallocOk
  have hexit := Msg.exit_of_scatterGather (kernelOf answers) () mallocOk call.before plan
  rw [hperform]
  generalize Msg.scatterGather (kernelOf answers) () mallocOk call.before plan = o at hexit
  cases hexit with
  | refused hcode => exact tells_failed _ hcode
  | failed hplan hresult hheap => exact tells_errno _ (h _ hresult)
  | succeeded hplan hresult hheap => exact tells_succeeded

theorem tells_wsaIoctl {answer : Except Int (BitVec 32)} (a : Ext.IoctlArgs) (mem : Nat → Memory)
    (h : ∀ n, answer = .error n → 0 < n) :
    Tells (Call.isError (Ext.wsaIoctl answer a mem).ret,
      (Ext.wsaIoctl answer a mem).lastError) := by
  unfold Ext.wsaIoctl
  split
  · -- a request of the kernel, which needs an address
    have herror : ∀ err, Ext.ioctl answer a.dwIoControlCode a.argp = .error err → 0 < err := by
      intro err herr
      unfold Ext.ioctl at herr
      split at herr
      · obtain rfl := Except.error.inj herr
        exact h _ rfl
      · obtain rfl := Except.error.inj herr
        decide
      · cases herr
    split
    · rename_i err herr
      exact tells_errno err (herror err herr)
    · exact tells_succeeded
  · split
    · split
      · exact tells_failed WSAEFAULT (by decide)
      · split
        · exact tells_failed WSAEFAULT (by decide)
        · exact tells_failed WSAEOPNOTSUPP (by decide)
    · exact tells_failed WSAEINVAL (by decide)

/-- The four byte-order conversions. -/
theorem tells_convertWord {w : Nat} (convert : BitVec w → BitVec w) (s : SOCKET) (word : BitVec w)
    (out : Option (BitVec w)) :
    Tells (Call.isError (Ext.convertWord convert s word out).ret,
      (Ext.convertWord convert s word out).lastError) := by
  cases out with
  | none => exact tells_failed WSAEFAULT (by decide)
  | some _ => exact tells_succeeded

/-- A call of `ms_extensions.c` fails with a system call, or with its arguments. -/
theorem tells_extension {c : Ext.ExtCall} {errno : Int} {r : Bool × Int}
    (h : c.outcome errno = some r) : Tells (!r.1, r.2) := by
  have hsettled := Ext.settled c errno
  cases hfailing : c.failing with
  | none =>
    rcases hsettled.succeeds hfailing r h with rfl | ⟨-, rfl⟩
    · exact tells_succeeded
    · exact tells_failed WSAEINVAL (by decide)
  | some f =>
    rw [hsettled.fails f hfailing] at h
    obtain rfl := Option.some.inj h
    apply tells_failed _
    cases f with
    | connect =>
      simp only [Ext.SystemCall.reported]
      split <;> decide
    | _ => simp only [Ext.SystemCall.reported]; decide

theorem tells_wsaGetExtensionFunctionPointer (hasGuid : Bool) (out : Option (BitVec 64)) :
    Tells (Call.isError (wsaGetExtensionFunctionPointer hasGuid out).ret,
      (wsaGetExtensionFunctionPointer hasGuid out).lastError) := by
  unfold wsaGetExtensionFunctionPointer
  split
  · exact tells_failed WSAEINVAL (by decide)
  · exact tells_failed WSAEFAULT (by decide)

end Extended

section Events

variable {w : World} {h : WSAEVENT} {s : SOCKET}

theorem tells_wsaCreateEvent (a : CreateAnswers) (w : World) :
    Tells ((wsaCreateEvent a w).ret.isNone, (wsaCreateEvent a w).lastError) := by
  unfold wsaCreateEvent
  split
  · exact tells_failed WSA_NOT_ENOUGH_MEMORY (by decide)
  · split
    · exact tells_failed WSA_NOT_ENOUGH_MEMORY (by decide)
    · exact tells_succeeded

theorem tells_wsaCloseEvent {o : Outcome Bool} (ho : wsaCloseEvent w h = some o) :
    Tells (!o.ret, o.lastError) := by
  unfold wsaCloseEvent at ho
  split at ho
  · cases ho
    exact tells_failed WSA_INVALID_HANDLE (by decide)
  · split at ho
    · cases ho
    · cases ho
      exact tells_succeeded

theorem tells_wsaSetEvent {o : Outcome Bool} (ho : wsaSetEvent w h = some o) :
    Tells (!o.ret, o.lastError) := by
  unfold wsaSetEvent at ho
  split at ho
  · cases ho
    exact tells_failed WSA_INVALID_HANDLE (by decide)
  · split at ho
    · cases ho
    · split at ho
      · cases ho
        exact tells_succeeded
      · split at ho
        · cases ho
          exact tells_failed WSAENETDOWN (by decide)
        · cases ho
          exact tells_succeeded

theorem tells_wsaResetEvent {o : Outcome Bool} (ho : wsaResetEvent w h = some o) :
    Tells (!o.ret, o.lastError) := by
  unfold wsaResetEvent at ho
  split at ho
  · cases ho
    exact tells_failed WSA_INVALID_HANDLE (by decide)
  · split at ho
    · cases ho
    · split at ho
      · split at ho
        · cases ho
        · cases ho
          exact tells_succeeded
      · cases ho
        exact tells_succeeded

/-- The index of an event is not the code of a failure. -/
theorem waitIndex_ne_failed {n i : Nat} (hn : n ≤ WSA_MAXIMUM_WAIT_EVENTS) (hi : i < n) :
    WSA_WAIT_EVENT_0 + BitVec.ofNat 32 i ≠ WSA_WAIT_FAILED := by
  intro heq
  have hnat := congrArg BitVec.toNat heq
  have hmax : WSA_MAXIMUM_WAIT_EVENTS = 64 := rfl
  have hfirst : WSA_WAIT_EVENT_0.toNat = 0 := rfl
  have hfailed : WSA_WAIT_FAILED.toNat = 4294967295 := rfl
  rw [BitVec.toNat_add, BitVec.toNat_ofNat, hfirst, hfailed] at hnat
  omega

/-- The scan gives an index of the array. -/
theorem lt_of_scanSet {events : Heap WSAEventStruct} {isset : Fd → Bool} {n i j : Nat}
    {handles : List WSAEVENT} (hscan : scanSet events isset n i handles = some (some j)) :
    j < i + n := by
  induction n generalizing i handles with
  | zero =>
    simp only [scanSet] at hscan
    cases hscan
  | succ n ih =>
    match handles with
    | [] => simp [scanSet] at hscan
    | none :: rest => simp [scanSet] at hscan
    | some p :: rest =>
      simp only [scanSet] at hscan
      split at hscan
      · cases hscan
      · split at hscan
        · cases hscan
          omega
        · have hrest := ih hscan
          omega

theorem tells_wsaWaitForMultipleEvents {select : SelectCall → SelectAnswer}
    {count timeout : BitVec 32} {handles : Option (List WSAEVENT)} {o : Outcome (BitVec 32)}
    (ho : wsaWaitForMultipleEvents select w count handles timeout = some o) :
    Tells (decide (o.ret = WSA_WAIT_FAILED), o.lastError) := by
  unfold wsaWaitForMultipleEvents at ho
  split at ho
  · cases ho
    exact tells_failed WSA_INVALID_PARAMETER (by decide)
  · split at ho
    · cases ho
      exact tells_failed WSA_INVALID_PARAMETER (by decide)
    · rename_i hcount
      split at ho
      · cases ho
      · cases ho
        exact tells_failed WSA_INVALID_HANDLE (by decide)
      · split at ho
        · cases ho
          exact tells_failed WSAENETDOWN (by decide)
        · cases ho
          exact tells_succeeded
        · split at ho
          · cases ho
          · rename_i i hscan
            cases ho
            have hi := lt_of_scanSet hscan
            have hmax : count.toNat ≤ WSA_MAXIMUM_WAIT_EVENTS := by
              simp only [not_or, not_lt] at hcount
              exact hcount.2
            have hne := waitIndex_ne_failed hmax (i := i) (by omega)
            simp only [decide_eq_false hne]
            exact tells_succeeded
          · cases ho
            exact tells_succeeded

theorem tells_createMapping (a : SelectAnswers) (w : World) (s : SOCKET) (h : WSAEVENT)
    (events : BitVec 64) :
    Tells (Call.isError (createMapping a w s h events).ret,
      (createMapping a w s h events).lastError) := by
  unfold createMapping
  split
  · exact tells_failed WSA_NOT_ENOUGH_MEMORY (by decide)
  · dsimp only
    split
    · exact tells_failed WSAENETDOWN (by decide)
    · split
      · exact tells_failed WSAENETDOWN (by decide)
      · split
        · exact tells_succeeded
        · exact tells_failed WSAENETDOWN (by decide)

theorem tells_wsaEventSelect {a : SelectAnswers} {events : BitVec 64} {o : Outcome Int}
    (ho : wsaEventSelect a w s h events = some o) : Tells (Call.isError o.ret, o.lastError) := by
  unfold wsaEventSelect at ho
  split at ho
  · cases ho
  · cases ho
    exact tells_createMapping a w s h events
  · split at ho
    · cases ho
    · cases ho
      exact tells_succeeded

theorem tells_wsaEnumNetworkEvents {hasOut : Bool} {r : Outcome Int × WSANETWORKEVENTS}
    (hr : wsaEnumNetworkEvents w s h hasOut = some r) :
    Tells (Call.isError r.1.ret, r.1.lastError) := by
  unfold wsaEnumNetworkEvents at hr
  split at hr
  · split at hr
    · cases hr
    · cases hr
      exact tells_failed WSAEINVAL (by decide)
    · dsimp only at hr
      split at hr
      · cases hr
        exact tells_succeeded
      · obtain ⟨o, -, rfl⟩ := Option.map_eq_some_iff.mp hr
        exact tells_succeeded
  · cases hr
    exact tells_failed WSAEFAULT (by decide)

/-- A service lookup that has been started leaves the error of the call before. -/
theorem wsaAsyncGet_effect {resolve : Async.Query → Option Async.Answer} {tr : Async.Trace}
    {lookups : Async.World} {c : Nat} (hrun : (Async.system resolve).Run tr lookups) {e : Int}
    {r : Bool × Int} (hr : (lookups.calls c).exit e = some r) :
    if (lookups.calls c).serviceRecord.isSome then r.2 = e else Tells r := by
  have herror := Async.hasError_of_run hrun c
  cases hpc : lookups.calls c with
  | hostReturned =>
    rw [hpc] at hr
    cases hr
    exact tells_succeeded
  | serviceReturned =>
    rw [hpc] at hr
    cases hr
    rfl
  | failed err =>
    rw [hpc] at hr herror
    cases hr
    exact tells_failed err herror
  | _ =>
    rw [hpc] at hr
    cases hr

end Events

section Addresses

variable {libc : Libc}

/-- Both ways out of the copy. -/
theorem tells_copyText (buffer : Option CString) (capacity : BitVec 32) :
    Tells (Call.isError (copyText buffer capacity).ret, (copyText buffer capacity).lastError) := by
  unfold copyText
  split
  · exact tells_failed WSAEFAULT (by decide)
  · split
    · exact tells_failed WSAEFAULT (by decide)
    · exact tells_succeeded

theorem tells_wsaAddressToStringA (libc : Libc) (sa : Option Memory) (length : BitVec 32)
    (hasString : Bool) (capacity : Option (BitVec 32)) :
    Tells (Call.isError (wsaAddressToStringA libc sa length hasString capacity).ret,
      (wsaAddressToStringA libc sa length hasString capacity).lastError) := by
  unfold wsaAddressToStringA
  split
  · split
    · exact tells_copyText _ _
    · exact tells_failed WSAEAFNOSUPPORT (by decide)
  · exact tells_failed WSAEFAULT (by decide)

theorem tells_wsaAddressToStringW {sa : Option Memory} {length : BitVec 32}
    {out : Option (List WChar)} {capacity : Option (BitVec 32)} {o : ToStringW}
    (ho : wsaAddressToStringW libc sa length out capacity = some o) :
    Tells (Call.isError o.ret, o.lastError) := by
  unfold wsaAddressToStringW at ho
  dsimp only at ho
  split at ho
  · -- the error of the narrow call stays
    cases ho
    exact tells_wsaAddressToStringA libc sa length true _
  · split at ho
    · split at ho
      · cases ho
        exact tells_failed WSAEINVAL (by decide)
      · obtain ⟨len, -, rfl⟩ := Option.map_eq_some_iff.mp ho
        exact tells_succeeded
    · cases ho

theorem tells_storeAddress (libc : Libc) (f : Family) (addrOnly : CString) (port : BitVec 32)
    (mem : Memory) (length : BitVec 32) :
    Tells (Call.isError (storeAddress libc f addrOnly port mem length).ret,
      (storeAddress libc f addrOnly port mem length).lastError) := by
  unfold storeAddress
  split
  · exact tells_failed WSAEFAULT (by decide)
  · dsimp only
    split
    · exact tells_succeeded
    · exact tells_failed WSAEINVAL (by decide)

theorem tells_wsaStringToAddressA (libc : Libc) (t : Option CString) (family : BitVec 32)
    (address : Option Memory) (length : Option (BitVec 32)) :
    Tells (Call.isError (wsaStringToAddressA libc t family address length).ret,
      (wsaStringToAddressA libc t family address length).lastError) := by
  unfold wsaStringToAddressA
  split
  · split
    · exact tells_failed WSAEINVAL (by decide)
    · split
      · exact tells_storeAddress libc _ _ _ _ _
      · exact tells_failed WSAEAFNOSUPPORT (by decide)
  · exact tells_failed WSAEFAULT (by decide)

theorem tells_wsaStringToAddressW {buffer : CharArray printSize} {t : WString}
    {family : BitVec 32} {address : Option Memory} {length : Option (BitVec 32)} {o : ToAddress}
    (ho : wsaStringToAddressW libc buffer t family address length = some o) :
    Tells (Call.isError o.ret, o.lastError) := by
  unfold wsaStringToAddressW at ho
  split at ho
  · cases ho
    exact tells_failed WSAEINVAL (by decide)
  · split at ho
    · obtain ⟨s, -, rfl⟩ := Option.map_eq_some_iff.mp ho
      exact tells_wsaStringToAddressA libc _ _ _ _
    · cases ho
      exact tells_failed WSAEFAULT (by decide)

/-- The copy of a list sets the last error, whichever way it ends. -/
theorem tells_copyLoop {A : Allocator Block} {source : List AddrInfo} {L : Ledger Block}
    {wresult wcurrent : Option Addr} {o : GetAddrInfo}
    (ho : copyLoop A source L wresult wcurrent = some o) (e : Int) :
    Tells (decide (o.ret ≠ 0), o.lastError.getD e) := by
  induction source generalizing L wresult wcurrent with
  | nil =>
    cases ho
    exact tells_succeeded
  | cons entry source ih =>
    simp only [copyLoop] at ho
    split at ho
    · cases ho
    · obtain ⟨L', -, rfl⟩ := Option.map_eq_some_iff.mp ho
      exact tells_failed WSA_NOT_ENOUGH_MEMORY (by decide)
    · split at ho
      · cases ho
      · exact ih ho

/-- `GetAddrInfoW` leaves the last error alone if the library has no list, and sets it
    otherwise. -/
theorem getAddrInfoW_effect {q : Lists.Query} {L : Ledger Block} {o : GetAddrInfo}
    (ho : q.call L = some o) (e : Int) :
    if Call.lookupFails q then o.lastError.getD e = e
    else Tells (decide (o.ret ≠ 0), o.lastError.getD e) := by
  simp only [Lists.Query.call, getAddrInfoW] at ho
  unfold Call.lookupFails
  split at ho
  · rename_i hnode
    cases ho
    simp only [hnode, Option.bind_none]
    exact tells_failed WSAEINVAL (by decide)
  rename_i node hnode
  split at ho
  · rename_i hservice
    cases ho
    simp only [hservice, Option.bind_none]
    split
    · rename_i heq
      simp at heq
    · exact tells_failed WSAEINVAL (by decide)
  rename_i service hservice
  split at ho
  · rename_i node' service' hnode' hservice'
    simp only [hnode, hservice, Option.bind_some, hnode', hservice']
    split at ho
    · rename_i ret hresult
      cases ho
      simp [hresult, Except.toOption]
    · rename_i result hresult
      simp only [hresult, Except.toOption]
      exact tells_copyLoop ho e
  · cases ho

/-- The conversion into the array is all that `InetPtonW` reports. -/
theorem inetPtonW_effect {buffer : CharArray INET6_ADDRSTRLEN} {family : BitVec 32} {t : WString}
    {o : Pton} (ho : inetPtonW libc buffer family t = some o) (e : Int) :
    if (wcstombs buffer.bytes t INET6_ADDRSTRLEN).2.isSome then o.lastError.getD e = e
    else Tells (decide (o.ret ≠ 1), o.lastError.getD e) := by
  unfold inetPtonW at ho
  split at ho
  · rename_i bytes hconv
    cases ho
    rw [hconv]
    exact tells_failed WSAEINVAL (by decide)
  · rename_i bytes len hconv
    obtain ⟨s, -, rfl⟩ := Option.map_eq_some_iff.mp ho
    rw [hconv]
    show (inetPtonA libc family s).lastError.getD e = e
    unfold inetPtonA
    split
    · rfl
    · split <;> rfl

/-- The conversion of a text is all that `InetNtopW` reports. -/
theorem inetNtopW_effect (libc : Libc) (family : BitVec 32) (pAddr : Memory) (out : List WChar)
    (n : BitVec 64) (e : Int) :
    if Call.ntopPasses libc family pAddr out n then
      (inetNtopW libc family pAddr out n).lastError.getD e = e
    else
      Tells (!(inetNtopW libc family pAddr out n).found,
        (inetNtopW libc family pAddr out n).lastError.getD e) := by
  unfold Call.ntopPasses inetNtopW
  cases inetNtopA libc family pAddr (BitVec.ofNat 64 INET6_ADDRSTRLEN) with
  | none => rfl
  | some text =>
    simp only []
    generalize mbstowcs out text n.toNat = converted
    obtain ⟨after, len⟩ := converted
    cases len with
    | none => exact tells_failed WSAEINVAL (by decide)
    | some len => rfl

/-- Both ways out of the conversions of `GetNameInfoW`. -/
theorem getNameInfoW_converted {getnameinfo : NameLookup} {sa : Memory} {length : BitVec 32}
    {node service : Option (List WChar)} {flags : BitVec 32} {host serv : CString}
    (hnames : getnameinfo sa length (node.map (fun _ => NI_MAXHOST))
      (service.map (fun _ => NI_MAXSERV)) flags = .ok (host, serv))
    (nodeSize serviceSize : BitVec 32) :
    let o := getNameInfoW getnameinfo sa length node nodeSize service serviceSize flags
    (o.ret = 0 ∧ o.lastError = some 0) ∨
      (o.ret = WSAEINVAL ∧ o.lastError = some WSAEINVAL) := by
  simp only [getNameInfoW, hnames]
  split
  · exact .inr ⟨rfl, rfl⟩
  · split
    · exact .inr ⟨rfl, rfl⟩
    · exact .inl ⟨rfl, rfl⟩

/-- `GetNameInfoW` leaves the last error alone if the library has no names, and sets it
    otherwise. -/
theorem getNameInfoW_effect (getnameinfo : NameLookup) (sa : Memory) (length : BitVec 32)
    (node : Option (List WChar)) (nodeSize : BitVec 32) (service : Option (List WChar))
    (serviceSize flags : BitVec 32) (e : Int) :
    let o := getNameInfoW getnameinfo sa length node nodeSize service serviceSize flags
    if Call.namesFail getnameinfo sa length node service flags then o.lastError.getD e = e
    else Tells (decide (o.ret ≠ 0), o.lastError.getD e) := by
  cases hnames : getnameinfo sa length (node.map (fun _ => NI_MAXHOST))
      (service.map (fun _ => NI_MAXSERV)) flags with
  | error result => simp [Call.namesFail, getNameInfoW, hnames, Except.toOption]
  | ok names =>
    have hfound : ¬ Call.namesFail getnameinfo sa length node service flags := by
      simp [Call.namesFail, hnames, Except.toOption]
    rw [if_neg hfound]
    rcases getNameInfoW_converted hnames nodeSize serviceSize with ⟨hret, herr⟩ | ⟨hret, herr⟩
    · rw [hret, herr]
      exact tells_succeeded
    · rw [hret, herr]
      exact tells_failed WSAEINVAL (by decide)

end Addresses

section Hooks

variable {t : Blocking.ThreadState}

/-- `WSASetBlockingHook` reports that it was called with `NULL`. -/
theorem wsaSetBlockingHook_effect (f : Blocking.LPWSABLOCKINGHOOK) (t : Blocking.ThreadState) :
    if f.isSome then (Blocking.wsaSetBlockingHook f t).2.lastError = t.lastError
    else Tells ((Blocking.wsaSetBlockingHook f t).1.isNone,
      (Blocking.wsaSetBlockingHook f t).2.lastError) := by
  cases f with
  | none => exact tells_failed WSAEINVAL (by decide)
  | some f => rfl

/-- `WSACancelBlockingCall` reports that there is no call to cancel. -/
theorem wsaCancelBlockingCall_effect (t : Blocking.ThreadState) :
    if t.gBlockingInProgress then (Blocking.wsaCancelBlockingCall t).2.lastError = t.lastError
    else Tells (Call.isError (Blocking.wsaCancelBlockingCall t).1,
      (Blocking.wsaCancelBlockingCall t).2.lastError) := by
  unfold Blocking.wsaCancelBlockingCall
  cases t.gBlockingInProgress with
  | false => exact tells_failed WSAEINVAL (by decide)
  | true => rfl

end Hooks

/-! ### Every call -/

/-- **The effect of a call.**  Apart from the silent calls, which leave the last error alone, every
    call of the API leaves an error if it fails, and none if it succeeds. -/
theorem effect_of_call {c : Call} (hdoc : c.Documented) {e : Int} {r : Bool × Int}
    (h : c.after e = some r) : if c.silent then r.2 = e else Tells r := by
  cases c with
  | wsaStartup => cases h; rfl
  | wsaCleanup => cases h; rfl
  | closesocket => cases h; exact tells_closesocket
  | ioctlsocket => cases h; exact tells_ioctlsocket hdoc
  | wsaSocketA => cases h; exact tells_wsaSocketA hdoc.1 hdoc.2
  | wsaSocketW => cases h; exact tells_wsaSocketA hdoc.1 hdoc.2
  | wsaAccept => cases h; exact tells_wsaAccept hdoc.1 hdoc.2
  | wsaConnect => cases h; exact tells_wsaConnect hdoc
  | wsaSocketPair => cases h; exact tells_wsaSocketPair hdoc
  | message => cases h; exact tells_message _ _ hdoc
  | wsaIoctl => cases h; exact tells_wsaIoctl _ _ hdoc
  | wsaHtonl => cases h; exact tells_convertWord _ _ _ _
  | wsaHtons => cases h; exact tells_convertWord _ _ _ _
  | wsaNtohl => cases h; exact tells_convertWord _ _ _ _
  | wsaNtohs => cases h; exact tells_convertWord _ _ _ _
  | wsaCreateEvent => cases h; exact tells_wsaCreateEvent _ _
  | wsaCloseEvent =>
    obtain ⟨o, ho, rfl⟩ := Option.map_eq_some_iff.mp h
    exact tells_wsaCloseEvent ho
  | wsaSetEvent =>
    obtain ⟨o, ho, rfl⟩ := Option.map_eq_some_iff.mp h
    exact tells_wsaSetEvent ho
  | wsaResetEvent =>
    obtain ⟨o, ho, rfl⟩ := Option.map_eq_some_iff.mp h
    exact tells_wsaResetEvent ho
  | wsaWaitForMultipleEvents =>
    obtain ⟨o, ho, rfl⟩ := Option.map_eq_some_iff.mp h
    exact tells_wsaWaitForMultipleEvents ho
  | wsaEventSelect =>
    obtain ⟨o, ho, rfl⟩ := Option.map_eq_some_iff.mp h
    exact tells_wsaEventSelect ho
  | wsaEnumNetworkEvents =>
    obtain ⟨o, ho, rfl⟩ := Option.map_eq_some_iff.mp h
    exact tells_wsaEnumNetworkEvents ho
  | wsaAsyncSelect => cases h; exact tells_succeeded
  | wsaAsyncGet => exact wsaAsyncGet_effect hdoc h
  | wsaCancelAsyncRequest =>
    obtain ⟨o, -, rfl⟩ := Option.map_eq_some_iff.mp h
    exact tells_succeeded
  | inetPtonA libc family t =>
    cases h
    show (Addr.inetPtonA libc family t).lastError.getD e = e
    unfold Addr.inetPtonA
    split
    · rfl
    · split <;> rfl
  | inetPtonW =>
    obtain ⟨o, ho, rfl⟩ := Option.map_eq_some_iff.mp h
    exact inetPtonW_effect ho e
  | inetNtopA => cases h; rfl
  | inetNtopW => cases h; exact inetNtopW_effect _ _ _ _ _ e
  | getAddrInfoA => cases h; rfl
  | getAddrInfoW =>
    obtain ⟨o, ho, rfl⟩ := Option.map_eq_some_iff.mp h
    exact getAddrInfoW_effect ho e
  | freeAddrInfoA => cases h; rfl
  | freeAddrInfoW =>
    obtain ⟨o, -, rfl⟩ := Option.map_eq_some_iff.mp h
    rfl
  | getNameInfoA => cases h; rfl
  | getNameInfoW => cases h; exact getNameInfoW_effect _ _ _ _ _ _ _ _ e
  | wsaAddressToStringA => cases h; exact tells_wsaAddressToStringA _ _ _ _ _
  | wsaAddressToStringW =>
    obtain ⟨o, ho, rfl⟩ := Option.map_eq_some_iff.mp h
    exact tells_wsaAddressToStringW ho
  | wsaStringToAddressA => cases h; exact tells_wsaStringToAddressA _ _ _ _ _
  | wsaStringToAddressW =>
    obtain ⟨o, ho, rfl⟩ := Option.map_eq_some_iff.mp h
    exact tells_wsaStringToAddressW ho
  | wsaEnumProtocolsA => cases h; exact tells_failed WSAENOBUFS (by decide)
  | wsaEnumProtocolsW => cases h; exact tells_failed WSAENOBUFS (by decide)
  | wsaDuplicateSocketA => cases h; exact tells_failed WSAEINVAL (by decide)
  | wsaDuplicateSocketW => cases h; exact tells_failed WSAEINVAL (by decide)
  | extension =>
    obtain ⟨o, ho, rfl⟩ := Option.map_eq_some_iff.mp h
    exact tells_extension ho
  | getAcceptExSockaddrs => cases h; rfl
  | createIoCompletionPort => cases h; exact tells_succeeded
  | getQueuedCompletionStatus => cases h; exact tells_failed WSAEOPNOTSUPP (by decide)
  | postQueuedCompletionStatus => cases h; exact tells_failed WSAEOPNOTSUPP (by decide)
  | getQueuedCompletionStatusEx => cases h; exact tells_failed WSAEOPNOTSUPP (by decide)
  | wsaGetExtensionFunctionPointer =>
    cases h
    exact tells_wsaGetExtensionFunctionPointer _ _
  | wsaGetOverlappedResult => cases h; exact tells_failed WSAEOPNOTSUPP (by decide)
  | wsaSetBlockingHook f t => cases h; exact wsaSetBlockingHook_effect f { t with lastError := e }
  | wsaUnhookBlockingHook => cases h; rfl
  | wsaCancelBlockingCall t =>
    cases h
    exact wsaCancelBlockingCall_effect { t with lastError := e }
  | wsaIsBlocking => cases h; rfl

end LinuxWinsock.LastError
