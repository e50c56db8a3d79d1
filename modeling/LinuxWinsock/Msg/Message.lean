import LinuxWinsock.Errno

namespace LinuxWinsock.Msg

/-!
# Scatter-gather calls

`WSASend`, `WSASendTo`, `WSARecv`, `WSARecvFrom`, `WSARecvMsg` and `WSASendMsg` of
`wsa_extended.c`.  The kernel is a parameter: it answers a request, and changes its state, to
which the buffers of the process belong as well.

* `scatterGather` — the exits that the six functions have in common;
* `wsaSend`, `wsaSendTo`, `wsaRecv`, `wsaRecvFrom`, `wsaRecvMsg`, `wsaSendMsg` — the functions;
* `Call.perform` — a call of any of them.
-/

/-! ### Requests to the kernel -/

/-- `struct iovec` -/
structure Iovec where
  iov_base : BitVec 64
  iov_len : BitVec 64
  deriving DecidableEq

/-- `struct msghdr`; `msg_iov` is `none` for `NULL`, and names and control data are pointers. -/
structure Msghdr where
  msg_name : BitVec 64
  msg_namelen : BitVec 32
  msg_iov : Option (List Iovec)
  msg_iovlen : Nat
  msg_control : BitVec 64
  msg_controllen : BitVec 64
  deriving DecidableEq

/-- A system call on a socket. -/
inductive Request where
  | readv (s : SOCKET) (iov : List Iovec) (iovcnt : Int)
  | writev (s : SOCKET) (iov : List Iovec) (iovcnt : Int)
  | recvmsg (s : SOCKET) (msg : Msghdr) (flags : BitVec 32)
  | sendmsg (s : SOCKET) (msg : Msghdr) (flags : BitVec 32)
  deriving DecidableEq

/-- What a system call returns: its result, `errno`, and the fields of the `msghdr` that
    `recvmsg` sets. -/
structure Answer where
  result : Int
  errno : Int
  msg_namelen : BitVec 32
  msg_controllen : BitVec 64
  msg_flags : BitVec 32

/-- The kernel, over its states. -/
structure Kernel (σ : Type) where
  call : σ → Request → Answer × σ

/-! ### Arguments and outputs -/

/-- `WSABUF` -/
structure WSABUF where
  len : BitVec 64
  buf : BitVec 64

/-- `WSAMSG`; `lpBuffers` is what the array holds, which is not looked at if there are no
    buffers. -/
structure WSAMSG where
  name : BitVec 64
  namelen : BitVec 32
  lpBuffers : Nat → WSABUF
  dwBufferCount : BitVec 32
  control : WSABUF
  dwFlags : BitVec 32

/-- What the output arguments of a call point to; `none` for `NULL`, or for an argument that the
    function does not have. -/
structure Outputs where
  numberOfBytes : Option (BitVec 32) := none
  flags : Option (BitVec 32) := none
  fromlen : Option (BitVec 32) := none
  msg : Option WSAMSG := none

/-- The array that a function allocates, and releases. -/
inductive HeapEvent where
  | malloc
  | free
  deriving DecidableEq

/-- What a call leaves behind: its result, the last error, the outputs, the state of the kernel,
    and what it has asked of the kernel and of the heap. -/
structure Outcome (σ : Type) where
  ret : Int
  lastError : Int
  outputs : Outputs
  state : σ
  requests : List Request
  heap : List HeapEvent

/-! ### The functions -/

/-- The conversion of the buffers. -/
def toIovecs (lpBuffers : Nat → WSABUF) (dwBufferCount : BitVec 32) : List Iovec :=
  (List.range dwBufferCount.toNat).map (fun i => ⟨(lpBuffers i).buf, (lpBuffers i).len⟩)

/-- What a function does with arguments that it accepts: the array that it allocates, if any, its
    request, and its outputs after an answer. -/
structure Plan where
  iov : Option (List Iovec)
  request : Request
  after : Answer → Outputs

/-- The exits of the functions.  There is no plan for arguments that are refused, and `mallocOk`
    tells whether there is memory for the array. -/
def scatterGather {σ : Type} (kernel : Kernel σ) (state : σ) (mallocOk : Bool) (before : Outputs)
    (plan : Option Plan) : Outcome σ :=
  match plan with
  | none => ⟨SOCKET_ERROR, WSAEFAULT, before, state, [], []⟩
  | some plan =>
    if plan.iov.isSome && !mallocOk then
      ⟨SOCKET_ERROR, WSA_NOT_ENOUGH_MEMORY, before, state, [], []⟩
    else
      let (answer, state) := kernel.call state plan.request
      -- the array is released before the result is looked at
      let heap := if plan.iov.isSome then [.malloc, .free] else []
      if answer.result < 0 then
        ⟨SOCKET_ERROR, errnoToWsaError answer.errno, before, state, [plan.request], heap⟩
      else ⟨0, 0, plan.after answer, state, [plan.request], heap⟩

/-- `(DWORD)result` -/
def Answer.bytes (answer : Answer) : BitVec 32 := BitVec.ofInt 32 answer.result

/-- The plan for an array of buffers, which must be there and not be empty. -/
def planBuffers (lpBuffers : Option (Nat → WSABUF)) (dwBufferCount : BitVec 32)
    (request : List Iovec → Request) (after : Answer → Outputs) : Option Plan :=
  match lpBuffers with
  | none => none
  | some bufs =>
    if dwBufferCount = 0 then none
    else
      let iov := toIovecs bufs dwBufferCount
      some ⟨some iov, request iov, after⟩

/-- The plan for a `WSAMSG`, which may have no buffers. -/
def planMsg (lpMsg : Option WSAMSG) (request : WSAMSG → Msghdr → Request)
    (after : WSAMSG → Answer → Outputs) : Option Plan :=
  lpMsg.map (fun m =>
    let iov := if m.dwBufferCount ≠ 0 then some (toIovecs m.lpBuffers m.dwBufferCount) else none
    ⟨iov, request m ⟨m.name, m.namelen, iov, m.dwBufferCount.toNat, m.control.buf, m.control.len⟩,
      after m⟩)

variable {σ : Type} (kernel : Kernel σ) (state : σ) (mallocOk : Bool)

/-- `dwFlags` is not used. -/
def wsaSend (s : SOCKET) (lpBuffers : Option (Nat → WSABUF)) (dwBufferCount : BitVec 32)
    (lpNumberOfBytesSent : Option (BitVec 32)) (_dwFlags : BitVec 32) : Outcome σ :=
  scatterGather kernel state mallocOk { numberOfBytes := lpNumberOfBytesSent }
    (planBuffers lpBuffers dwBufferCount (fun iov => .writev s iov dwBufferCount.toInt)
      (fun answer => { numberOfBytes := lpNumberOfBytesSent.map (fun _ => answer.bytes) }))

def wsaSendTo (s : SOCKET) (lpBuffers : Option (Nat → WSABUF)) (dwBufferCount : BitVec 32)
    (lpNumberOfBytesSent : Option (BitVec 32)) (dwFlags : BitVec 32) (lpTo : BitVec 64)
    (iTolen : BitVec 32) : Outcome σ :=
  scatterGather kernel state mallocOk { numberOfBytes := lpNumberOfBytesSent }
    (planBuffers lpBuffers dwBufferCount
      (fun iov => .sendmsg s ⟨lpTo, iTolen, some iov, dwBufferCount.toNat, 0, 0⟩ dwFlags)
      (fun answer => { numberOfBytes := lpNumberOfBytesSent.map (fun _ => answer.bytes) }))

/-- `*lpFlags` is not looked at, and is 0 after the call. -/
def wsaRecv (s : SOCKET) (lpBuffers : Option (Nat → WSABUF)) (dwBufferCount : BitVec 32)
    (lpNumberOfBytesRecvd lpFlags : Option (BitVec 32)) : Outcome σ :=
  scatterGather kernel state mallocOk { numberOfBytes := lpNumberOfBytesRecvd, flags := lpFlags }
    (planBuffers lpBuffers dwBufferCount (fun iov => .readv s iov dwBufferCount.toInt)
      (fun answer =>
        { numberOfBytes := lpNumberOfBytesRecvd.map (fun _ => answer.bytes)
          flags := lpFlags.map (fun _ => 0) }))

def wsaRecvFrom (s : SOCKET) (lpBuffers : Option (Nat → WSABUF)) (dwBufferCount : BitVec 32)
    (lpNumberOfBytesRecvd lpFlags : Option (BitVec 32)) (lpFrom : BitVec 64)
    (lpFromlen : Option (BitVec 32)) : Outcome σ :=
  -- the name is set only if both of its arguments are there
  let (name, namelen) := if lpFrom = 0 then (0, 0) else (lpFromlen.map (lpFrom, ·)).getD (0, 0)
  scatterGather kernel state mallocOk
    { numberOfBytes := lpNumberOfBytesRecvd, flags := lpFlags, fromlen := lpFromlen }
    (planBuffers lpBuffers dwBufferCount
      (fun iov => .recvmsg s ⟨name, namelen, some iov, dwBufferCount.toNat, 0, 0⟩
        (lpFlags.getD 0))
      (fun answer =>
        { numberOfBytes := lpNumberOfBytesRecvd.map (fun _ => answer.bytes)
          flags := lpFlags.map (fun _ => answer.msg_flags)
          fromlen := lpFromlen.map (fun _ => answer.msg_namelen) }))

def wsaRecvMsg (s : SOCKET) (lpMsg : Option WSAMSG) (lpdwNumberOfBytesRecvd : Option (BitVec 32)) :
    Outcome σ :=
  scatterGather kernel state mallocOk { numberOfBytes := lpdwNumberOfBytesRecvd, msg := lpMsg }
    (planMsg lpMsg (fun m hdr => .recvmsg s hdr m.dwFlags)
      (fun m answer =>
        { numberOfBytes := lpdwNumberOfBytesRecvd.map (fun _ => answer.bytes)
          msg := some
            { m with
              namelen := answer.msg_namelen
              dwFlags := answer.msg_flags
              control := { m.control with len := answer.msg_controllen } } }))

/-- The flags are an argument of the function, and not those of the message. -/
def wsaSendMsg (s : SOCKET) (lpMsg : Option WSAMSG) (dwFlags : BitVec 32)
    (lpNumberOfBytesSent : Option (BitVec 32)) : Outcome σ :=
  scatterGather kernel state mallocOk { numberOfBytes := lpNumberOfBytesSent, msg := lpMsg }
    (planMsg lpMsg (fun _ hdr => .sendmsg s hdr dwFlags)
      (fun m answer =>
        { numberOfBytes := lpNumberOfBytesSent.map (fun _ => answer.bytes), msg := some m }))

/-- A call of one of the functions. -/
inductive Call where
  | send (s : SOCKET) (lpBuffers : Option (Nat → WSABUF)) (dwBufferCount : BitVec 32)
      (lpNumberOfBytesSent : Option (BitVec 32)) (dwFlags : BitVec 32)
  | sendTo (s : SOCKET) (lpBuffers : Option (Nat → WSABUF)) (dwBufferCount : BitVec 32)
      (lpNumberOfBytesSent : Option (BitVec 32)) (dwFlags : BitVec 32) (lpTo : BitVec 64)
      (iTolen : BitVec 32)
  | recv (s : SOCKET) (lpBuffers : Option (Nat → WSABUF)) (dwBufferCount : BitVec 32)
      (lpNumberOfBytesRecvd lpFlags : Option (BitVec 32))
  | recvFrom (s : SOCKET) (lpBuffers : Option (Nat → WSABUF)) (dwBufferCount : BitVec 32)
      (lpNumberOfBytesRecvd lpFlags : Option (BitVec 32)) (lpFrom : BitVec 64)
      (lpFromlen : Option (BitVec 32))
  | recvMsg (s : SOCKET) (lpMsg : Option WSAMSG)
      (lpdwNumberOfBytesRecvd : Option (BitVec 32))
  | sendMsg (s : SOCKET) (lpMsg : Option WSAMSG) (dwFlags : BitVec 32)
      (lpNumberOfBytesSent : Option (BitVec 32))

namespace Call

/-- What the outputs point to before the call. -/
def before : Call → Outputs
  | .send _ _ _ sent _ => { numberOfBytes := sent }
  | .sendTo _ _ _ sent _ _ _ => { numberOfBytes := sent }
  | .recv _ _ _ recvd flags => { numberOfBytes := recvd, flags := flags }
  | .recvFrom _ _ _ recvd flags _ fromlen =>
    { numberOfBytes := recvd, flags := flags, fromlen := fromlen }
  | .recvMsg _ msg recvd => { numberOfBytes := recvd, msg := msg }
  | .sendMsg _ msg _ sent => { numberOfBytes := sent, msg := msg }

/-- The call. -/
def perform : Call → Outcome σ
  | .send s bufs count sent flags => wsaSend kernel state mallocOk s bufs count sent flags
  | .sendTo s bufs count sent flags lpTo tolen =>
    wsaSendTo kernel state mallocOk s bufs count sent flags lpTo tolen
  | .recv s bufs count recvd flags => wsaRecv kernel state mallocOk s bufs count recvd flags
  | .recvFrom s bufs count recvd flags lpFrom fromlen =>
    wsaRecvFrom kernel state mallocOk s bufs count recvd flags lpFrom fromlen
  | .recvMsg s msg recvd => wsaRecvMsg kernel state mallocOk s msg recvd
  | .sendMsg s msg flags sent => wsaSendMsg kernel state mallocOk s msg flags sent

end Call

end LinuxWinsock.Msg
