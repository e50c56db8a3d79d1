import LinuxWinsock.Lib.Fifo
import LinuxWinsock.Msg.Atomic
import LinuxWinsock.Msg.Buffers

namespace LinuxWinsock.Msg

open TransitionSystem

/-!
# Calls on connected sockets

Any number of processes call the six functions on connected stream sockets, in any order.  The
kernel is a parameter, with what is documented of its stream sockets: it moves as many bytes as it
likes in a call, or refuses it, and connections may be ended and reset at any time.

* `Call.Asks`, `Call.perform_asks` — a call asks the kernel for what it is about;
* `Connections`, `Documented` — the kernel, and what is documented of it;
* `next`, `system` — the processes;
* `sentTo`, `receivedAt` — the bytes that callers take to be sent and received, from what a call
  reports and what their buffers hold;
* `exit_of_call`, `effect_of_call` — the exits of a call, and all that it can do.
-/

/-! ### What a request asks for -/

/-- `MSG_PEEK`, `MSG_DONTROUTE`, `MSG_DONTWAIT`, `MSG_WAITALL`, `MSG_NOSIGNAL` and `MSG_MORE` of
    Linux.  With any other flag a call may be about other bytes than those of the stream, or may not
    leave them in the buffers: `MSG_OOB`, `MSG_TRUNC`, `MSG_ERRQUEUE`, `MSG_ZEROCOPY` and so on. -/
def plainFlags : BitVec 32 := 0xC146

namespace Request

def socket : Request → SOCKET
  | .readv s _ _ => s
  | .writev s _ _ => s
  | .recvmsg s _ _ => s
  | .sendmsg s _ _ => s

def iov : Request → List Iovec
  | .readv _ iov _ => iov
  | .writev _ iov _ => iov
  | .recvmsg _ msg _ => msg.msg_iov.getD []
  | .sendmsg _ msg _ => msg.msg_iov.getD []

def flags : Request → BitVec 32
  | .readv _ _ _ => 0
  | .writev _ _ _ => 0
  | .recvmsg _ _ flags => flags
  | .sendmsg _ _ flags => flags

def receives : Request → Bool
  | .readv _ _ _ => true
  | .writev _ _ _ => false
  | .recvmsg _ _ _ => true
  | .sendmsg _ _ _ => false

def peeks (r : Request) : Bool := r.flags &&& MSG_PEEK ≠ 0

def plain (r : Request) : Bool := r.flags &&& ~~~plainFlags = 0

/-- The other places where a request may write: those for the name and the control data. -/
def areas : Request → List Iovec
  | .readv _ _ _ => []
  | .writev _ _ _ => []
  | .recvmsg _ msg _ =>
    [⟨msg.msg_name, msg.msg_namelen.setWidth 64⟩, ⟨msg.msg_control, msg.msg_controllen⟩]
  | .sendmsg _ _ _ => []

/-- The number of buffers that the kernel is told is that of the array, or negative. -/
def Counted : Request → Prop
  | .readv _ iov iovcnt => iovcnt = iov.length ∨ iovcnt < 0
  | .writev _ iov iovcnt => iovcnt = iov.length ∨ iovcnt < 0
  | .recvmsg _ msg _ => msg.msg_iovlen = (msg.msg_iov.getD []).length
  | .sendmsg _ msg _ => msg.msg_iovlen = (msg.msg_iov.getD []).length

end Request

/-! ### What a call is about -/

namespace Call

def socket : Call → SOCKET
  | .send s .. => s
  | .sendTo s .. => s
  | .recv s .. => s
  | .recvFrom s .. => s
  | .recvMsg s .. => s
  | .sendMsg s .. => s

/-- The buffers of an array that may be missing. -/
def arrayIov (lpBuffers : Option (Nat → WSABUF)) (dwBufferCount : BitVec 32) : List Iovec :=
  (lpBuffers.map (fun bufs => toIovecs bufs dwBufferCount)).getD []

/-- The buffers of a message that may be missing. -/
def msgIov (lpMsg : Option WSAMSG) : List Iovec :=
  (lpMsg.map (fun m => toIovecs m.lpBuffers m.dwBufferCount)).getD []

/-- The buffers of the caller. -/
def iov : Call → List Iovec
  | .send _ bufs count _ _ => arrayIov bufs count
  | .sendTo _ bufs count _ _ _ _ => arrayIov bufs count
  | .recv _ bufs count _ _ => arrayIov bufs count
  | .recvFrom _ bufs count _ _ _ _ => arrayIov bufs count
  | .recvMsg _ msg _ => msgIov msg
  | .sendMsg _ msg _ _ => msgIov msg

def receives : Call → Bool
  | .send .. => false
  | .sendTo .. => false
  | .recv .. => true
  | .recvFrom .. => true
  | .recvMsg .. => true
  | .sendMsg .. => false

/-- The flags that reach the kernel: those of `WSASend` and `WSARecv` do not. -/
def flags : Call → BitVec 32
  | .send .. => 0
  | .sendTo _ _ _ _ flags _ _ => flags
  | .recv .. => 0
  | .recvFrom _ _ _ _ flags _ _ => flags.getD 0
  | .recvMsg _ msg _ => (msg.map WSAMSG.dwFlags).getD 0
  | .sendMsg _ _ flags _ => flags

def peeks (c : Call) : Bool := c.flags &&& MSG_PEEK ≠ 0

/-- The flags, if any, leave the call about the bytes of the stream. -/
def plain (c : Call) : Bool := c.flags &&& ~~~plainFlags = 0

/-- The places of the caller for the name and the control data. -/
def areas : Call → List Iovec
  | .recvFrom _ _ _ _ _ lpFrom lpFromlen =>
    let (name, namelen) := if lpFrom = 0 then (0, 0) else (lpFromlen.map (lpFrom, ·)).getD (0, 0)
    [⟨name, namelen.setWidth 64⟩, ⟨0, 0⟩]
  | .recvMsg _ msg _ =>
    (msg.map (fun m => [⟨m.name, m.namelen.setWidth 64⟩, ⟨m.control.buf, m.control.len⟩])).getD []
  | _ => []

/-- The request is for what the call is about. -/
structure Asks (c : Call) (r : Request) : Prop where
  socket : r.socket = c.socket
  iov : r.iov = c.iov
  receives : r.receives = c.receives
  flags : r.flags = c.flags
  areas : r.areas = c.areas
  counted : r.Counted

end Call

/-- The count is an `int` of `readv` and `writev`. -/
theorem counted_of_length {n : Nat} {count : BitVec 32} (h : n = count.toNat) :
    count.toInt = n ∨ count.toInt < 0 := by
  rw [BitVec.toInt_eq_toNat_cond]
  split <;> omega

theorem asks_of_planBuffers {c : Call} {bufs : Option (Nat → WSABUF)} {count : BitVec 32}
    {request : List Iovec → Request} {after : Answer → Outputs} {p : Plan}
    (hasks : ∀ iov, iov = Call.arrayIov bufs count → iov.length = count.toNat →
      c.Asks (request iov))
    (h : planBuffers bufs count request after = some p) : c.Asks p.request := by
  unfold planBuffers at h
  split at h
  · cases h
  · split at h
    · cases h
    · obtain rfl := Option.some.inj h
      exact hasks _ rfl (length_toIovecs _ _)

theorem asks_of_planMsg {c : Call} {msg : Option WSAMSG} {request : WSAMSG → Msghdr → Request}
    {after : WSAMSG → Answer → Outputs} {p : Plan}
    (hasks : ∀ m iov len, msg = some m → iov.getD [] = Call.msgIov msg →
      len = (iov.getD []).length →
      c.Asks (request m ⟨m.name, m.namelen, iov, len, m.control.buf, m.control.len⟩))
    (h : planMsg msg request after = some p) : c.Asks p.request := by
  obtain ⟨m, rfl, rfl⟩ := Option.map_eq_some_iff.mp h
  have hiov : (if m.dwBufferCount ≠ 0 then some (toIovecs m.lpBuffers m.dwBufferCount)
      else none).getD [] = toIovecs m.lpBuffers m.dwBufferCount := by
    by_cases hcount : m.dwBufferCount ≠ 0
    · rw [if_pos hcount, Option.getD_some]
    · rw [if_neg hcount, not_not.mp hcount]
      rfl
  exact hasks m _ _ rfl hiov (by rw [hiov, length_toIovecs])

/-- Every call has the exits of `scatterGather`, counts the bytes, and asks for what it is
    about. -/
theorem Call.perform_asks {σ : Type} (kernel : Kernel σ) (state : σ) (mallocOk : Bool) (c : Call) :
    ∃ plan, c.perform kernel state mallocOk =
        scatterGather kernel state mallocOk c.before plan ∧
      ∀ p, plan = some p → p.Counts c.before ∧ c.Asks p.request := by
  cases c with
  | send =>
    refine ⟨_, rfl, fun p hp => ⟨counts_planBuffers (fun _ => rfl) p hp, ?_⟩⟩
    apply asks_of_planBuffers _ hp
    exact fun _ hiov hlen => ⟨rfl, hiov, rfl, rfl, rfl, counted_of_length hlen⟩
  | sendTo =>
    refine ⟨_, rfl, fun p hp => ⟨counts_planBuffers (fun _ => rfl) p hp, ?_⟩⟩
    apply asks_of_planBuffers _ hp
    exact fun _ hiov hlen => ⟨rfl, hiov, rfl, rfl, rfl, hlen.symm⟩
  | recv =>
    refine ⟨_, rfl, fun p hp => ⟨counts_planBuffers (fun _ => rfl) p hp, ?_⟩⟩
    apply asks_of_planBuffers _ hp
    exact fun _ hiov hlen => ⟨rfl, hiov, rfl, rfl, rfl, counted_of_length hlen⟩
  | recvFrom =>
    refine ⟨_, rfl, fun p hp => ⟨counts_planBuffers (fun _ => rfl) p hp, ?_⟩⟩
    apply asks_of_planBuffers _ hp
    exact fun _ hiov hlen => ⟨rfl, hiov, rfl, rfl, rfl, hlen.symm⟩
  | recvMsg =>
    refine ⟨_, rfl, fun p hp => ⟨counts_planMsg (fun _ _ => rfl) p hp, ?_⟩⟩
    apply asks_of_planMsg _ hp
    rintro m iov len rfl hiov hlen
    exact ⟨rfl, hiov, rfl, rfl, rfl, hlen⟩
  | sendMsg =>
    refine ⟨_, rfl, fun p hp => ⟨counts_planMsg (fun _ _ => rfl) p hp, ?_⟩⟩
    apply asks_of_planMsg _ hp
    exact fun _ _ _ _ hiov hlen => ⟨rfl, hiov, rfl, rfl, rfl, hlen⟩

/-! ### The kernel -/

/-- A socket of a process. -/
abbrev Endpoint := Nat × SOCKET

/-- Which sockets are connected. -/
structure Wiring where
  peer : Endpoint → Endpoint
  peer_peer : ∀ e, peer (peer e) = e

/-- The memory of each process, and the state of the kernel. -/
structure World (Ω : Type) where
  memory : Nat → BitVec 64 → Byte
  os : Ω

/-- The kernel as processes with connected stream sockets meet it: what it does in a call, what else
    may happen in it, and what its state says of the stream to a socket. -/
structure Connections (Ω ε : Type) where
  kernel : Nat → Kernel (World Ω)
  happens : ε → Ω → Option Ω
  /-- The bytes that are under way to the socket. -/
  pending : Ω → Endpoint → List Byte
  /-- The socket has ended the stream that it sends. -/
  ended : Ω → Endpoint → Prop
  /-- The stream to the socket is cut off, as its connection was reset. -/
  broken : Ω → Endpoint → Prop
  /-- The socket has shut down its receiving side. -/
  deaf : Ω → Endpoint → Prop

variable {Ω ε : Type}

namespace Connections

variable (k : Connections Ω ε)

/-- What the process `pid` is answered. -/
def answer (pid : Nat) (w : World Ω) (r : Request) : Answer := ((k.kernel pid).call w r).1

/-- What the request leaves behind. -/
def after (pid : Nat) (w : World Ω) (r : Request) : World Ω := ((k.kernel pid).call w r).2

/-- Bytes are put behind the end of the stream to `e`, and taken from its front. -/
def Moves (e : Endpoint) (os : Ω) (put took : List Byte) (os' : Ω) : Prop :=
  Carries (k.broken os e) (k.broken os' e) (k.pending os e) put took (k.pending os' e)

/-- Bytes `bs` are received at `e`: they come to lie in the buffers one after the other, and leave
    the stream unless the call has peeked. -/
structure Takes (w : World Ω) (e : Endpoint) (areas iov : List Iovec) (peeks : Bool)
    (bs : List Byte) (w' : World Ω) : Prop where
  memory : Apart (areas ++ iov) → (gather (w'.memory e.1) iov).take bs.length = bs
  moves : ∀ g, k.Moves g w.os [] (if g = e ∧ peeks = false then bs else []) w'.os

/-- The first `n` bytes of the buffers are sent at `e`. -/
def Puts (net : Wiring) (w : World Ω) (e : Endpoint) (iov : List Iovec) (n : Nat) (w' : World Ω) :
    Prop :=
  ∀ g, k.Moves g w.os (if net.peer e = g then (gather (w.memory e.1) iov).take n else []) [] w'.os

/-- What is documented of stream sockets. -/
structure Documented (net : Wiring) : Prop where
  /-- No call moves 4 GiB. -/
  result_lt : ∀ pid w r, (k.answer pid w r).result < 2 ^ 32
  /-- A call that fails moves nothing. -/
  refused : ∀ pid w r, (k.answer pid w r).result < 0 →
    ∀ e, k.Moves e w.os [] [] (k.after pid w r).os
  received : ∀ pid w r, r.Counted → r.plain = true → r.receives = true →
    0 ≤ (k.answer pid w r).result →
    ∃ bs : List Byte, (k.answer pid w r).result = (bs.length : Int) ∧
      k.Takes w (pid, r.socket) r.areas r.iov r.peeks bs (k.after pid w r)
  sent : ∀ pid w r, r.Counted → r.plain = true → r.receives = false →
    0 ≤ (k.answer pid w r).result →
    k.Puts net w (pid, r.socket) r.iov (k.answer pid w r).result.toNat (k.after pid w r)
  /-- What else happens moves nothing either, but may cut a stream off. -/
  happened : ∀ ev os os', k.happens ev os = some os' → ∀ e, k.Moves e os [] [] os'
  /-- A stream that is ended stays so, and nothing more is sent. -/
  ended_after : ∀ pid w r e, k.ended w.os e → k.ended (k.after pid w r).os e
  ended_happens : ∀ ev os os' e, k.happens ev os = some os' → k.ended os e → k.ended os' e
  ended_sends : ∀ pid w r, r.receives = false → k.ended w.os (pid, r.socket) →
    (k.answer pid w r).result ≤ 0
  /-- A call with room that receives nothing has found the end of the stream, unless the stream
      was cut off or the socket receives no more. -/
  finished : ∀ pid w r, r.Counted → r.plain = true → r.receives = true → room r.iov ≠ 0 →
    (k.answer pid w r).result = 0 →
    ¬ k.broken w.os (pid, r.socket) → ¬ k.deaf w.os (pid, r.socket) →
    k.pending w.os (pid, r.socket) = [] ∧ k.ended w.os (net.peer (pid, r.socket))

end Connections

/-! ### The processes -/

/-- A step of a process, or of the kernel. -/
inductive Label (ε : Type) where
  /-- A process writes to its memory. -/
  | store (pid : Nat) (memory : BitVec 64 → Byte)
  /-- It calls a function, with or without memory for the array. -/
  | call (pid : Nat) (c : Call) (mallocOk : Bool)
  /-- Something else happens to the connections. -/
  | happens (ev : ε)

variable (k : Connections Ω ε) (net : Wiring)

/-- What a call leaves behind. -/
def outcome (w : World Ω) (pid : Nat) (c : Call) (mallocOk : Bool) : Outcome (World Ω) :=
  c.perform (k.kernel pid) w mallocOk

def next (w : World Ω) : Label ε → Option (World Ω)
  | .store pid memory => some { w with memory := Function.update w.memory pid memory }
  | .call pid c mallocOk => some (outcome k w pid c mallocOk).state
  | .happens ev => (k.happens ev w.os).map (fun os => { w with os := os })

/-- Nothing is under way at the start. -/
def system : TransitionSystem (World Ω) (Label ε) where
  init w := ∀ e, k.pending w.os e = []
  step w l w' := next k w l = some w'

/-! ### What callers see -/

/-- The byte count that a caller finds after a success. -/
def Outcome.count {σ : Type} (o : Outcome σ) : Nat := (o.outputs.numberOfBytes.getD 0).toNat

/-- The bytes that the caller takes to be sent to `e`: those of its buffers, as many as the call
    has reported. -/
def sentTo (e : Endpoint) (w : World Ω) : Label ε → List Byte
  | .call pid c mallocOk =>
    let o := outcome k w pid c mallocOk
    if c.receives = false ∧ net.peer (pid, c.socket) = e ∧ o.ret = 0 then
      (gather (w.memory pid) c.iov).take o.count
    else []
  | .store _ _ => []
  | .happens _ => []

/-- The bytes that the caller takes to be received at `e`, unless it has peeked: those of its
    buffers after the call, as many as the call has reported. -/
def receivedAt (e : Endpoint) (w : World Ω) : Label ε → List Byte
  | .call pid c mallocOk =>
    let o := outcome k w pid c mallocOk
    if c.receives ∧ c.peeks = false ∧ (pid, c.socket) = e ∧ o.ret = 0 then
      (gather (o.state.memory pid) c.iov).take o.count
    else []
  | .store _ _ => []
  | .happens _ => []

/-- The caller can tell what has been moved: its flags are plain, it asks for the byte count, and
    the buffers it receives into share no address with one another and the other places where the
    kernel writes. -/
def Accountable : Label ε → Prop
  | .call _ c _ => c.plain = true ∧ c.before.numberOfBytes ≠ none ∧
      (c.receives = true → Apart (c.areas ++ c.iov))
  | .store _ _ => True
  | .happens _ => True

/-! ### What a call can do -/

variable {k net} {w w' : World Ω} {e : Endpoint} {pid : Nat} {c : Call} {mallocOk : Bool}
  {l : Label ε}

/-- All that a call at `e` can do. -/
inductive CallEffect (k : Connections Ω ε) (net : Wiring) (w : World Ω) (e : Endpoint) (c : Call)
    (o : Outcome (World Ω)) : Prop
  | failed (hret : o.ret = SOCKET_ERROR) (hmoves : ∀ g, k.Moves g w.os [] [] o.state.os)
  | received {bs : List Byte} (hreceives : c.receives = true) (hret : o.ret = 0)
      (hcount : c.before.numberOfBytes ≠ none → o.count = bs.length)
      (htakes : k.Takes w e c.areas c.iov c.peeks bs o.state)
      (hfinished : bs = [] → room c.iov ≠ 0 → ¬ k.broken w.os e → ¬ k.deaf w.os e →
        k.pending w.os e = [] ∧ k.ended w.os (net.peer e))
  | sent {n : Nat} (hreceives : c.receives = false) (hret : o.ret = 0)
      (hcount : c.before.numberOfBytes ≠ none → o.count = n)
      (hputs : k.Puts net w e c.iov n o.state)

/-- The count that a caller asks for is the number of bytes. -/
theorem count_eq {σ : Type} {o : Outcome σ} {before : Outputs} {answer : Answer} {n : Nat}
    (hbytes : o.outputs.numberOfBytes = before.numberOfBytes.map (fun _ => answer.bytes))
    (hresult : answer.result = n) (hlt : answer.result < 2 ^ 32)
    (hasked : before.numberOfBytes ≠ none) : o.count = n := by
  obtain ⟨m, hm⟩ := Option.ne_none_iff_exists'.mp hasked
  rw [hm, Option.map_some] at hbytes
  have hnat : (answer.bytes.toNat : Int) = answer.result := toNat_bytes (by omega) hlt
  rw [Outcome.count, hbytes, Option.getD_some]
  omega

/-- The exits of a call at a process, and the request that it makes. -/
inductive CallExit (k : Connections Ω ε) (w : World Ω) (pid : Nat) (c : Call)
    (o : Outcome (World Ω)) : Prop
  | refused (hret : o.ret = SOCKET_ERROR) (hstate : o.state = w)
  | failed {r : Request} (hasks : c.Asks r) (hret : o.ret = SOCKET_ERROR)
      (hresult : (k.answer pid w r).result < 0) (hstate : o.state = k.after pid w r)
  | succeeded {r : Request} (hasks : c.Asks r) (hret : o.ret = 0)
      (hresult : 0 ≤ (k.answer pid w r).result) (hstate : o.state = k.after pid w r)
      (hbytes : o.outputs.numberOfBytes =
        c.before.numberOfBytes.map (fun _ => (k.answer pid w r).bytes))

theorem exit_of_call (k : Connections Ω ε) (w : World Ω) (pid : Nat) (c : Call) (mallocOk : Bool) :
    CallExit k w pid c (outcome k w pid c mallocOk) := by
  obtain ⟨plan, hperform, hplan⟩ := c.perform_asks (k.kernel pid) w mallocOk
  have hexit := exit_of_scatterGather (k.kernel pid) w mallocOk c.before plan
  rw [← hperform] at hexit
  rw [outcome]
  generalize c.perform (k.kernel pid) w mallocOk = o at hexit
  cases hexit with
  | refused _ => exact .refused rfl rfl
  | failed hp hresult _ => exact .failed (hplan _ hp).2 rfl hresult rfl
  | succeeded hp hresult _ =>
    obtain ⟨hcounts, hasks⟩ := hplan _ hp
    exact .succeeded hasks rfl (not_lt.mp hresult) rfl (hcounts _)

/-- **One call** with plain flags. -/
theorem effect_of_call (hk : k.Documented net) (w : World Ω) (pid : Nat) (mallocOk : Bool)
    (hplain : c.plain = true) :
    CallEffect k net w (pid, c.socket) c (outcome k w pid c mallocOk) := by
  cases exit_of_call k w pid c mallocOk with
  | refused hret hstate =>
    refine .failed hret (fun g => ?_)
    rw [hstate]
    exact Carries.refl _ _
  | failed _ hret hresult hstate =>
    refine .failed hret ?_
    rw [hstate]
    exact hk.refused pid w _ hresult
  | @succeeded r hasks hret hpos hstate hbytes =>
    have hlt := hk.result_lt pid w r
    have hpeeks : r.peeks = c.peeks := by rw [Request.peeks, Call.peeks, hasks.flags]
    have hrplain : r.plain = true := by
      rw [Request.plain, hasks.flags]
      exact hplain
    cases hreceives : c.receives with
    | true =>
      have hr : r.receives = true := hasks.receives.trans hreceives
      obtain ⟨bs, hlen, htakes⟩ := hk.received pid w r hasks.counted hrplain hr hpos
      rw [hasks.socket, hasks.areas, hasks.iov, hpeeks, ← hstate] at htakes
      refine .received hreceives hret (count_eq hbytes hlen hlt) htakes (fun hnil hroom => ?_)
      have hzero : (k.answer pid w r).result = 0 := by rw [hlen, hnil]; rfl
      have hfinished := hk.finished pid w r hasks.counted hrplain hr (hasks.iov ▸ hroom) hzero
      rwa [hasks.socket] at hfinished
    | false =>
      have hr : r.receives = false := hasks.receives.trans hreceives
      have hputs := hk.sent pid w r hasks.counted hrplain hr hpos
      rw [hasks.socket, hasks.iov, ← hstate] at hputs
      exact .sent hreceives hret (count_eq hbytes (Int.toNat_of_nonneg hpos).symm hlt) hputs

end LinuxWinsock.Msg
