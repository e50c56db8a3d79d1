import LinuxWinsock.Msg.Stream

namespace LinuxWinsock.Msg

/-!
# The ways to receive and to send

`WSARecv` and `WSASend` go through `readv` and `writev`, which take no flags; the other functions
go through `recvmsg` and `sendmsg`.

* `scatterGather_array`, `planMsg_plain` — the calls on buffers that are there, with memory for
  the array;
* `received_wsaRecv`, `received_wsaRecvFrom`, `received_wsaRecvMsg` — what a caller sees of each;
* `receivesAgree_iff` — the three ways to receive agree exactly if the flags make no difference
  to the kernel, and it reports none;
* `flagsIgnored_zero`, `not_receivesAgree_of_peek` — without flags they do if the kernel reports
  none, and they differ on each peek at data;
* `sendsAgree_iff` — the three ways to send agree exactly if there are no flags.
-/

variable {σ : Type} {kernel : Kernel σ} {state : σ} {mallocOk : Bool} {s : SOCKET}
  {bufs : Nat → WSABUF} {count f g : BitVec 32} {n fromlen : Option (BitVec 32)}

/-! ### Calls on buffers that are there -/

@[simp] theorem length_toIovecs (bufs : Nat → WSABUF) (count : BitVec 32) :
    (toIovecs bufs count).length = count.toNat := by
  simp [toIovecs]

/-- A count that fits `IOV_MAX` keeps its value as an `int`. -/
theorem toInt_count (h : count.toNat ≤ IOV_MAX) :
    count.toInt = ((toIovecs bufs count).length : Int) := by
  rw [length_toIovecs, BitVec.toInt_eq_toNat_of_lt]
  unfold IOV_MAX at h
  omega

/-- The outcome after an answer. -/
def afterCall (before : Outputs) (request : Request) (after : Answer → Outputs)
    (a : Answer × σ) : Outcome σ :=
  if a.1.result < 0 then
    ⟨SOCKET_ERROR, errnoToWsaError a.1.errno, before, a.2, [request], [.malloc, .free]⟩
  else ⟨0, 0, after a.1, a.2, [request], [.malloc, .free]⟩

theorem scatterGather_array (before : Outputs) (iov : List Iovec) (request : Request)
    (after : Answer → Outputs) :
    scatterGather kernel state true before (some ⟨some iov, request, after⟩) =
      afterCall before request after (kernel.call state request) := by
  simp [scatterGather, afterCall]

theorem scatterGather_noMemory (before : Outputs) (iov : List Iovec) (request : Request)
    (after : Answer → Outputs) :
    scatterGather kernel state false before (some ⟨some iov, request, after⟩) =
      ⟨SOCKET_ERROR, WSA_NOT_ENOUGH_MEMORY, before, state, [], []⟩ := by
  simp [scatterGather]

theorem planBuffers_some (hcount : count ≠ 0) (request : List Iovec → Request)
    (after : Answer → Outputs) :
    planBuffers (some bufs) count request after =
      some ⟨some (toIovecs bufs count), request (toIovecs bufs count), after⟩ := by
  simp only [planBuffers, if_neg hcount]

/-- A message without name and control data, with the flags `f`. -/
def plainMsg (bufs : Nat → WSABUF) (count f : BitVec 32) : WSAMSG := ⟨0, 0, bufs, count, ⟨0, 0⟩, f⟩

theorem planMsg_plain (hcount : count ≠ 0) (request : WSAMSG → Msghdr → Request)
    (after : WSAMSG → Answer → Outputs) :
    planMsg (some (plainMsg bufs count f)) request after =
      some ⟨some (toIovecs bufs count),
        request (plainMsg bufs count f) (plainHdr (toIovecs bufs count)),
        after (plainMsg bufs count f)⟩ := by
  have hne : (plainMsg bufs count f).dwBufferCount ≠ 0 := hcount
  simp only [planMsg, Option.map_some, if_pos hne]
  simp only [plainMsg, plainHdr, length_toIovecs]

/-- Calls that return the same show the same, if only the error number, the byte count and the
    state are shown. -/
theorem Same.congr {β : Type} {a b : Answer × σ} (h : Same a b) (failed : Int → σ → β)
    (done : BitVec 32 → σ → β) :
    (if a.1.result < 0 then failed a.1.errno a.2 else done a.1.bytes a.2) =
      if b.1.result < 0 then failed b.1.errno b.2 else done b.1.bytes b.2 := by
  have hbytes : a.1.bytes = b.1.bytes := congrArg (BitVec.ofInt 32) h.result
  rw [h.result, h.state, hbytes]
  by_cases hb : b.1.result < 0
  · rw [if_pos hb, if_pos hb, h.errno (h.result ▸ hb)]
  · rw [if_neg hb, if_neg hb]

/-! ### Receiving -/

/-- What a caller sees of a receive call: its result, the last error, the byte count, the flags,
    and the state of the kernel with the queue and the buffers. -/
structure Received (σ : Type) where
  ret : Int
  lastError : Int
  bytes : Option (BitVec 32)
  flags : Option (BitVec 32)
  state : σ

/-- What the caller sees of an outcome, where `flags` are the flags among the outputs. -/
def Outcome.received (flags : Outputs → Option (BitVec 32)) (o : Outcome σ) : Received σ :=
  ⟨o.ret, o.lastError, o.outputs.numberOfBytes, flags o.outputs, o.state⟩

/-- What a caller sees after an answer, for the byte count `n` and the flags `f` before the
    call. -/
def Received.after (n : Option (BitVec 32)) (f : BitVec 32) (flags : Answer → BitVec 32)
    (a : Answer × σ) : Received σ :=
  if a.1.result < 0 then ⟨SOCKET_ERROR, errnoToWsaError a.1.errno, n, some f, a.2⟩
  else ⟨0, 0, n.map (fun _ => a.1.bytes), some (flags a.1), a.2⟩

/-- The flags of the message among the outputs. -/
def Outputs.msgFlags (o : Outputs) : Option (BitVec 32) := o.msg.map WSAMSG.dwFlags

/-- The three ways to receive, with the flags `f`, without a name and control data, show the
    same. -/
structure ReceivesAgree (kernel : Kernel σ) (state : σ) (mallocOk : Bool) (s : SOCKET)
    (bufs : Nat → WSABUF) (count : BitVec 32) (n : Option (BitVec 32)) (f : BitVec 32)
    (fromlen : Option (BitVec 32)) : Prop where
  recv_recvFrom :
    (wsaRecv kernel state mallocOk s (some bufs) count n (some f)).received Outputs.flags =
      (wsaRecvFrom kernel state mallocOk s (some bufs) count n (some f) 0 fromlen).received
        Outputs.flags
  recvFrom_recvMsg :
    (wsaRecvFrom kernel state mallocOk s (some bufs) count n (some f) 0 fromlen).received
        Outputs.flags =
      (wsaRecvMsg kernel state mallocOk s (some (plainMsg bufs count f)) n).received
        Outputs.msgFlags

theorem received_afterCall {before : Outputs} {request : Request} {after : Answer → Outputs}
    {flags : Outputs → Option (BitVec 32)} {g : Answer → BitVec 32} (a : Answer × σ)
    (hbefore : flags before = some f) (hafter : flags (after a.1) = some (g a.1))
    (hbytes : (after a.1).numberOfBytes = before.numberOfBytes.map (fun _ => a.1.bytes)) :
    (afterCall before request after a).received flags =
      Received.after before.numberOfBytes f g a := by
  by_cases hresult : a.1.result < 0
  · simp only [afterCall, Received.after, if_pos hresult, Outcome.received, hbefore]
  · simp only [afterCall, Received.after, if_neg hresult, Outcome.received, hafter, hbytes]

/-- What `WSARecv` shows: `readv` without flags, and no flags after it. -/
theorem received_wsaRecv (hcount : count ≠ 0) :
    (wsaRecv kernel state true s (some bufs) count n (some f)).received Outputs.flags =
      Received.after n f (fun _ => 0)
        (kernel.call state (.readv s (toIovecs bufs count) count.toInt)) := by
  rw [wsaRecv, planBuffers_some hcount, scatterGather_array]
  exact received_afterCall _ rfl rfl rfl

/-- Without a name there is none in the request, with or without a length. -/
theorem wsaRecvFrom_noName (n flags fromlen : Option (BitVec 32)) :
    wsaRecvFrom kernel state mallocOk s (some bufs) count n flags 0 fromlen =
      scatterGather kernel state mallocOk { numberOfBytes := n, flags := flags, fromlen := fromlen }
        (planBuffers (some bufs) count
          (fun iov => .recvmsg s ⟨0, 0, some iov, count.toNat, 0, 0⟩ (flags.getD 0))
          (fun answer =>
            { numberOfBytes := n.map (fun _ => answer.bytes)
              flags := flags.map (fun _ => answer.msg_flags)
              fromlen := fromlen.map (fun _ => answer.msg_namelen) })) := by
  rw [wsaRecvFrom, if_pos rfl]

theorem received_wsaRecvFrom (hcount : count ≠ 0) :
    (wsaRecvFrom kernel state true s (some bufs) count n (some f) 0 fromlen).received
        Outputs.flags =
      Received.after n f Answer.msg_flags
        (kernel.call state (.recvmsg s (plainHdr (toIovecs bufs count)) f)) := by
  rw [wsaRecvFrom_noName, planBuffers_some hcount, scatterGather_array, plainHdr, length_toIovecs]
  exact received_afterCall _ rfl rfl rfl

theorem received_wsaRecvMsg (hcount : count ≠ 0) :
    (wsaRecvMsg kernel state true s (some (plainMsg bufs count f)) n).received
        Outputs.msgFlags =
      Received.after n f Answer.msg_flags
        (kernel.call state (.recvmsg s (plainHdr (toIovecs bufs count)) f)) := by
  rw [wsaRecvMsg, planMsg_plain hcount, scatterGather_array]
  exact received_afterCall _ rfl rfl rfl

/-- `WSARecvFrom` and `WSARecvMsg` show the same. -/
theorem recvFrom_eq_recvMsg (hcount : count ≠ 0) (n : Option (BitVec 32)) (f : BitVec 32)
    (fromlen : Option (BitVec 32)) :
    (wsaRecvFrom kernel state mallocOk s (some bufs) count n (some f) 0 fromlen).received
        Outputs.flags =
      (wsaRecvMsg kernel state mallocOk s (some (plainMsg bufs count f)) n).received
        Outputs.msgFlags := by
  cases mallocOk with
  | true => rw [received_wsaRecvFrom hcount, received_wsaRecvMsg hcount]
  | false =>
    rw [wsaRecvFrom_noName, wsaRecvMsg, planBuffers_some hcount, planMsg_plain hcount,
      scatterGather_noMemory, scatterGather_noMemory]
    rfl

/-- Of calls that return the same a caller sees the same, if no flags are shown. -/
theorem Received.after_congr {a b : Answer × σ} (h : Same a b) :
    Received.after n f (fun _ => 0) a = Received.after n f (fun _ => 0) b :=
  h.congr (fun errno state => Received.mk SOCKET_ERROR (errnoToWsaError errno) n (some f) state)
    (fun bytes state => Received.mk 0 0 (n.map (fun _ => bytes)) (some 0) state)

/-- The answer `b` shows the same as `a`, and reports no flags; the byte count matters if it is
    asked for. -/
structure Alike (counted : Prop) (a b : Answer × σ) : Prop where
  state : a.2 = b.2
  fails : a.1.result < 0 ↔ b.1.result < 0
  error : a.1.result < 0 → errnoToWsaError a.1.errno = errnoToWsaError b.1.errno
  bytes : ¬ a.1.result < 0 → counted → a.1.bytes = b.1.bytes
  flags : ¬ a.1.result < 0 → b.1.msg_flags = 0

/-- The kernel's `recvmsg` does with the flags `f` what it does without flags, and reports
    none. -/
def FlagsIgnored (kernel : Kernel σ) (state : σ) (s : SOCKET) (iov : List Iovec) (counted : Prop)
    (f : BitVec 32) : Prop :=
  Alike counted (kernel.call state (.recvmsg s (plainHdr iov) 0))
    (kernel.call state (.recvmsg s (plainHdr iov) f))

/-- Without flags only those that the kernel reports can make a difference. -/
theorem flagsIgnored_zero {iov : List Iovec} {counted : Prop} :
    FlagsIgnored kernel state s iov counted 0 ↔
      (¬ (kernel.call state (.recvmsg s (plainHdr iov) 0)).1.result < 0 →
        (kernel.call state (.recvmsg s (plainHdr iov) 0)).1.msg_flags = 0) := by
  constructor
  · intro h
    exact h.flags
  · intro h
    exact ⟨rfl, Iff.rfl, fun _ => rfl, fun _ _ => rfl, h⟩

/-- Answers after which a caller sees the same are alike. -/
theorem alike_of_after {a b : Answer × σ}
    (h : Received.after n f (fun _ => 0) a = Received.after n f Answer.msg_flags b) :
    Alike (n ≠ none) a b := by
  unfold Received.after at h
  by_cases ha : a.1.result < 0
  · by_cases hb : b.1.result < 0
    · rw [if_pos ha, if_pos hb, Received.mk.injEq] at h
      obtain ⟨-, herror, -, -, hstate⟩ := h
      exact ⟨hstate, iff_of_true ha hb, fun _ => herror, absurd ha, absurd ha⟩
    · rw [if_pos ha, if_neg hb, Received.mk.injEq] at h
      exact absurd h.1 (by decide)
  · by_cases hb : b.1.result < 0
    · rw [if_neg ha, if_pos hb, Received.mk.injEq] at h
      exact absurd h.1 (by decide)
    · rw [if_neg ha, if_neg hb, Received.mk.injEq] at h
      obtain ⟨-, -, hbytes, hflags, hstate⟩ := h
      refine ⟨hstate, iff_of_false ha hb, fun hneg => absurd hneg ha, fun _ hcounted => ?_,
        fun _ => (Option.some.inj hflags).symm⟩
      obtain ⟨n', rfl⟩ := Option.ne_none_iff_exists'.mp hcounted
      exact Option.some.inj hbytes

theorem after_eq_iff {a b : Answer × σ} :
    Received.after n f (fun _ => 0) a = Received.after n f Answer.msg_flags b ↔
      Alike (n ≠ none) a b := by
  refine ⟨alike_of_after, fun h => ?_⟩
  unfold Received.after
  by_cases ha : a.1.result < 0
  · rw [if_pos ha, if_pos (h.fails.mp ha), h.error ha, h.state]
  · rw [if_neg ha, if_neg (mt h.fails.mpr ha), h.state, h.flags ha]
    cases n with
    | none => rfl
    | some n => rw [Option.map_some, Option.map_some, h.bytes ha (Option.some_ne_none n)]

/-- With memory for the array, `WSARecv` and `WSARecvFrom` show the same exactly if the flags make
    no difference. -/
theorem recv_eq_recvFrom_iff (hreadv : kernel.ReadvIsRecvmsg) (hcount : count ≠ 0)
    (hmax : count.toNat ≤ IOV_MAX) (fromlen : Option (BitVec 32)) :
    (wsaRecv kernel state true s (some bufs) count n (some f)).received Outputs.flags =
        (wsaRecvFrom kernel state true s (some bufs) count n (some f) 0 fromlen).received
          Outputs.flags ↔
      FlagsIgnored kernel state s (toIovecs bufs count) (n ≠ none) f := by
  have hlen : (toIovecs bufs count).length ≤ IOV_MAX := by rwa [length_toIovecs]
  rw [received_wsaRecv hcount, received_wsaRecvFrom hcount, toInt_count hmax,
    Received.after_congr (hreadv state s _ hlen)]
  exact after_eq_iff

/-- **The ways to receive**, into any buffers, with any flags: they agree exactly if there is no
    memory for the array, or the kernel does with the flags what it does without them. -/
theorem receivesAgree_iff (hreadv : kernel.ReadvIsRecvmsg) (state : σ) (mallocOk : Bool)
    (s : SOCKET) (bufs : Nat → WSABUF) (hcount : count ≠ 0) (hmax : count.toNat ≤ IOV_MAX)
    (n : Option (BitVec 32)) (f : BitVec 32) (fromlen : Option (BitVec 32)) :
    ReceivesAgree kernel state mallocOk s bufs count n f fromlen ↔
      mallocOk = false ∨ FlagsIgnored kernel state s (toIovecs bufs count) (n ≠ none) f := by
  cases mallocOk with
  | true =>
    rw [← recv_eq_recvFrom_iff hreadv hcount hmax fromlen]
    exact ⟨fun h => .inr h.recv_recvFrom, fun h =>
      ⟨h.resolve_left (by decide), recvFrom_eq_recvMsg hcount n f fromlen⟩⟩
  | false =>
    refine iff_of_true ⟨?_, recvFrom_eq_recvMsg hcount n f fromlen⟩ (.inl rfl)
    rw [wsaRecv, wsaRecvFrom_noName, planBuffers_some hcount, planBuffers_some hcount,
      scatterGather_noMemory, scatterGather_noMemory]
    rfl

/-- A peek at data that is there: `WSARecv` takes it out of the queue, and the others do not. -/
theorem not_receivesAgree_of_peek {queue : σ → List Byte} (hreadv : kernel.ReadvIsRecvmsg)
    (hpeek : kernel.HonoursPeek queue) (hcount : count ≠ 0) (hmax : count.toNat ≤ IOV_MAX)
    (hdata : 0 < (kernel.call state (.recvmsg s (plainHdr (toIovecs bufs count)) 0)).1.result)
    (hf : f &&& MSG_PEEK ≠ 0) : ¬ ReceivesAgree kernel state true s bufs count n f fromlen := by
  intro h
  have hignored := (recv_eq_recvFrom_iff hreadv hcount hmax fromlen).mp h.recv_recvFrom
  have hkept := hpeek.kept state s (plainHdr (toIovecs bufs count)) f hf
  rw [← hignored.state] at hkept
  exact hpeek.taken state s _ hdata hkept

/-- A stream on which three bytes have arrived. -/
def Stream.arrived : Stream := ⟨[1, 2, 3], [], [], fun _ => 0⟩

/-- A peek at them with `WSARecv` takes them out of the queue. -/
theorem not_receivesAgree_peek :
    Stream.kernel.ReadvIsRecvmsg ∧ Stream.kernel.HonoursPeek Stream.queue ∧
    (wsaRecv Stream.kernel Stream.arrived true 3 (some fun _ => ⟨4, 4096⟩) 1 (some 0)
      (some MSG_PEEK)).state.queue = [] ∧
    (wsaRecvFrom Stream.kernel Stream.arrived true 3 (some fun _ => ⟨4, 4096⟩) 1 (some 0)
      (some MSG_PEEK) 0 none).state.queue = [1, 2, 3] ∧
    ¬ ReceivesAgree Stream.kernel Stream.arrived true 3 (fun _ => ⟨4, 4096⟩) 1 (some 0) MSG_PEEK
      none :=
  ⟨Stream.readvIsRecvmsg, Stream.honoursPeek, by decide, by decide,
    not_receivesAgree_of_peek Stream.readvIsRecvmsg Stream.honoursPeek (by decide) (by decide)
      (by decide) (by decide)⟩

/-- Without flags the three ways agree. -/
theorem receivesAgree_noFlags :
    ReceivesAgree Stream.kernel Stream.arrived true 3 (fun _ => ⟨4, 4096⟩) 1 (some 0) 0 none :=
  (receivesAgree_iff Stream.readvIsRecvmsg Stream.arrived true 3 (fun _ => ⟨4, 4096⟩) (by decide)
    (by decide) (some 0) 0 none).mpr
    (.inr (flagsIgnored_zero.mpr (fun _ => rfl)))

/-! ### Sending -/

/-- A request as one that takes a message: `readv` and `writev` of a whole array have no flags. -/
def Request.asMsg : Request → Request
  | .readv s iov iovcnt =>
    if iovcnt = iov.length then .recvmsg s (plainHdr iov) 0 else .readv s iov iovcnt
  | .writev s iov iovcnt =>
    if iovcnt = iov.length then .sendmsg s (plainHdr iov) 0 else .writev s iov iovcnt
  | request => request

/-- What a send call asks of the kernel, and what its caller sees: its result, the last error,
    the byte count and the state of the kernel. -/
structure Sent (σ : Type) where
  requests : List Request
  ret : Int
  lastError : Int
  bytes : Option (BitVec 32)
  state : σ

def Outcome.sent (o : Outcome σ) : Sent σ :=
  ⟨o.requests.map Request.asMsg, o.ret, o.lastError, o.outputs.numberOfBytes, o.state⟩

/-- What a caller sees after an answer to `request`, for the byte count `n` before the call. -/
def Sent.after (n : Option (BitVec 32)) (request : Request) (a : Answer × σ) : Sent σ :=
  if a.1.result < 0 then ⟨[request], SOCKET_ERROR, errnoToWsaError a.1.errno, n, a.2⟩
  else ⟨[request], 0, 0, n.map (fun _ => a.1.bytes), a.2⟩

/-- The three ways to send, with the flags `f`, without a name and control data, ask the same of
    the kernel and show the same.  `g` are the flags in the message. -/
structure SendsAgree (kernel : Kernel σ) (state : σ) (mallocOk : Bool) (s : SOCKET)
    (bufs : Nat → WSABUF) (count : BitVec 32) (n : Option (BitVec 32)) (f g : BitVec 32) :
    Prop where
  send_sendTo :
    (wsaSend kernel state mallocOk s (some bufs) count n f).sent =
      (wsaSendTo kernel state mallocOk s (some bufs) count n f 0 0).sent
  sendTo_sendMsg :
    (wsaSendTo kernel state mallocOk s (some bufs) count n f 0 0).sent =
      (wsaSendMsg kernel state mallocOk s (some (plainMsg bufs count g)) f n).sent

theorem sent_afterCall {before : Outputs} {request : Request} {after : Answer → Outputs}
    (a : Answer × σ)
    (hbytes : (after a.1).numberOfBytes = before.numberOfBytes.map (fun _ => a.1.bytes)) :
    (afterCall before request after a).sent =
      Sent.after before.numberOfBytes request.asMsg a := by
  by_cases hresult : a.1.result < 0
  · simp only [afterCall, Sent.after, if_pos hresult, Outcome.sent, List.map_cons, List.map_nil]
  · simp only [afterCall, Sent.after, if_neg hresult, Outcome.sent, hbytes, List.map_cons,
      List.map_nil]

/-- `WSASend` asks for no flags. -/
theorem sent_wsaSend (hcount : count ≠ 0) (hmax : count.toNat ≤ IOV_MAX) (f : BitVec 32) :
    (wsaSend kernel state true s (some bufs) count n f).sent =
      Sent.after n (.sendmsg s (plainHdr (toIovecs bufs count)) 0)
        (kernel.call state (.writev s (toIovecs bufs count) (toIovecs bufs count).length)) := by
  rw [wsaSend, planBuffers_some hcount, scatterGather_array, toInt_count hmax,
    sent_afterCall _ rfl, Request.asMsg, if_pos rfl]

theorem sent_wsaSendTo (hcount : count ≠ 0) :
    (wsaSendTo kernel state true s (some bufs) count n f 0 0).sent =
      Sent.after n (.sendmsg s (plainHdr (toIovecs bufs count)) f)
        (kernel.call state (.sendmsg s (plainHdr (toIovecs bufs count)) f)) := by
  rw [wsaSendTo, planBuffers_some hcount, scatterGather_array, plainHdr, length_toIovecs]
  exact sent_afterCall _ rfl

theorem sent_wsaSendMsg (hcount : count ≠ 0) :
    (wsaSendMsg kernel state true s (some (plainMsg bufs count g)) f n).sent =
      Sent.after n (.sendmsg s (plainHdr (toIovecs bufs count)) f)
        (kernel.call state (.sendmsg s (plainHdr (toIovecs bufs count)) f)) := by
  rw [wsaSendMsg, planMsg_plain hcount, scatterGather_array]
  exact sent_afterCall _ rfl

/-- `WSASendTo` and `WSASendMsg` do the same. -/
theorem sendTo_eq_sendMsg (hcount : count ≠ 0) (n : Option (BitVec 32)) (f g : BitVec 32) :
    (wsaSendTo kernel state mallocOk s (some bufs) count n f 0 0).sent =
      (wsaSendMsg kernel state mallocOk s (some (plainMsg bufs count g)) f n).sent := by
  cases mallocOk with
  | true => rw [sent_wsaSendTo hcount, sent_wsaSendMsg hcount]
  | false =>
    rw [wsaSendTo, wsaSendMsg, planBuffers_some hcount, planMsg_plain hcount,
      scatterGather_noMemory, scatterGather_noMemory]
    rfl

theorem Sent.after_congr {a b : Answer × σ} (h : Same a b) (request : Request) :
    Sent.after n request a = Sent.after n request b :=
  h.congr (fun errno state => Sent.mk [request] SOCKET_ERROR (errnoToWsaError errno) n state)
    (fun bytes state => Sent.mk [request] 0 0 (n.map (fun _ => bytes)) state)

@[simp] theorem Sent.requests_after (n : Option (BitVec 32)) (request : Request)
    (a : Answer × σ) : (Sent.after n request a).requests = [request] := by
  unfold Sent.after
  split <;> rfl

/-- With memory for the array, `WSASend` and `WSASendTo` do the same exactly without flags. -/
theorem send_eq_sendTo_iff (hwritev : kernel.WritevIsSendmsg) (hcount : count ≠ 0)
    (hmax : count.toNat ≤ IOV_MAX) :
    (wsaSend kernel state true s (some bufs) count n f).sent =
        (wsaSendTo kernel state true s (some bufs) count n f 0 0).sent ↔ f = 0 := by
  have hlen : (toIovecs bufs count).length ≤ IOV_MAX := by rwa [length_toIovecs]
  rw [sent_wsaSend hcount hmax, sent_wsaSendTo hcount,
    Sent.after_congr (hwritev state s _ hlen)]
  constructor
  · intro h
    have hrequests := congrArg Sent.requests h
    rw [Sent.requests_after, Sent.requests_after] at hrequests
    injection hrequests with hrequest
    injection hrequest with _ _ hf
    exact hf.symm
  · rintro rfl
    rfl

/-- **The ways to send**, of any buffers, with any flags: they agree exactly if there is no memory
    for the array, or there are no flags. -/
theorem sendsAgree_iff (hwritev : kernel.WritevIsSendmsg) (state : σ) (mallocOk : Bool)
    (s : SOCKET) (bufs : Nat → WSABUF) (hcount : count ≠ 0) (hmax : count.toNat ≤ IOV_MAX)
    (n : Option (BitVec 32)) (f g : BitVec 32) :
    SendsAgree kernel state mallocOk s bufs count n f g ↔ mallocOk = false ∨ f = 0 := by
  cases mallocOk with
  | true =>
    rw [← send_eq_sendTo_iff hwritev hcount hmax]
    exact ⟨fun h => .inr h.send_sendTo, fun h =>
      ⟨h.resolve_left (by decide), sendTo_eq_sendMsg hcount n f g⟩⟩
  | false =>
    refine iff_of_true ⟨?_, sendTo_eq_sendMsg hcount n f g⟩ (.inl rfl)
    rw [wsaSend, wsaSendTo, planBuffers_some hcount, planBuffers_some hcount,
      scatterGather_noMemory, scatterGather_noMemory]

/-- A stream of a process with the byte 7 in its memory. -/
def Stream.ready : Stream := ⟨[], [], [], fun _ => 7⟩

/-- A byte that is sent out of band with `WSASend` is not urgent. -/
theorem not_sendsAgree_oob :
    Stream.kernel.WritevIsSendmsg ∧
    (wsaSend Stream.kernel Stream.ready true 3 (some fun _ => ⟨1, 4096⟩) 1 (some 0)
      MSG_OOB).state.urgent = [] ∧
    (wsaSendTo Stream.kernel Stream.ready true 3 (some fun _ => ⟨1, 4096⟩) 1 (some 0)
      MSG_OOB 0 0).state.urgent = [7] ∧
    ¬ SendsAgree Stream.kernel Stream.ready true 3 (fun _ => ⟨1, 4096⟩) 1 (some 0) MSG_OOB 0 :=
  ⟨Stream.writevIsSendmsg, by decide, by decide, fun h =>
    absurd ((send_eq_sendTo_iff Stream.writevIsSendmsg (by decide) (by decide)).mp h.send_sendTo)
      (by decide)⟩

/-- Without flags the three ways agree, also if there are flags in the message. -/
theorem sendsAgree_noFlags :
    SendsAgree Stream.kernel Stream.ready true 3 (fun _ => ⟨1, 4096⟩) 1 (some 0) 0 MSG_OOB :=
  (sendsAgree_iff Stream.writevIsSendmsg Stream.ready true 3 (fun _ => ⟨1, 4096⟩) (by decide)
    (by decide) (some 0) 0 MSG_OOB).mpr (.inr rfl)

end LinuxWinsock.Msg
