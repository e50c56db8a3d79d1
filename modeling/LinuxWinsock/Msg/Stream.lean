import LinuxWinsock.Lib.Memory
import LinuxWinsock.Msg.Message

namespace LinuxWinsock.Msg

/-!
# Reading and writing with and without a message

* `Kernel.ReadvIsRecvmsg`, `Kernel.WritevIsSendmsg`, `Kernel.HonoursPeek` — what is promised of
  the kernel's calls;
* `Stream.kernel` — the calls on a connected stream, which keep these promises.
-/

/-! ### What the kernel promises -/

def IOV_MAX : Nat := 1024

/-- A header with buffers only. -/
def plainHdr (iov : List Iovec) : Msghdr := ⟨0, 0, some iov, iov.length, 0, 0⟩

/-- Two calls return the same, and leave the same behind. -/
structure Same {σ : Type} (a b : Answer × σ) : Prop where
  result : a.1.result = b.1.result
  errno : a.1.result < 0 → a.1.errno = b.1.errno
  state : a.2 = b.2

/-- `readv` is `recvmsg` without flags. -/
def Kernel.ReadvIsRecvmsg {σ : Type} (kernel : Kernel σ) : Prop :=
  ∀ state s iov, iov.length ≤ IOV_MAX →
    Same (kernel.call state (.readv s iov iov.length))
      (kernel.call state (.recvmsg s (plainHdr iov) 0))

/-- `writev` is `sendmsg` without flags. -/
def Kernel.WritevIsSendmsg {σ : Type} (kernel : Kernel σ) : Prop :=
  ∀ state s iov, iov.length ≤ IOV_MAX →
    Same (kernel.call state (.writev s iov iov.length))
      (kernel.call state (.sendmsg s (plainHdr iov) 0))

def MSG_OOB : BitVec 32 := 1
def MSG_PEEK : BitVec 32 := 2

/-- A peek leaves the queue as it is, and a call without flags that receives data does not. -/
structure Kernel.HonoursPeek {σ : Type} (kernel : Kernel σ) (queue : σ → List Byte) : Prop where
  kept : ∀ state s hdr f, f &&& MSG_PEEK ≠ 0 →
    queue (kernel.call state (.recvmsg s hdr f)).2 = queue state
  taken : ∀ state s hdr, 0 < (kernel.call state (.recvmsg s hdr 0)).1.result →
    queue (kernel.call state (.recvmsg s hdr 0)).2 ≠ queue state

/-! ### A stream -/

/-- A connected stream: what has arrived, what was sent, and the memory of the process. -/
structure Stream where
  queue : List Byte
  sent : List Byte
  urgent : List Byte
  memory : BitVec 64 → Byte

/-- The bytes put into the buffers, one buffer after the other. -/
def scatter (memory : BitVec 64 → Byte) : List Iovec → List Byte → BitVec 64 → Byte
  | [], _ => memory
  | v :: iov, bs =>
    scatter (fun i => ((bs.take v.iov_len.toNat)[(i - v.iov_base).toNat]?).getD (memory i)) iov
      (bs.drop v.iov_len.toNat)

/-- The bytes of the buffers, one buffer after the other. -/
def gather (memory : BitVec 64 → Byte) (iov : List Iovec) : List Byte :=
  iov.flatMap (fun v => (List.range v.iov_len.toNat).map (fun i => memory (v.iov_base + i)))

namespace Stream

/-- A call that receives does not wait for data, and a peek leaves it in the queue. -/
def recv (c : Stream) (iov : List Iovec) (flags : BitVec 32) : Answer × Stream :=
  let bs := c.queue.take (iov.map (fun v => v.iov_len.toNat)).sum
  if c.queue = [] then (⟨-1, EWOULDBLOCK, 0, 0, 0⟩, c)
  else
    (⟨bs.length, 0, 0, 0, 0⟩,
      { c with
        queue := if flags &&& MSG_PEEK = 0 then c.queue.drop bs.length else c.queue
        memory := scatter c.memory iov bs })

/-- The last byte that is sent out of band is urgent. -/
def send (c : Stream) (iov : List Iovec) (flags : BitVec 32) : Answer × Stream :=
  let bs := gather c.memory iov
  (⟨bs.length, 0, 0, 0, 0⟩,
    if flags &&& MSG_OOB = 0 then { c with sent := c.sent ++ bs }
    else { c with sent := c.sent ++ bs.dropLast, urgent := c.urgent ++ bs.getLast?.toList })

/-- The kernel of the stream. -/
def kernel : Kernel Stream where
  call c
    | .readv _ iov _ => c.recv iov 0
    | .recvmsg _ hdr flags => c.recv (hdr.msg_iov.getD []) flags
    | .writev _ iov _ => c.send iov 0
    | .sendmsg _ hdr flags => c.send (hdr.msg_iov.getD []) flags

theorem readvIsRecvmsg : kernel.ReadvIsRecvmsg := fun _ _ _ _ => ⟨rfl, fun _ => rfl, rfl⟩

theorem writevIsSendmsg : kernel.WritevIsSendmsg := fun _ _ _ _ => ⟨rfl, fun _ => rfl, rfl⟩

/-- A call without flags that receives bytes makes the queue shorter. -/
theorem queue_recv_lt {c : Stream} {iov : List Iovec} (h : 0 < (c.recv iov 0).1.result) :
    (c.recv iov 0).2.queue.length < c.queue.length := by
  by_cases hempty : c.queue = []
  · simp [recv, hempty] at h
  · have hflags : (0 : BitVec 32) &&& MSG_PEEK = 0 := by decide
    simp only [recv, if_neg hempty, if_pos hflags, List.length_drop, List.length_take] at h ⊢
    omega

theorem honoursPeek : kernel.HonoursPeek Stream.queue where
  kept c _ hdr f hpeek := by
    show (c.recv (hdr.msg_iov.getD []) f).2.queue = c.queue
    simp only [recv, if_neg hpeek]
    split <;> rfl
  taken c _ hdr hpos hqueue := by
    have hlt := queue_recv_lt hpos
    exact absurd (congrArg List.length hqueue) hlt.ne

end Stream

end LinuxWinsock.Msg
