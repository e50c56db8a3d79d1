import LinuxWinsock.Errno
import LinuxWinsock.Lib.Layout
import Mathlib.Logic.Function.Basic

namespace LinuxWinsock.Ext

open Memory Layout

/-!
# `WSAIoctl`

The control codes of `WSAIoctl` in `wsa_extended.c`: four that go to the kernel with one of the two
buffers, and the request for an extension function.  The buffers are blocks of memory, pointed to
at their start; they may be one and the same.

* `honoured_request_iff`, `honoured_extension_iff` — the two kinds of codes;
* `honoured_iff` — for which calls the buffers, the lengths and the number of bytes returned are what
  they are documented to be.
-/

/-! ### Control codes -/

def FIONREAD : BitVec 32 := 0x541B
def FIONBIO : BitVec 32 := 0x5421
def FIOASYNC : BitVec 32 := 0x5452
def SIOCATMARK : BitVec 32 := 0x8905
def IOC_INOUT : BitVec 32 := 0xC0000000
def IOC_WS2 : BitVec 32 := 0x08000000
def SIO_GET_EXTENSION_FUNCTION_POINTER : BitVec 32 := IOC_INOUT ||| IOC_WS2 ||| 6

/-- The codes that are passed to the kernel. -/
def requests : List (BitVec 32) := [FIONREAD, FIONBIO, FIOASYNC, SIOCATMARK]

/-- The codes to which the kernel answers with an `int`; for the others it reads one. -/
def queries : List (BitVec 32) := [FIONREAD, SIOCATMARK]

/-- The members of a `GUID`. -/
inductive GuidMember where
  | data1
  | data2
  | data3
  | data4
  deriving DecidableEq

theorem four_bytes_pos : 0 < 4 := by decide

/-- `struct _GUID` -/
def guid : List (Member GuidMember) :=
  [⟨.data1, 4, 4, four_bytes_pos⟩, ⟨.data2, 2, 2, Nat.two_pos⟩, ⟨.data3, 2, 2, Nat.two_pos⟩,
    ⟨.data4, 8, 1, Nat.zero_lt_one⟩]

theorem sizeof_guid : sizeof guid = 16 := by decide

/-! ### The call -/

/-- The arguments, as far as they are looked at: the blocks that the two buffers are, their lengths,
    and the number at `lpcbBytesReturned`. -/
structure IoctlArgs where
  dwIoControlCode : BitVec 32
  lpvInBuffer : Option Nat
  cbInBuffer : BitVec 32
  lpvOutBuffer : Option Nat
  cbOutBuffer : BitVec 32
  lpcbBytesReturned : Option (BitVec 32)

/-- `lpvInBuffer != NULL ? lpvInBuffer : lpvOutBuffer` -/
def IoctlArgs.argp (a : IoctlArgs) : Option Nat := a.lpvInBuffer.or a.lpvOutBuffer

/-- What `WSAIoctl` leaves behind: its result, the last error, the blocks of memory, the number at
    `lpcbBytesReturned`, and how many bytes were written to the buffers. -/
structure Ioctl where
  ret : Int
  lastError : Int
  mem : Nat → Memory
  bytesReturned : Option (BitVec 32)
  written : Nat

/-- `ioctl`, which fails with an error number or gives the bytes that the kernel stores at `argp`.
    `answer` is what it says to the request; without an address it is `EFAULT`. -/
def ioctl (answer : Except Int (BitVec 32)) (request : BitVec 32) (argp : Option Nat) :
    Except Int (Nat × List Byte) :=
  match answer, argp with
  | .error err, _ => .error err
  | .ok _, none => .error EFAULT
  | .ok v, some p => .ok (p, if request ∈ queries then bytes32 v else [])

/-- `s` goes to the kernel only, and `lpOverlapped` and `lpCompletionRoutine` are not used. -/
def wsaIoctl (answer : Except Int (BitVec 32)) (a : IoctlArgs) (mem : Nat → Memory) : Ioctl :=
  if a.dwIoControlCode ∈ requests then
    match ioctl answer a.dwIoControlCode a.argp with
    | .error err => ⟨SOCKET_ERROR, errnoToWsaError err, mem, a.lpcbBytesReturned, 0⟩
    | .ok (p, bytes) =>
      -- the number is `sizeof(unsigned long)`, whatever was stored
      ⟨0, 0, Function.update mem p ((mem p).storeBytes 0 bytes),
        a.lpcbBytesReturned.map (fun _ => 8), bytes.length⟩
  else if a.dwIoControlCode = SIO_GET_EXTENSION_FUNCTION_POINTER then
    if a.lpvInBuffer = none ∨ a.cbInBuffer.toNat < sizeof guid then
      ⟨SOCKET_ERROR, WSAEFAULT, mem, a.lpcbBytesReturned, 0⟩
    else if a.lpvOutBuffer = none ∨ a.cbOutBuffer.toNat < 8 then
      ⟨SOCKET_ERROR, WSAEFAULT, mem, a.lpcbBytesReturned, 0⟩
    else
      -- `sizeof(void*)` is returned by a call that fails
      ⟨SOCKET_ERROR, WSAEOPNOTSUPP, mem, a.lpcbBytesReturned.map (fun _ => 8), 0⟩
  else ⟨SOCKET_ERROR, WSAEINVAL, mem, a.lpcbBytesReturned, 0⟩

/-! ### What is documented -/

/-- The answer to a query is in the out buffer and nowhere else, within its length, and the number
    of its bytes is returned. -/
structure QueryAnswered (a : IoctlArgs) (mem : Nat → Memory) (v : BitVec 32) (o : Ioctl) : Prop where
  out : ∃ p, a.lpvOutBuffer = some p ∧ (o.mem p).load32 0 = v
  unchanged : ∀ p, a.lpvInBuffer = some p → o.mem p = mem p
  fits : o.written ≤ a.cbOutBuffer.toNat
  returned : ∀ n, o.bytesReturned = some n → n.toNat = o.written

/-- The call has changed neither buffer, nor the number of bytes returned. -/
structure Untouched (a : IoctlArgs) (mem : Nat → Memory) (o : Ioctl) : Prop where
  buffers : ∀ p, a.lpvInBuffer = some p ∨ a.lpvOutBuffer = some p → o.mem p = mem p
  returned : o.bytesReturned = a.lpcbBytesReturned

/-- A query that returns 0 is answered, and a call that fails changes nothing. -/
structure Honoured (answer : Except Int (BitVec 32)) (a : IoctlArgs) (mem : Nat → Memory) :
    Prop where
  query : a.dwIoControlCode ∈ queries → (wsaIoctl answer a mem).ret = 0 →
    ∃ v, answer = .ok v ∧ QueryAnswered a mem v (wsaIoctl answer a mem)
  failed : (wsaIoctl answer a mem).ret = SOCKET_ERROR → Untouched a mem (wsaIoctl answer a mem)

/-- The answer `v` is all that a query writes: no number is asked for, the out buffer is there and
    has room for an `int`, and an in buffer, which gets the answer in its place, makes no
    difference. -/
structure RoomForAnswer (a : IoctlArgs) (mem : Nat → Memory) (v : BitVec 32) : Prop where
  uncounted : a.lpcbBytesReturned = none
  room : 4 ≤ a.cbOutBuffer.toNat
  out : ∃ p, a.lpvOutBuffer = some p ∧
    ∀ q, a.lpvInBuffer = some q → (mem q).load32 0 = v ∧ (mem p).load32 0 = v

variable {answer : Except Int (BitVec 32)} {a : IoctlArgs} {mem : Nat → Memory} {p : Nat}
  {v : BitVec 32}

/-! ### The codes one by one -/

theorem untouched_self {ret lastError : Int} {written : Nat} :
    Untouched a mem ⟨ret, lastError, mem, a.lpcbBytesReturned, written⟩ :=
  ⟨fun _ _ => rfl, rfl⟩

/-- The call for a code of the kernel. -/
theorem wsaIoctl_request (h : a.dwIoControlCode ∈ requests) (answer : Except Int (BitVec 32))
    (mem : Nat → Memory) :
    wsaIoctl answer a mem =
      match ioctl answer a.dwIoControlCode a.argp with
      | .error err => ⟨SOCKET_ERROR, errnoToWsaError err, mem, a.lpcbBytesReturned, 0⟩
      | .ok (p, bytes) => ⟨0, 0, Function.update mem p ((mem p).storeBytes 0 bytes),
          a.lpcbBytesReturned.map (fun _ => 8), bytes.length⟩ := if_pos h

theorem mem_requests_of_mem_queries {code : BitVec 32} (h : code ∈ queries) : code ∈ requests := by
  rcases List.mem_pair.mp h with rfl | rfl
  · exact List.mem_cons_self
  · decide

/-- A query that the kernel answers. -/
theorem wsaIoctl_query (hcode : a.dwIoControlCode ∈ queries) (hargp : a.argp = some p) :
    wsaIoctl (.ok v) a mem = ⟨0, 0, Function.update mem p ((mem p).store32 0 v),
      a.lpcbBytesReturned.map (fun _ => 8), 4⟩ := by
  rw [wsaIoctl_request (mem_requests_of_mem_queries hcode), hargp, ioctl, if_pos hcode]
  rfl

/-- **The answer to a query** is where it is documented to be exactly if there is room for it, and for
    nothing else. -/
theorem queryAnswered_iff (hargp : a.argp = some p) :
    QueryAnswered a mem v ⟨0, 0, Function.update mem p ((mem p).store32 0 v),
      a.lpcbBytesReturned.map (fun _ => 8), 4⟩ ↔ RoomForAnswer a mem v := by
  have hreturned : (∀ n, a.lpcbBytesReturned.map (fun _ => (8 : BitVec 32)) = some n →
      n.toNat = 4) ↔ a.lpcbBytesReturned = none := by
    cases a.lpcbBytesReturned with
    | none => simp
    | some n => simp
  -- the answer is read back at its address, and leaves the block alone if it was there
  have hself : Function.update mem p ((mem p).store32 0 v) p = (mem p).store32 0 v :=
    Function.update_self p _ mem
  have hsame : Function.update mem p ((mem p).store32 0 v) p = mem p ↔ (mem p).load32 0 = v := by
    rw [hself, store32_eq_self_iff]
  cases hin : a.lpvInBuffer with
  | none =>
    have hout : a.lpvOutBuffer = some p := by rwa [IoctlArgs.argp, hin, Option.none_or] at hargp
    constructor
    · intro h
      exact ⟨hreturned.mp h.returned, h.fits, p, hout, fun q hq => absurd (hin.symm.trans hq) nofun⟩
    · intro h
      refine ⟨⟨p, hout, ?_⟩, fun q hq => absurd (hin.symm.trans hq) nofun, h.room,
        hreturned.mpr h.uncounted⟩
      show (Function.update mem p ((mem p).store32 0 v) p).load32 0 = v
      rw [hself, load32_store32]
  | some i =>
    obtain rfl : i = p := by
      rw [IoctlArgs.argp, hin, Option.some_or] at hargp
      exact Option.some.inj hargp
    constructor
    · intro h
      have hi := hsame.mp (h.unchanged i hin)
      obtain ⟨q, hq, hload⟩ := h.out
      refine ⟨hreturned.mp h.returned, h.fits, q, hq, fun j hj => ?_⟩
      obtain rfl : i = j := Option.some.inj (hin.symm.trans hj)
      refine ⟨hi, ?_⟩
      have hupdate : Function.update mem i ((mem i).store32 0 v) = mem := by
        rw [store32_eq_self_iff.mpr hi, Function.update_eq_self]
      rwa [hupdate] at hload
    · intro h
      obtain ⟨q, hq, hloads⟩ := h.out
      obtain ⟨hi, hload⟩ := hloads i hin
      have hupdate : Function.update mem i ((mem i).store32 0 v) = mem := by
        rw [store32_eq_self_iff.mpr hi, Function.update_eq_self]
      rw [hupdate]
      exact ⟨⟨q, hq, hload⟩, fun _ _ => rfl, h.room, hreturned.mpr h.uncounted⟩

/-- The codes of the kernel: a call that fails changes nothing, and a query is answered exactly if
    there is room. -/
theorem honoured_request_iff (hcode : a.dwIoControlCode ∈ requests) :
    Honoured answer a mem ↔ ∀ v p, answer = .ok v → a.argp = some p →
      a.dwIoControlCode ∈ queries → RoomForAnswer a mem v := by
  have herror : ∀ err, ioctl answer a.dwIoControlCode a.argp = .error err →
      Honoured answer a mem := by
    intro err herr
    have hcall := wsaIoctl_request hcode answer mem
    rw [herr] at hcall
    constructor
    · intro _ hret
      rw [hcall] at hret
      have hne : SOCKET_ERROR = 0 := hret
      exact absurd hne (by decide)
    · intro _
      rw [hcall]
      exact untouched_self
  cases answer with
  | error err =>
    refine iff_of_true (herror err rfl) (fun v p h => ?_)
    cases h
  | ok v =>
    cases hargp : a.argp with
    | none =>
      refine iff_of_true (herror EFAULT ?_) (fun v p _ hp => ?_)
      · rw [hargp, ioctl]
      · cases hp
    | some p =>
      have hcall := wsaIoctl_request hcode (.ok v) mem
      rw [hargp, ioctl] at hcall
      have hret : (wsaIoctl (.ok v) a mem).ret ≠ SOCKET_ERROR := by
        rw [hcall]
        exact (by decide : (0 : Int) ≠ SOCKET_ERROR)
      constructor
      · intro h v' p' hv _ hquery
        obtain rfl := Except.ok.inj hv
        have hanswer : wsaIoctl (.ok v) a mem = _ := wsaIoctl_query hquery hargp
        obtain ⟨v', hv', hanswered⟩ := h.query hquery (by rw [hanswer])
        obtain rfl := Except.ok.inj hv'
        rw [hanswer] at hanswered
        exact (queryAnswered_iff hargp).mp hanswered
      · intro h
        refine ⟨fun hquery _ => ⟨v, rfl, ?_⟩, fun hfail => absurd hfail hret⟩
        rw [wsaIoctl_query hquery hargp]
        exact (queryAnswered_iff hargp).mpr (h v p rfl rfl hquery)

/-- The request for an extension function: the call fails, and has changed nothing unless it has
    stored the size of a pointer. -/
theorem honoured_extension_iff (hcode : a.dwIoControlCode = SIO_GET_EXTENSION_FUNCTION_POINTER) :
    Honoured answer a mem ↔
      (a.lpvInBuffer ≠ none → 16 ≤ a.cbInBuffer.toNat → a.lpvOutBuffer ≠ none →
        8 ≤ a.cbOutBuffer.toNat → ∀ n, a.lpcbBytesReturned = some n → n = 8) := by
  have hquery : a.dwIoControlCode ∉ queries := by
    rw [hcode]
    decide
  have hrequest : a.dwIoControlCode ∉ requests := by
    rw [hcode]
    decide
  have hcall : wsaIoctl answer a mem = _ := if_neg hrequest
  rw [if_pos hcode, sizeof_guid] at hcall
  by_cases hin : a.lpvInBuffer = none ∨ a.cbInBuffer.toNat < 16
  · rw [if_pos hin] at hcall
    refine iff_of_true ⟨fun h => absurd h hquery, fun _ => ?_⟩ (fun hp hn => ?_)
    · rw [hcall]
      exact untouched_self
    · rcases hin with hnull | hshort
      · exact absurd hnull hp
      · omega
  · rw [if_neg hin] at hcall
    by_cases hout : a.lpvOutBuffer = none ∨ a.cbOutBuffer.toNat < 8
    · rw [if_pos hout] at hcall
      refine iff_of_true ⟨fun h => absurd h hquery, fun _ => ?_⟩ (fun _ _ hp hn => ?_)
      · rw [hcall]
        exact untouched_self
      · rcases hout with hnull | hshort
        · exact absurd hnull hp
        · omega
    · rw [if_neg hout] at hcall
      rw [not_or, not_lt] at hin hout
      have hsame : a.lpcbBytesReturned.map (fun _ => 8) = a.lpcbBytesReturned ↔
          ∀ n, a.lpcbBytesReturned = some n → n = 8 := by
        cases a.lpcbBytesReturned with
        | none => simp
        | some n => simp [eq_comm]
      constructor
      · intro h _ _ _ _
        have hreturned := (h.failed (by rw [hcall])).returned
        rw [hcall] at hreturned
        exact hsame.mp hreturned
      · intro h
        refine ⟨fun h => absurd h hquery, fun _ => ?_⟩
        rw [hcall]
        exact ⟨fun _ _ => rfl, hsame.mpr (h hin.1 hin.2 hout.1 hout.2)⟩

/-- **Buffers.**  The call honours them exactly if a query that the kernel answers has room for its
    answer only, and a request for an extension function that is long enough finds the size of a
    pointer in the place of the one it stores. -/
theorem honoured_iff (answer : Except Int (BitVec 32)) (a : IoctlArgs) (mem : Nat → Memory) :
    Honoured answer a mem ↔
      (∀ v p, answer = .ok v → a.argp = some p → a.dwIoControlCode ∈ queries →
        RoomForAnswer a mem v) ∧
      (a.dwIoControlCode = SIO_GET_EXTENSION_FUNCTION_POINTER → a.lpvInBuffer ≠ none →
        16 ≤ a.cbInBuffer.toNat → a.lpvOutBuffer ≠ none → 8 ≤ a.cbOutBuffer.toNat →
        ∀ n, a.lpcbBytesReturned = some n → n = 8) := by
  have hdisjoint : SIO_GET_EXTENSION_FUNCTION_POINTER ∉ requests := by decide
  by_cases hrequest : a.dwIoControlCode ∈ requests
  · have hext : a.dwIoControlCode ≠ SIO_GET_EXTENSION_FUNCTION_POINTER := by
      intro heq
      exact hdisjoint (heq ▸ hrequest)
    rw [honoured_request_iff hrequest]
    exact (and_iff_left (fun heq => absurd heq hext)).symm
  · have hquery : a.dwIoControlCode ∉ queries := fun h => hrequest (mem_requests_of_mem_queries h)
    rw [and_iff_right (fun _ _ _ _ h => absurd h hquery)]
    by_cases hext : a.dwIoControlCode = SIO_GET_EXTENSION_FUNCTION_POINTER
    · rw [honoured_extension_iff hext, imp_iff_right hext]
    · refine iff_of_true ⟨fun h => absurd h hquery, fun _ => ?_⟩ (fun heq => absurd heq hext)
      have hcall : wsaIoctl answer a mem =
          ⟨SOCKET_ERROR, WSAEINVAL, mem, a.lpcbBytesReturned, 0⟩ := by
        rw [wsaIoctl, if_neg hrequest, if_neg hext]
      rw [hcall]
      exact untouched_self

/-- A query with an out buffer of four bytes and a place for their number. -/
def countedQuery : IoctlArgs := ⟨FIONREAD, none, 0, some 0, 4, some 0⟩

/-- Four bytes are written, and eight are returned. -/
theorem not_honoured_query :
    ¬ ∀ (answer : Except Int (BitVec 32)) (a : IoctlArgs) (mem : Nat → Memory),
      Honoured answer a mem := by
  intro h
  obtain ⟨v, -, hanswered⟩ := (h (.ok 5) countedQuery (fun _ _ => 0)).query (by decide) rfl
  exact absurd (hanswered.returned 8 rfl) (by decide)

end LinuxWinsock.Ext
