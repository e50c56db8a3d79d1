import LinuxWinsock.Errno.Confused
import LinuxWinsock.Events.EventSelect
import LinuxWinsock.Ext.Descriptors
import LinuxWinsock.Ext.FileOffset
import LinuxWinsock.Ext.TransmitFile

namespace LinuxWinsock.Ext

open Memory

/-!
# The errors of the extension functions

The five functions of `ms_extensions.c` that make system calls, with the error number of the call
that has failed.  Each reports a code of its own for it.

* `settled` — a function returns FALSE exactly if a system call fails, and then reports the code for
  that call, or if its arguments are refused;
* `reportsErrno_iff` — for which error numbers this is the code that the rest of the library
  gives.
-/

/-! ### `ConnectEx` -/

/-- What the kernel answers: whether `connect` succeeds, and the number of bytes that `send`
    accepts, or a failure. -/
structure ConnectAnswers where
  connect : Bool
  send : Option Nat

/-- What `ConnectEx` leaves behind: its result, the last error, `*lpdwBytesSent`, and the bytes
    that the socket has received. -/
structure Connected where
  ret : Bool
  lastError : Int
  bytesSent : Option (BitVec 32)
  wire : List Byte

/-- `s`, `name` and `namelen` go to the kernel only, and `lpOverlapped` is not used. -/
def connectEx (sources : Sources) (k : ConnectAnswers) (errno : Int) (lpSendBuffer : Option Nat)
    (dwSendDataLength : BitVec 32) (lpdwBytesSent : Option (BitVec 32)) : Connected :=
  if !k.connect then
    if errno = EINPROGRESS then ⟨false, WSA_IO_PENDING, lpdwBytesSent, []⟩
    else ⟨false, WSAECONNREFUSED, lpdwBytesSent, []⟩
  else
    match lpSendBuffer with
    | some p =>
      if 0 < dwSendDataLength then
        match k.send with
        | none => ⟨false, WSAECONNRESET, lpdwBytesSent, []⟩
        | some n =>
          ⟨true, 0, lpdwBytesSent.map (fun _ => BitVec.ofNat 32 n),
            (sources.mem.loadBytes p dwSendDataLength.toNat).take n⟩
      else ⟨true, 0, lpdwBytesSent.map (fun _ => 0), []⟩
    | none => ⟨true, 0, lpdwBytesSent.map (fun _ => 0), []⟩

/-! ### Calls that fail -/

/-- The system calls whose failure makes an extension function return FALSE. -/
inductive SystemCall where
  | accept
  | dup2
  | recv
  | connect
  | send
  | sendfile
  | shutdown
  deriving DecidableEq

/-- `f`, if it is made and fails. -/
def SystemCall.failsIf (f : SystemCall) (made failed : Bool) : Option SystemCall :=
  if made && failed then some f else none

/-- Data is asked for, and there is room for it. -/
def asked (buffer : Option Nat) (length : BitVec 32) : Bool :=
  buffer.isSome && decide (0 < length)

/-- The call for an element. -/
def Transmission.systemCall : Transmission → SystemCall
  | .send _ _ => .send
  | .sendfile _ _ _ => .sendfile

/-- The first call that fails, from the `i`-th element on. -/
def elementFailing (sent : Sent) : List TransmitPacketsElement → Nat → Option SystemCall
  | [], _ => none
  | e :: es, i =>
    (e.transmission.bind (fun t => t.systemCall.failsIf true (sent i).isNone)).or
      (elementFailing sent es (i + 1))

/-- A call of an extension function, with its arguments and what the kernel answers. -/
inductive ExtCall where
  | acceptEx (k : Answers) (sListenSocket sAcceptSocket : SOCKET) (lpOutputBuffer : Option Nat)
      (dwReceiveDataLength dwLocalAddressLength dwRemoteAddressLength : BitVec 32)
      (lpdwBytesReceived : Option (BitVec 32)) (mem : Memory)
  | transmitFile (sources : Sources) (k : FileAnswers) (hFile : BitVec 64)
      (nNumberOfBytesToWrite : BitVec 32) (lpTransmitBuffers : Option TransmitFileBuffers)
  | connectEx (sources : Sources) (k : ConnectAnswers) (lpSendBuffer : Option Nat)
      (dwSendDataLength : BitVec 32) (lpdwBytesSent : Option (BitVec 32))
  | disconnectEx (shutdownOk : Bool) (w : World) (s : SOCKET) (dwFlags : BitVec 32)
  | transmitPackets (sources : Sources) (sent : Sent)
      (lpPacketArray : Option (List TransmitPacketsElement)) (nElementCount : BitVec 32)

namespace ExtCall

/-- The result and the last error, where `errno` is what the failed system call leaves; `none` where
    the behaviour is undefined. -/
def outcome (errno : Int) : ExtCall → Option (Bool × Int)
  | acceptEx k sListenSocket sAcceptSocket lpOutputBuffer D L R lpdwBytesReceived mem =>
    (Ext.acceptEx k sListenSocket sAcceptSocket lpOutputBuffer D L R lpdwBytesReceived mem).map
      (fun o => (o.ret, o.lastError))
  | transmitFile sources k hFile nNumberOfBytesToWrite lpTransmitBuffers =>
    let o := Ext.transmitFile sources k hFile nNumberOfBytesToWrite lpTransmitBuffers
    some (o.ret, o.lastError)
  | connectEx sources k lpSendBuffer dwSendDataLength lpdwBytesSent =>
    let o := Ext.connectEx sources k errno lpSendBuffer dwSendDataLength lpdwBytesSent
    some (o.ret, o.lastError)
  | disconnectEx shutdownOk w s dwFlags =>
    let o := LinuxWinsock.disconnectEx shutdownOk w s dwFlags
    some (o.ret, o.lastError)
  | transmitPackets sources sent lpPacketArray nElementCount =>
    (Ext.transmitPackets sources sent lpPacketArray nElementCount).map
      (fun o => (o.ret, o.lastError))

/-- The first system call that fails, if one does. -/
def failing : ExtCall → Option SystemCall
  | acceptEx k _ _ lpOutputBuffer D _ _ _ _ =>
    (SystemCall.accept.failsIf true k.accept.isNone).or
      ((SystemCall.dup2.failsIf true !k.dup2).or
        (SystemCall.recv.failsIf (asked lpOutputBuffer D) k.recv.isNone))
  | transmitFile _ k _ nNumberOfBytesToWrite lpTransmitBuffers =>
    let buffers := buffersOf lpTransmitBuffers
    (SystemCall.send.failsIf (asked buffers.head buffers.headLength) k.head.isNone).or
      ((SystemCall.sendfile.failsIf (decide (0 < nNumberOfBytesToWrite)) k.file.isNone).or
        (SystemCall.send.failsIf (asked buffers.tail buffers.tailLength) k.tail.isNone))
  | connectEx _ k lpSendBuffer dwSendDataLength _ =>
    (SystemCall.connect.failsIf true !k.connect).or
      (SystemCall.send.failsIf (asked lpSendBuffer dwSendDataLength) k.send.isNone)
  | disconnectEx shutdownOk _ _ _ => SystemCall.shutdown.failsIf true !shutdownOk
  | transmitPackets _ sent lpPacketArray nElementCount =>
    -- behind the end of the array the behaviour is undefined
    lpPacketArray.bind (fun es => if es.length < nElementCount.toNat then none
      else elementFailing sent (es.take nElementCount.toNat) 0)

/-- The arguments are refused before any system call is made. -/
def Refused : ExtCall → Prop
  | transmitPackets _ _ lpPacketArray nElementCount =>
    lpPacketArray = none ∨ nElementCount = 0
  | _ => False

end ExtCall

/-! ### What is reported -/

namespace SystemCall

/-- The code that is reported for a failure. -/
def reported (errno : Int) : SystemCall → Int
  | accept => WSAECONNREFUSED
  | dup2 => WSAEINVAL
  | recv => WSAECONNRESET
  | connect => if errno = EINPROGRESS then WSA_IO_PENDING else WSAECONNREFUSED
  | send => WSAECONNRESET
  | sendfile => WSAECONNRESET
  | shutdown => WSAENOTCONN

/-- The code that the rest of the library gives, and `WSA_IO_PENDING` for a connection that is under
    way. -/
def expected (errno : Int) (f : SystemCall) : Int :=
  if f = connect ∧ errno = EINPROGRESS then WSA_IO_PENDING else errnoToWsaError errno

/-- The error numbers for which the two are the same: that of the code itself, and the one without a
    case that comes out as the code. -/
def agreeing : SystemCall → List Int
  | accept => [ECONNREFUSED, 61]
  | dup2 => [EINVAL]
  | recv => [ECONNRESET, 54]
  | connect => [EINPROGRESS, ECONNREFUSED, 61]
  | send => [ECONNRESET, 54]
  | sendfile => [ECONNRESET, 54]
  | shutdown => [ENOTCONN, 57]

end SystemCall

section Codes

variable {err e u errno : Int} {f : SystemCall}

/-- The code of a case that is also the default of `u`. -/
theorem errnoToWsaError_eq_of_not_listed (hcase : (e, WSABASEERR + u) ∈ errnoCases)
    (hu : ¬ Switch.Listed errnoCases u) :
    errnoToWsaError err = WSABASEERR + u ↔ err = e ∨ err = u := by
  rw [errnoToWsaError_eq_iff]
  constructor
  · rintro (hmem | ⟨-, hsum⟩)
    · exact .inl (Switch.eq_of_mem_of_mem errnoCases_values hmem hcase)
    · exact .inr (by omega)
  · rintro (rfl | rfl)
    · exact .inl hcase
    · exact .inr ⟨hu, rfl⟩

/-- The code of a case that is not a default. -/
theorem errnoToWsaError_eq_of_listed (hcase : (e, WSABASEERR + u) ∈ errnoCases)
    (hu : Switch.Listed errnoCases u) : errnoToWsaError err = WSABASEERR + u ↔ err = e := by
  rw [errnoToWsaError_eq_iff]
  constructor
  · rintro (hmem | ⟨hnot, hsum⟩)
    · exact Switch.eq_of_mem_of_mem errnoCases_values hmem hcase
    · obtain rfl : err = u := by omega
      exact absurd hu hnot
  · rintro rfl
    exact .inl hcase

theorem errnoToWsaError_eq_WSAECONNREFUSED :
    errnoToWsaError err = WSAECONNREFUSED ↔ err = ECONNREFUSED ∨ err = 61 :=
  errnoToWsaError_eq_of_not_listed (by decide)
    (fun h => absurd (Switch.listed_iff_mem_map.mp h) (by decide))

theorem errnoToWsaError_eq_WSAECONNRESET :
    errnoToWsaError err = WSAECONNRESET ↔ err = ECONNRESET ∨ err = 54 :=
  errnoToWsaError_eq_of_not_listed (by decide)
    (fun h => absurd (Switch.listed_iff_mem_map.mp h) (by decide))

theorem errnoToWsaError_eq_WSAENOTCONN :
    errnoToWsaError err = WSAENOTCONN ↔ err = ENOTCONN ∨ err = 57 :=
  errnoToWsaError_eq_of_not_listed (by decide)
    (fun h => absurd (Switch.listed_iff_mem_map.mp h) (by decide))

theorem errnoToWsaError_eq_WSAEINVAL : errnoToWsaError err = WSAEINVAL ↔ err = EINVAL :=
  errnoToWsaError_eq_of_listed (by decide) ⟨WSAEINVAL, by decide⟩

/-- **Codes.**  The code that is reported is the expected one for the listed error numbers only. -/
theorem reported_eq_expected_iff : f.reported errno = f.expected errno ↔ errno ∈ f.agreeing := by
  cases f with
  | connect =>
    by_cases hprogress : errno = EINPROGRESS
    · simp [SystemCall.reported, SystemCall.expected, SystemCall.agreeing, hprogress]
    · simp [SystemCall.reported, SystemCall.expected, SystemCall.agreeing, hprogress,
        eq_comm (a := WSAECONNREFUSED), errnoToWsaError_eq_WSAECONNREFUSED]
  | accept =>
    simp [SystemCall.reported, SystemCall.expected, SystemCall.agreeing,
      eq_comm (a := WSAECONNREFUSED), errnoToWsaError_eq_WSAECONNREFUSED]
  | dup2 =>
    simp [SystemCall.reported, SystemCall.expected, SystemCall.agreeing,
      eq_comm (a := WSAEINVAL), errnoToWsaError_eq_WSAEINVAL]
  | recv =>
    simp [SystemCall.reported, SystemCall.expected, SystemCall.agreeing,
      eq_comm (a := WSAECONNRESET), errnoToWsaError_eq_WSAECONNRESET]
  | send =>
    simp [SystemCall.reported, SystemCall.expected, SystemCall.agreeing,
      eq_comm (a := WSAECONNRESET), errnoToWsaError_eq_WSAECONNRESET]
  | sendfile =>
    simp [SystemCall.reported, SystemCall.expected, SystemCall.agreeing,
      eq_comm (a := WSAECONNRESET), errnoToWsaError_eq_WSAECONNRESET]
  | shutdown =>
    simp [SystemCall.reported, SystemCall.expected, SystemCall.agreeing,
      eq_comm (a := WSAENOTCONN), errnoToWsaError_eq_WSAENOTCONN]

end Codes

/-! ### The failure of each function -/

section Failures

variable {f g : SystemCall} {made failed : Bool} {errno : Int} {c : ExtCall} {sources : Sources}
  {sent : Sent}

theorem failsIf_eq_some :
    f.failsIf made failed = some g ↔ (made = true ∧ failed = true) ∧ f = g := by
  simp [SystemCall.failsIf]

theorem failsIf_eq_none : f.failsIf made failed = none ↔ made = true → failed = false := by
  cases made <;> simp [SystemCall.failsIf]

theorem transmit_eq_none (answer : Option Nat) (t : Transmission) :
    sources.transmit answer t = none ↔ answer = none := by
  cases t <;> exact Option.map_eq_none_iff

/-- The loop ends with a failure exactly if a call for an element fails. -/
theorem transmitLoop_fst (es : List TransmitPacketsElement) (i : Nat) (wire : List Byte) :
    (transmitLoop sources sent es i wire).1 = (elementFailing sent es i).isNone := by
  induction es generalizing i wire with
  | nil => rfl
  | cons e es ih =>
    rw [transmitLoop_cons_transmission, elementFailing]
    cases e.transmission with
    | none => exact ih (i + 1) wire
    | some t =>
      cases hsent : sent i with
      | none =>
        have hnone : sources.transmit none t = none := (transmit_eq_none none t).mpr rfl
        simp [hnone, SystemCall.failsIf]
      | some n =>
        have hne : sources.transmit (some n) t ≠ none :=
          fun h => absurd ((transmit_eq_none (some n) t).mp h) (Option.some_ne_none n)
        obtain ⟨bytes, hbytes⟩ := Option.ne_none_iff_exists'.mp hne
        simp [hbytes, SystemCall.failsIf, ih]

/-- The call for an element is `send` or `sendfile`. -/
theorem elementFailing_reported {es : List TransmitPacketsElement} {i : Nat}
    (h : elementFailing sent es i = some f) : f.reported errno = WSAECONNRESET := by
  induction es generalizing i with
  | nil => cases h
  | cons e es ih =>
    rw [elementFailing, Option.or_eq_some_iff] at h
    rcases h with h | ⟨-, h⟩
    · obtain ⟨t, -, ht⟩ := Option.bind_eq_some_iff.mp h
      obtain ⟨-, rfl⟩ := failsIf_eq_some.mp ht
      cases t <;> rfl
    · exact ih h

/-- The outcome of a call is that of the system call that fails; if none does, the call succeeds,
    unless its arguments are refused. -/
structure ExtCall.Settled (c : ExtCall) (errno : Int) : Prop where
  fails : ∀ f, c.failing = some f → c.outcome errno = some (false, f.reported errno)
  succeeds : c.failing = none → ∀ o, c.outcome errno = some o →
    o = (true, 0) ∨ (c.Refused ∧ o = (false, WSAEINVAL))

/-- The outcome of a call that cannot be refused and is always defined. -/
theorem ExtCall.settled_of_eq (h : c.outcome errno =
    some ((c.failing.map (fun f => (false, f.reported errno))).getD (true, 0))) :
    c.Settled errno := by
  constructor
  · intro f hf
    rw [h, hf]
    rfl
  · intro hnone o ho
    rw [h, hnone] at ho
    exact .inl (Option.some.inj ho).symm

theorem asked_eq_true {buffer : Option Nat} {length : BitVec 32} :
    asked buffer length = true ↔ Receives buffer length := by
  cases buffer <;> simp [asked, Receives]

theorem settled_acceptEx (k : Answers) (sListenSocket sAcceptSocket : SOCKET)
    (lpOutputBuffer : Option Nat) (D L R : BitVec 32) (lpdwBytesReceived : Option (BitVec 32))
    (mem : Memory) : (ExtCall.acceptEx k sListenSocket sAcceptSocket lpOutputBuffer D L R
      lpdwBytesReceived mem).Settled errno := by
  cases haccept : k.accept with
  | none =>
    apply ExtCall.settled_of_eq
    simp [ExtCall.outcome, ExtCall.failing, acceptEx, haccept, SystemCall.failsIf,
      SystemCall.reported]
  | some accepted =>
    obtain ⟨fd, peer⟩ := accepted
    cases hdup : k.dup2 with
    | false =>
      apply ExtCall.settled_of_eq
      simp [ExtCall.outcome, ExtCall.failing, acceptEx, haccept, hdup, SystemCall.failsIf,
        SystemCall.reported]
    | true =>
      have hfailing : (ExtCall.acceptEx k sListenSocket sAcceptSocket lpOutputBuffer D L R
          lpdwBytesReceived mem).failing =
            SystemCall.recv.failsIf (asked lpOutputBuffer D) k.recv.isNone := by
        simp [ExtCall.failing, haccept, hdup, SystemCall.failsIf]
      constructor
      · intro f hf
        rw [hfailing] at hf
        obtain ⟨⟨hasked, hrecv⟩, rfl⟩ := failsIf_eq_some.mp hf
        have hreceive : receiveData k lpOutputBuffer D L R mem = none :=
          receiveData_eq_none.mpr ⟨asked_eq_true.mp hasked, Option.isNone_iff_eq_none.mp hrecv⟩
        simp [ExtCall.outcome, acceptEx, haccept, hdup, hreceive, SystemCall.reported]
      · intro hnone o ho
        rw [hfailing, failsIf_eq_none] at hnone
        obtain ⟨accepted, haccepted, rfl⟩ := Option.map_eq_some_iff.mp ho
        -- the data is received, and only the copies remain
        cases hreceive : receiveData k lpOutputBuffer D L R mem with
        | none =>
          obtain ⟨hreceives, hrecv⟩ := receiveData_eq_none.mp hreceive
          have hsome := hnone (asked_eq_true.mpr hreceives)
          rw [hrecv] at hsome
          cases hsome
        | some received =>
          simp only [acceptEx, haccept, hdup, hreceive, Bool.not_true, Bool.false_eq_true,
            if_false] at haccepted
          obtain ⟨stored, -, rfl⟩ := Option.map_eq_some_iff.mp haccepted
          exact .inl rfl

/-- A buffer is sent, unless the call for it fails. -/
theorem sendBuffer_cases (sources : Sources) (buffer : Option Nat) (length : BitVec 32)
    (answer : Option Nat) :
    (SystemCall.send.failsIf (asked buffer length) answer.isNone = some .send ∧
      sendBuffer sources buffer length answer = none) ∨
    (SystemCall.send.failsIf (asked buffer length) answer.isNone = none ∧
      ∃ bytes, sendBuffer sources buffer length answer = some bytes) := by
  have hsend : sendBuffer sources buffer length answer = if asked buffer length then
      answer.map (fun n => (bufferBytes sources buffer length).take n) else some [] :=
    sendBuffer_eq sources buffer length answer
  rw [hsend]
  cases asked buffer length <;> cases answer <;> simp [SystemCall.failsIf]

/-- So is the file. -/
theorem sendFileData_cases (sources : Sources) (fd : Fd) (n : BitVec 32) (answer : Option Nat) :
    (SystemCall.sendfile.failsIf (decide (0 < n)) answer.isNone = some .sendfile ∧
      sendFileData sources fd n answer = none) ∨
    (SystemCall.sendfile.failsIf (decide (0 < n)) answer.isNone = none ∧
      ∃ bytes, sendFileData sources fd n answer = some bytes) := by
  rw [sendFileData_eq]
  cases decide (0 < n) <;> cases answer <;> simp [SystemCall.failsIf]

theorem settled_transmitFile (k : FileAnswers) (hFile : BitVec 64)
    (nNumberOfBytesToWrite : BitVec 32) (lpTransmitBuffers : Option TransmitFileBuffers) :
    (ExtCall.transmitFile sources k hFile nNumberOfBytesToWrite lpTransmitBuffers).Settled
      errno := by
  apply ExtCall.settled_of_eq
  simp only [ExtCall.outcome, ExtCall.failing, transmitFile]
  generalize buffersOf lpTransmitBuffers = buffers
  -- the parts in their order, up to the first that fails
  rcases sendBuffer_cases sources buffers.head buffers.headLength k.head with
    ⟨hfails, hnone⟩ | ⟨hfails, head, hhead⟩
  · simp [hfails, hnone, SystemCall.reported]
  rcases sendFileData_cases sources (fileFd hFile) nNumberOfBytesToWrite k.file with
    ⟨hfails', hnone⟩ | ⟨hfails', data, hdata⟩
  · simp only [hfails, hhead, hfails', hnone]
    rfl
  rcases sendBuffer_cases sources buffers.tail buffers.tailLength k.tail with
    ⟨hfails'', hnone⟩ | ⟨hfails'', tail, htail⟩
  · simp only [hfails, hhead, hfails', hdata, hfails'', hnone]
    rfl
  · simp only [hfails, hhead, hfails', hdata, hfails'', htail]
    rfl

theorem settled_connectEx (k : ConnectAnswers) (lpSendBuffer : Option Nat)
    (dwSendDataLength : BitVec 32) (lpdwBytesSent : Option (BitVec 32)) :
    (ExtCall.connectEx sources k lpSendBuffer dwSendDataLength lpdwBytesSent).Settled errno := by
  apply ExtCall.settled_of_eq
  simp only [ExtCall.outcome, ExtCall.failing, connectEx]
  cases k.connect with
  | false =>
    by_cases hprogress : errno = EINPROGRESS
    · simp [hprogress, SystemCall.failsIf, SystemCall.reported]
    · simp [hprogress, SystemCall.failsIf, SystemCall.reported]
  | true =>
    cases lpSendBuffer with
    | none => simp [SystemCall.failsIf, asked]
    | some p =>
      by_cases hlength : 0#32 < dwSendDataLength
      · cases k.send <;> simp [hlength, SystemCall.failsIf, SystemCall.reported, asked]
      · simp [hlength, SystemCall.failsIf, asked]

theorem settled_disconnectEx (shutdownOk : Bool) (w : World) (s : SOCKET) (dwFlags : BitVec 32) :
    (ExtCall.disconnectEx shutdownOk w s dwFlags).Settled errno := by
  apply ExtCall.settled_of_eq
  simp only [ExtCall.outcome, ExtCall.failing, disconnectEx]
  cases shutdownOk with
  | false => simp [SystemCall.failsIf, SystemCall.reported]
  | true =>
    by_cases hflags : dwFlags &&& TF_REUSE_SOCKET = 0#32
    · simp [hflags, SystemCall.failsIf]
    · simp [hflags, SystemCall.failsIf]

/-- The outcome for an array that is long enough. -/
theorem outcome_transmitPackets {es : List TransmitPacketsElement} {nElementCount : BitVec 32}
    (hcount : nElementCount ≠ 0) (hlen : ¬ es.length < nElementCount.toNat) :
    (ExtCall.transmitPackets sources sent (some es) nElementCount).outcome errno =
      some (if elementFailing sent (es.take nElementCount.toNat) 0 = none then (true, 0)
        else (false, WSAECONNRESET)) := by
  have hloop : (transmitLoop sources sent (es.take nElementCount.toNat) 0 []).1 =
      (elementFailing sent (es.take nElementCount.toNat) 0).isNone := transmitLoop_fst _ 0 []
  simp only [ExtCall.outcome, transmitPackets, hcount, hlen, if_false]
  cases hrun : transmitLoop sources sent (es.take nElementCount.toNat) 0 [] with
  | mk ret wire =>
    rw [hrun] at hloop
    cases ret with
    | true =>
      rw [if_pos (Option.isNone_iff_eq_none.mp hloop.symm)]
      rfl
    | false =>
      rw [if_neg (fun hnone => by rw [hnone] at hloop; cases hloop)]
      rfl

theorem settled_transmitPackets (lpPacketArray : Option (List TransmitPacketsElement))
    (nElementCount : BitVec 32) :
    (ExtCall.transmitPackets sources sent lpPacketArray nElementCount).Settled errno := by
  constructor
  · intro f hf
    obtain ⟨es, rfl, hes⟩ := Option.bind_eq_some_iff.mp hf
    obtain ⟨hlen, hes⟩ := Option.ite_none_left_eq_some.mp hes
    have hcount : nElementCount ≠ 0 := by
      rintro rfl
      cases hes
    rw [outcome_transmitPackets hcount hlen, if_neg (by simp [hes]), elementFailing_reported hes]
  · intro hnone o ho
    cases lpPacketArray with
    | none => exact .inr ⟨.inl rfl, (Option.some.inj ho).symm⟩
    | some es =>
      by_cases hcount : nElementCount = 0
      · subst hcount
        exact .inr ⟨.inr rfl, (Option.some.inj ho).symm⟩
      by_cases hlen : es.length < nElementCount.toNat
      · simp only [ExtCall.outcome, transmitPackets, hcount, hlen, if_true, if_false,
          Option.map_none] at ho
        cases ho
      · have hes : elementFailing sent (es.take nElementCount.toNat) 0 = none := by
          simpa [ExtCall.failing, hlen] using hnone
        rw [outcome_transmitPackets hcount hlen, if_pos hes] at ho
        exact .inl (Option.some.inj ho).symm

/-- **Failures.**  Every call fails exactly with the system call that fails, or with its
    arguments. -/
theorem settled (c : ExtCall) (errno : Int) : c.Settled errno := by
  cases c with
  | acceptEx => exact settled_acceptEx _ _ _ _ _ _ _ _ _
  | transmitFile => exact settled_transmitFile _ _ _ _
  | connectEx => exact settled_connectEx _ _ _ _
  | disconnectEx => exact settled_disconnectEx _ _ _ _
  | transmitPackets => exact settled_transmitPackets _ _

end Failures

/-! ### The last error -/

/-- If a system call fails and the function returns FALSE, the last error is the code that is
    expected for `errno`. -/
def ReportsErrno (c : ExtCall) (errno : Int) : Prop :=
  ∀ f lastError, c.failing = some f → c.outcome errno = some (false, lastError) →
    lastError = f.expected errno

/-- **Errors.**  A call reports the error of the kernel exactly if no system call fails, or `errno`
    is one of the few numbers that have the code for that call. -/
theorem reportsErrno_iff (c : ExtCall) (errno : Int) :
    ReportsErrno c errno ↔ ∀ f, c.failing = some f → errno ∈ f.agreeing := by
  unfold ReportsErrno
  apply forall_congr'
  intro f
  constructor
  · intro h hf
    exact reported_eq_expected_iff.mp (h _ hf ((settled c errno).fails f hf))
  · intro h lastError hf ho
    rw [(settled c errno).fails f hf] at ho
    obtain ⟨-, rfl⟩ := Prod.mk.inj (Option.some.inj ho)
    exact reported_eq_expected_iff.mpr (h hf)

/-- No connection is waiting on a socket that does not block: it is reported as refused. -/
theorem not_reportsErrno_accept : ¬ ReportsErrno
    (.acceptEx { loopbackAnswers with accept := none } 3 4 none 0 0 0 none (fun _ => 0))
    EWOULDBLOCK := by
  intro h
  exact absurd (h .accept WSAECONNREFUSED rfl rfl) (by decide)

end LinuxWinsock.Ext
