import LinuxWinsock.Ext.TransmitPackets

namespace LinuxWinsock.Ext

open Memory Offer

/-!
# `TransmitFile`

`TransmitFile` of `ms_extensions.c`: a head, the first bytes of a file, and a tail, each with one
call of `send` or `sendfile`, whose answers are the kernel's choice.

* `transmitFile_eq` — the calls offer the three parts to the socket one after the other;
* `transmitsFile_iff_resumes` — the socket receives the parts without a gap exactly if behind a
  call that accepts less than it is asked to a call fails, and what the calls between the two
  accept is what the first left out.
-/

/-! ### The function -/

/-- `TRANSMIT_FILE_BUFFERS` -/
structure TransmitFileBuffers where
  head : Option Nat
  headLength : BitVec 32
  tail : Option Nat
  tailLength : BitVec 32

/-- What the kernel answers to the calls for the head, the file and the tail, as far as they are
    made: the number of bytes accepted, or a failure. -/
structure FileAnswers where
  head : Option Nat
  file : Option Nat
  tail : Option Nat

/-- A buffer is sent if it is there and not empty; `none` if the call fails. -/
def sendBuffer (sources : Sources) (buffer : Option Nat) (length : BitVec 32)
    (answer : Option Nat) : Option (List Byte) :=
  match buffer with
  | some p => if 0 < length then send sources p length.toNat answer else some []
  | none => some []

/-- The file is sent from its start, if anything of it is asked for; `none` if the call fails. -/
def sendFileData (sources : Sources) (fd : Fd) (nNumberOfBytesToWrite : BitVec 32)
    (answer : Option Nat) : Option (List Byte) :=
  if 0 < nNumberOfBytesToWrite then sendfile sources fd 0 nNumberOfBytesToWrite.toNat answer
  else some []

/-- `(int)(intptr_t)hFile` -/
def fileFd (hFile : BitVec 64) : Fd := (hFile.setWidth 32).toInt

/-- `lpTransmitBuffers`, where `NULL` is as good as no head and no tail. -/
def buffersOf (lpTransmitBuffers : Option TransmitFileBuffers) : TransmitFileBuffers :=
  lpTransmitBuffers.getD ⟨none, 0, none, 0⟩

/-- `nNumberOfBytesPerSend`, `lpOverlapped` and `dwReserved` are not used. -/
def transmitFile (sources : Sources) (k : FileAnswers) (hFile : BitVec 64)
    (nNumberOfBytesToWrite : BitVec 32) (lpTransmitBuffers : Option TransmitFileBuffers) :
    Transmitted :=
  let buffers := buffersOf lpTransmitBuffers
  match sendBuffer sources buffers.head buffers.headLength k.head with
  | none => ⟨false, WSAECONNRESET, []⟩
  | some head =>
    -- how much of the head was accepted is not looked at
    match sendFileData sources (fileFd hFile) nNumberOfBytesToWrite k.file with
    | none => ⟨false, WSAECONNRESET, head⟩
    | some data =>
      match sendBuffer sources buffers.tail buffers.tailLength k.tail with
      | none => ⟨false, WSAECONNRESET, head ++ data⟩
      | some tail => ⟨true, 0, head ++ data ++ tail⟩

/-! ### The parts as pieces of a stream -/

variable {sources : Sources} {k : FileAnswers} {hFile : BitVec 64}
  {nNumberOfBytesToWrite : BitVec 32} {lpTransmitBuffers : Option TransmitFileBuffers}

/-- The bytes of a buffer. -/
def bufferBytes (sources : Sources) (buffer : Option Nat) (length : BitVec 32) : List Byte :=
  (buffer.map (fun p => sources.mem.loadBytes p length.toNat)).getD []

/-- The head, the first bytes of the file, and the tail. -/
def fileStream (sources : Sources) (hFile : BitVec 64) (nNumberOfBytesToWrite : BitVec 32)
    (lpTransmitBuffers : Option TransmitFileBuffers) : List Byte :=
  let buffers := buffersOf lpTransmitBuffers
  bufferBytes sources buffers.head buffers.headLength ++
    ((sources.file (fileFd hFile)).take nNumberOfBytesToWrite.toNat ++
      bufferBytes sources buffers.tail buffers.tailLength)

/-- One part, which is offered if it is asked for. -/
def part (asked : Bool) (data : List Byte) (answer : Option Nat) : List (Offer Byte) :=
  if asked then [⟨data, answer⟩] else []

/-- The offers that the call makes. -/
def fileOffers (sources : Sources) (k : FileAnswers) (hFile : BitVec 64)
    (nNumberOfBytesToWrite : BitVec 32) (lpTransmitBuffers : Option TransmitFileBuffers) :
    List (Offer Byte) :=
  let buffers := buffersOf lpTransmitBuffers
  part (buffers.head.isSome && decide (0 < buffers.headLength))
      (bufferBytes sources buffers.head buffers.headLength) k.head ++
    (part (decide (0 < nNumberOfBytesToWrite))
        ((sources.file (fileFd hFile)).take nNumberOfBytesToWrite.toNat) k.file ++
      part (buffers.tail.isSome && decide (0 < buffers.tailLength))
        (bufferBytes sources buffers.tail buffers.tailLength) k.tail)

/-- A call that fails leaves nothing of its part on the socket. -/
theorem delivered_part_of_failed {asked : Bool} {data : List Byte} {answer : Option Nat}
    (h : succeeded (part asked data answer) = false) : delivered (part asked data answer) = [] := by
  cases asked with
  | false => rfl
  | true =>
    cases answer with
    | none => rfl
    | some n => cases h

/-- A part that is not asked for is empty. -/
theorem whole_part {asked : Bool} {data : List Byte} (answer : Option Nat)
    (h : asked = false → data = []) : whole (part asked data answer) = data := by
  cases asked with
  | false => exact (h rfl).symm
  | true => exact List.append_nil data

/-- A call for a part. -/
theorem sendBuffer_eq (sources : Sources) (buffer : Option Nat) (length : BitVec 32)
    (answer : Option Nat) :
    sendBuffer sources buffer length answer =
      if buffer.isSome && decide (0 < length) then
        answer.map (fun n => (bufferBytes sources buffer length).take n)
      else some [] := by
  cases buffer with
  | none => rfl
  | some p =>
    simp only [sendBuffer, bufferBytes, send, Option.isSome_some, Bool.true_and, decide_eq_true_eq,
      Option.map_some, Option.getD_some]

theorem sendFileData_eq (sources : Sources) (fd : Fd) (n : BitVec 32) (answer : Option Nat) :
    sendFileData sources fd n answer =
      if decide (0 < n) then answer.map (fun m => ((sources.file fd).take n.toNat).take m)
      else some [] := by
  simp [sendFileData, sendfile]

/-- The outcome of a call for a part, from its offer. -/
theorem answered_part (asked : Bool) (data : List Byte) (answer : Option Nat) :
    (if asked then answer.map (fun n => data.take n) else some []) =
      if succeeded (part asked data answer) then some (delivered (part asked data answer))
      else none := by
  cases asked with
  | false => rfl
  | true =>
    cases answer with
    | none => rfl
    | some n =>
      show some (data.take n) = some (data.take n ++ [])
      rw [List.append_nil]

/-- **The calls** offer the parts to the socket one after the other. -/
theorem transmitFile_eq (sources : Sources) (k : FileAnswers) (hFile : BitVec 64)
    (nNumberOfBytesToWrite : BitVec 32) (lpTransmitBuffers : Option TransmitFileBuffers) :
    (transmitFile sources k hFile nNumberOfBytesToWrite lpTransmitBuffers).ret =
        succeeded (fileOffers sources k hFile nNumberOfBytesToWrite lpTransmitBuffers) ∧
      (transmitFile sources k hFile nNumberOfBytesToWrite lpTransmitBuffers).wire =
        delivered (fileOffers sources k hFile nNumberOfBytesToWrite lpTransmitBuffers) := by
  simp only [transmitFile, fileOffers, sendBuffer_eq, sendFileData_eq, answered_part]
  generalize hhead : part _ _ k.head = head
  generalize hdata : part _ _ k.file = data
  generalize htail : part _ _ k.tail = tail
  rw [succeeded_append, succeeded_append]
  cases hsent : succeeded head with
  | false =>
    rw [delivered_append_of_failed hsent]
    subst hhead
    exact ⟨rfl, (delivered_part_of_failed hsent).symm⟩
  | true =>
    rw [delivered_append_of_succeeded hsent]
    cases hfile : succeeded data with
    | false =>
      rw [delivered_append_of_failed hfile]
      subst hdata
      rw [delivered_part_of_failed hfile, List.append_nil]
      exact ⟨rfl, rfl⟩
    | true =>
      rw [delivered_append_of_succeeded hfile]
      cases hlast : succeeded tail with
      | false =>
        subst htail
        rw [delivered_part_of_failed hlast, List.append_nil]
        exact ⟨rfl, rfl⟩
      | true => exact ⟨rfl, List.append_assoc _ _ _⟩

/-- The whole stream is that of the three parts. -/
theorem whole_fileOffers (sources : Sources) (k : FileAnswers) (hFile : BitVec 64)
    (nNumberOfBytesToWrite : BitVec 32) (lpTransmitBuffers : Option TransmitFileBuffers) :
    whole (fileOffers sources k hFile nNumberOfBytesToWrite lpTransmitBuffers) =
      fileStream sources hFile nNumberOfBytesToWrite lpTransmitBuffers := by
  have hbuffer : ∀ (buffer : Option Nat) (length : BitVec 32),
      (buffer.isSome && decide (0 < length)) = false →
        bufferBytes sources buffer length = [] := by
    intro buffer length h
    cases buffer with
    | none => rfl
    | some p =>
      have hzero : length.toNat = 0 := by simpa [BitVec.lt_def] using h
      simp [bufferBytes, hzero, loadBytes]
  have hdata : decide (0 < nNumberOfBytesToWrite) = false →
      (sources.file (fileFd hFile)).take nNumberOfBytesToWrite.toNat = [] := by
    intro h
    have hzero : nNumberOfBytesToWrite.toNat = 0 := by simpa [BitVec.lt_def] using h
    rw [hzero, List.take_zero]
  simp only [fileOffers, fileStream, whole_append]
  rw [whole_part _ (hbuffer _ _), whole_part _ hdata, whole_part _ (hbuffer _ _)]

/-! ### The stream on the socket -/

/-- What the call leaves on the socket is a prefix of the head, the file's bytes and the tail, and
    all of it if the call returns TRUE. -/
def TransmitsFile (sources : Sources) (k : FileAnswers) (hFile : BitVec 64)
    (nNumberOfBytesToWrite : BitVec 32) (lpTransmitBuffers : Option TransmitFileBuffers) : Prop :=
  let o := transmitFile sources k hFile nNumberOfBytesToWrite lpTransmitBuffers
  let stream := fileStream sources hFile nNumberOfBytesToWrite lpTransmitBuffers
  o.wire <+: stream ∧ (o.ret = true → o.wire = stream)

/-- The kernel accepts no more than it is asked to, and something if it is asked for anything. -/
def FileAnswered (offers : List (Offer Byte)) : Prop :=
  ∀ o ∈ offers, ∀ n, o.answer = some n → n ≤ o.data.length ∧ (0 < o.data.length → 0 < n)

/-- The call does what its offers do. -/
theorem transmitsFile_iff_delivers :
    TransmitsFile sources k hFile nNumberOfBytesToWrite lpTransmitBuffers ↔
      Delivers (fileOffers sources k hFile nNumberOfBytesToWrite lpTransmitBuffers) := by
  obtain ⟨hret, hwire⟩ :=
    transmitFile_eq sources k hFile nNumberOfBytesToWrite lpTransmitBuffers
  unfold TransmitsFile Delivers
  rw [whole_fileOffers]
  dsimp only
  rw [hret, hwire]
  cases succeeded (fileOffers sources k hFile nNumberOfBytesToWrite lpTransmitBuffers) with
  | true =>
    constructor
    · intro h
      exact ⟨h.2, nofun⟩
    · intro h
      exact ⟨(h.1 rfl) ▸ List.prefix_rfl, h.1⟩
  | false =>
    constructor
    · intro h
      exact ⟨nofun, fun _ => h.1⟩
    · intro h
      exact ⟨h.2 rfl, nofun⟩

/-- **The stream** on the socket has no gap exactly if behind a call that accepts less than it is
    asked to a call fails, and what the calls between the two accept is what the first left
    out. -/
theorem transmitsFile_iff_resumes (sources : Sources) (k : FileAnswers) (hFile : BitVec 64)
    (nNumberOfBytesToWrite : BitVec 32) (lpTransmitBuffers : Option TransmitFileBuffers)
    (hk : FileAnswered
      (fileOffers sources k hFile nNumberOfBytesToWrite lpTransmitBuffers)) :
    TransmitsFile sources k hFile nNumberOfBytesToWrite lpTransmitBuffers ↔
      Resumes (fileOffers sources k hFile nNumberOfBytesToWrite lpTransmitBuffers) := by
  rw [transmitsFile_iff_delivers]
  exact delivers_iff_resumes (fun o ho n hn => (hk o ho n hn).1)

/-- Two bytes of head, three of a file, and one byte of tail, for which the call fails. -/
theorem transmitsFile_until_failure :
    TransmitsFile countingSources ⟨some 2, some 3, none⟩ 7 3 (some ⟨some 8, 2, some 16, 1⟩) := by
  refine (transmitsFile_iff_resumes _ _ _ _ _ ?_).mpr ?_
  · intro o ho n hn
    rcases List.mem_cons.mp ho with rfl | ho
    · obtain rfl := Option.some.inj hn
      exact ⟨by decide, fun _ => by decide⟩
    rcases List.mem_cons.mp ho with rfl | ho
    · obtain rfl := Option.some.inj hn
      exact ⟨by decide, fun _ => by decide⟩
    · obtain rfl := List.mem_singleton.mp ho
      cases hn
  · refine (resumes_cons_full rfl _).mpr ((resumes_cons_full rfl _).mpr ?_)
    exact resumes_cons_none rfl _

/-- Of a head of two bytes one is accepted, and the file follows; the call returns TRUE. -/
theorem not_transmitsFile_short_head :
    ¬ TransmitsFile countingSources ⟨some 1, some 3, none⟩ 7 3 (some ⟨some 8, 2, none, 0⟩) := by
  rintro ⟨-, hall⟩
  exact absurd (hall rfl) (by decide)

end LinuxWinsock.Ext
