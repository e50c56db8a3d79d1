import LinuxWinsock.Ext.FileOffset
import LinuxWinsock.Ext.TransmitFile

namespace LinuxWinsock.Ext

open Memory Offer

/-!
# Transmissions one after the other

A client calls `TransmitFile` and `TransmitPackets` on one socket, in any order, until a call
fails.

* `Request.elements` — the elements that a call comes to: those of its array, or one for each part
  that `TransmitFile` is asked for;
* `transmitLoop_append` — the loop over two arrays is the loop over the first, and then over the
  second if the first did not fail;
* `Request.run_eq` — a call is the loop over its elements, whichever of the two functions it is;
* `runAll_eq_transmitPackets` — the calls leave behind what one call of `TransmitPackets` over all
  their elements does.
-/

/-! ### The calls -/

/-- A call of `TransmitPackets` with its array, or of `TransmitFile`. -/
inductive Request where
  | packets (lpPacketArray : List TransmitPacketsElement)
  | file (hFile : BitVec 64) (nNumberOfBytesToWrite : BitVec 32)
      (lpTransmitBuffers : Option TransmitFileBuffers)

/-- The element for a buffer of `TransmitFile`, if it is there and not empty. -/
def bufferElement (buffer : Option Nat) (length : BitVec 32) : List TransmitPacketsElement :=
  match buffer with
  | some p => if 0 < length then [⟨TP_ELEMENT_MEMORY, length, BitVec.ofNat 64 p, 0⟩] else []
  | none => []

/-- The element for the file, if anything of it is asked for; it is sent from its start. -/
def fileElement (hFile : BitVec 64) (nNumberOfBytesToWrite : BitVec 32) :
    List TransmitPacketsElement :=
  if 0 < nNumberOfBytesToWrite then [⟨TP_ELEMENT_FILE, nNumberOfBytesToWrite, 0, hFile⟩] else []

/-- The elements that the call comes to. -/
def Request.elements : Request → List TransmitPacketsElement
  | .packets es => es
  | .file hFile n lpTransmitBuffers =>
    let buffers := buffersOf lpTransmitBuffers
    bufferElement buffers.head buffers.headLength ++
      (fileElement hFile n ++ bufferElement buffers.tail buffers.tailLength)

/-- The answers to the calls for the parts, where the first of them is the answer `i`. -/
def fileAnswers (sent : Sent) (i : Nat) (hFile : BitVec 64) (n : BitVec 32)
    (buffers : TransmitFileBuffers) : FileAnswers where
  head := sent i
  file := sent (i + (bufferElement buffers.head buffers.headLength).length)
  tail := sent (i + (bufferElement buffers.head buffers.headLength).length +
    (fileElement hFile n).length)

/-- The call, which gets the answers from `i` on; an array is passed with its length. -/
def Request.run (sources : Sources) (sent : Sent) (i : Nat) : Request → Option Transmitted
  | .packets es =>
    transmitPackets sources (fun j => sent (i + j)) (some es) (BitVec.ofNat 32 es.length)
  | .file hFile n lpTransmitBuffers =>
    some (transmitFile sources (fileAnswers sent i hFile n (buffersOf lpTransmitBuffers)) hFile n
      lpTransmitBuffers)

/-- The calls one after the other, until one fails: the last result, and what the socket has
    received. -/
def runAll (sources : Sources) (sent : Sent) : List Request → Nat → Option Transmitted
  | [], _ => some ⟨true, 0, []⟩
  | r :: rs, i =>
    (r.run sources sent i).bind fun o =>
      if o.ret then
        (runAll sources sent rs (i + r.elements.length)).map
          (fun rest => { rest with wire := o.wire ++ rest.wire })
      else some o

/-- An array has an element, and no more than `DWORD` counts; a buffer has an address. -/
def Request.WellFormed : Request → Prop
  | .packets es => 0 < es.length ∧ es.length < 2 ^ 32
  | .file _ _ lpTransmitBuffers =>
    (∀ p ∈ (buffersOf lpTransmitBuffers).head, p < 2 ^ 64) ∧
      ∀ p ∈ (buffersOf lpTransmitBuffers).tail, p < 2 ^ 64

instance : DecidablePred Request.WellFormed
  | .packets es => inferInstanceAs (Decidable (0 < es.length ∧ es.length < 2 ^ 32))
  | .file _ _ lpTransmitBuffers =>
    inferInstanceAs (Decidable ((∀ p ∈ (buffersOf lpTransmitBuffers).head, p < 2 ^ 64) ∧
      ∀ p ∈ (buffersOf lpTransmitBuffers).tail, p < 2 ^ 64))

variable {sources : Sources} {sent : Sent}

/-! ### The loop over several arrays -/

/-- What was received before stays in front, and has no influence. -/
theorem transmitLoop_wire (es : List TransmitPacketsElement) (i : Nat) (wire : List Byte) :
    transmitLoop sources sent es i wire =
      ((transmitLoop sources sent es i []).1, wire ++ (transmitLoop sources sent es i []).2) := by
  induction es generalizing i wire with
  | nil =>
    show (true, wire) = (true, wire ++ [])
    rw [List.append_nil]
  | cons e es ih =>
    rw [transmitLoop_cons_transmission, transmitLoop_cons_transmission]
    cases e.transmission with
    | none => exact ih (i + 1) wire
    | some t =>
      simp only []
      cases sources.transmit (sent i) t with
      | none =>
        show (false, wire) = (false, wire ++ [])
        rw [List.append_nil]
      | some bytes =>
        simp only []
        rw [ih (i + 1) (wire ++ bytes), ih (i + 1) ([] ++ bytes), List.nil_append,
          List.append_assoc]

/-- The answers from `k` on. -/
theorem transmitLoop_shift (k : Nat) (es : List TransmitPacketsElement) (i : Nat)
    (wire : List Byte) :
    transmitLoop sources (fun j => sent (k + j)) es i wire =
      transmitLoop sources sent es (k + i) wire := by
  induction es generalizing i wire with
  | nil => rfl
  | cons e es ih =>
    rw [transmitLoop_cons_transmission, transmitLoop_cons_transmission]
    have ih : ∀ wire, transmitLoop sources (fun j => sent (k + j)) es (i + 1) wire =
        transmitLoop sources sent es (k + i + 1) wire := by
      intro wire
      rw [ih (i + 1) wire, Nat.add_assoc]
    cases e.transmission with
    | none => exact ih wire
    | some t =>
      simp only []
      cases sources.transmit (sent (k + i)) t with
      | none => rfl
      | some bytes => exact ih (wire ++ bytes)

/-- **Two arrays.**  The loop goes on with the second one if the first did not fail. -/
theorem transmitLoop_append (es es' : List TransmitPacketsElement) (i : Nat) (wire : List Byte) :
    transmitLoop sources sent (es ++ es') i wire =
      if (transmitLoop sources sent es i wire).1 then
        transmitLoop sources sent es' (i + es.length) (transmitLoop sources sent es i wire).2
      else transmitLoop sources sent es i wire := by
  induction es generalizing i wire with
  | nil => rfl
  | cons e es ih =>
    have hnext : i + (e :: es).length = i + 1 + es.length := by
      rw [List.length_cons]
      omega
    rw [List.cons_append, hnext]
    simp only [transmitLoop_cons_transmission]
    cases e.transmission with
    | none => exact ih (i + 1) wire
    | some t =>
      simp only []
      cases sources.transmit (sent i) t with
      | none => rfl
      | some bytes => exact ih (i + 1) (wire ++ bytes)

/-! ### One call -/

/-- What a call leaves behind if the loop over its elements ends like this. -/
def answerOf (ended : Bool × List Byte) : Transmitted :=
  ⟨ended.1, if ended.1 then 0 else WSAECONNRESET, ended.2⟩

/-- `TransmitPackets` is the loop over its array. -/
theorem transmitPackets_eq {es : List TransmitPacketsElement} (hpos : 0 < es.length)
    (hlen : es.length < 2 ^ 32) (sources : Sources) (sent : Sent) :
    transmitPackets sources sent (some es) (BitVec.ofNat 32 es.length) =
      some (answerOf (transmitLoop sources sent es 0 [])) := by
  have hcount : (BitVec.ofNat 32 es.length).toNat = es.length := by
    rw [BitVec.toNat_ofNat, Nat.mod_eq_of_lt hlen]
  have hzero : BitVec.ofNat 32 es.length ≠ 0 := by
    intro h
    rw [h] at hcount
    have hnone : 0 = es.length := hcount
    omega
  simp only [transmitPackets, if_neg hzero, hcount, lt_irrefl, if_false, List.take_length]
  generalize transmitLoop sources sent es 0 [] = ended
  obtain ⟨ret, wire⟩ := ended
  cases ret <;> rfl

/-- The element of a buffer makes the call for the buffer. -/
theorem transmitLoop_bufferElement {buffer : Option Nat} {length : BitVec 32}
    (hbuffer : ∀ p ∈ buffer, p < 2 ^ 64) (i : Nat) (wire : List Byte) :
    transmitLoop sources sent (bufferElement buffer length) i wire =
      match sendBuffer sources buffer length (sent i) with
      | none => (false, wire)
      | some bytes => (true, wire ++ bytes) := by
  cases buffer with
  | none => simp [bufferElement, sendBuffer, transmitLoop]
  | some p =>
    have hp : (BitVec.ofNat 64 p).toNat = p := by
      rw [BitVec.toNat_ofNat, Nat.mod_eq_of_lt (hbuffer p rfl)]
    have hflag : TP_ELEMENT_MEMORY &&& TP_ELEMENT_MEMORY ≠ 0 := by decide
    by_cases hlength : 0 < length
    · cases hsent : send sources p length.toNat (sent i) <;>
        simp only [bufferElement, sendBuffer, if_pos hlength, transmitLoop, if_pos hflag,
          TransmitPacketsElement.pBuffer, hp, hsent]
    · simp only [bufferElement, sendBuffer, if_neg hlength, transmitLoop, List.append_nil]

/-- The element of the file makes the call for the file. -/
theorem transmitLoop_fileElement (hFile : BitVec 64) (n : BitVec 32) (i : Nat)
    (wire : List Byte) :
    transmitLoop sources sent (fileElement hFile n) i wire =
      match sendFileData sources (fileFd hFile) n (sent i) with
      | none => (false, wire)
      | some bytes => (true, wire ++ bytes) := by
  have hmemory : ¬ TP_ELEMENT_FILE &&& TP_ELEMENT_MEMORY ≠ 0 := by decide
  have hflag : TP_ELEMENT_FILE &&& TP_ELEMENT_FILE ≠ 0 := by decide
  by_cases hn : 0 < n
  · have hstart : TransmitPacketsElement.nFileOffset ⟨TP_ELEMENT_FILE, n, 0, hFile⟩ = 0 := rfl
    cases hsent : sendfile sources (hFile.setWidth 32).toInt 0 n.toNat (sent i) <;>
      simp only [fileElement, sendFileData, if_pos hn, transmitLoop, if_neg hmemory, if_pos hflag,
        TransmitPacketsElement.fd, fileFd, hstart, hsent]
  · simp only [fileElement, sendFileData, if_neg hn, transmitLoop, List.append_nil]

/-- `TransmitFile` is the loop over the elements of its parts. -/
theorem transmitFile_eq_loop (sources : Sources) (sent : Sent) (i : Nat) (hFile : BitVec 64)
    (n : BitVec 32) {lpTransmitBuffers : Option TransmitFileBuffers}
    (hbuffers : (Request.file hFile n lpTransmitBuffers).WellFormed) :
    transmitFile sources (fileAnswers sent i hFile n (buffersOf lpTransmitBuffers)) hFile n
        lpTransmitBuffers =
      answerOf (transmitLoop sources sent (Request.file hFile n lpTransmitBuffers).elements i
        []) := by
  simp only [Request.elements, transmitLoop_append, transmitLoop_bufferElement hbuffers.1,
    transmitLoop_bufferElement hbuffers.2, transmitLoop_fileElement, transmitFile, fileAnswers,
    List.nil_append]
  cases sendBuffer sources (buffersOf lpTransmitBuffers).head
      (buffersOf lpTransmitBuffers).headLength (sent i) with
  | none => rfl
  | some head =>
    simp only [if_true]
    cases sendFileData sources (fileFd hFile) n (sent (i + (bufferElement
        (buffersOf lpTransmitBuffers).head (buffersOf lpTransmitBuffers).headLength).length)) with
    | none => rfl
    | some data =>
      simp only [if_true]
      cases sendBuffer sources (buffersOf lpTransmitBuffers).tail
          (buffersOf lpTransmitBuffers).tailLength _ with
      | none => rfl
      | some tail => rfl

/-- **One call** is the loop over its elements, whichever function it is of. -/
theorem Request.run_eq {r : Request} (hr : r.WellFormed) (sources : Sources) (sent : Sent)
    (i : Nat) :
    r.run sources sent i = some (answerOf (transmitLoop sources sent r.elements i [])) := by
  cases r with
  | packets es =>
    rw [Request.run, transmitPackets_eq hr.1 hr.2, transmitLoop_shift, Nat.add_zero]
    rfl
  | file hFile n lpTransmitBuffers =>
    exact congrArg some (transmitFile_eq_loop sources sent i hFile n hr)

/-! ### All calls -/

/-- The calls are the loop over the elements of all. -/
theorem runAll_eq {rs : List Request} (hrs : ∀ r ∈ rs, r.WellFormed) (i : Nat) :
    runAll sources sent rs i =
      some (answerOf (transmitLoop sources sent (rs.flatMap Request.elements) i [])) := by
  induction rs generalizing i with
  | nil => rfl
  | cons r rs ih =>
    have ih := ih (fun r' hmem => hrs r' (List.mem_cons_of_mem r hmem)) (i + r.elements.length)
    simp only [runAll, Request.run_eq (hrs r List.mem_cons_self), Option.bind_some, ih,
      List.flatMap_cons, transmitLoop_append]
    generalize transmitLoop sources sent r.elements i [] = ended
    obtain ⟨ret, wire⟩ := ended
    cases ret with
    | false => rfl
    | true =>
      simp only [answerOf, if_true, Option.map_some]
      rw [transmitLoop_wire _ _ wire]

/-- **Transmissions composed.**  Calls of `TransmitFile` and `TransmitPackets`, each made if those
    before it succeeded, leave behind what one call of `TransmitPackets` over all their elements
    does: the result, the last error and the bytes on the socket. -/
theorem runAll_eq_transmitPackets (sources : Sources) (sent : Sent) (rs : List Request)
    (hrs : ∀ r ∈ rs, r.WellFormed) (hpos : 0 < (rs.flatMap Request.elements).length)
    (hlen : (rs.flatMap Request.elements).length < 2 ^ 32) :
    runAll sources sent rs 0 =
      transmitPackets sources sent (some (rs.flatMap Request.elements))
        (BitVec.ofNat 32 (rs.flatMap Request.elements).length) := by
  rw [runAll_eq hrs, transmitPackets_eq hpos hlen]

/-- A file with a head, and then an array of two elements, the last of which is refused. -/
def headFileArray : List Request :=
  [.file 7 3 (some ⟨some 8, 2, none, 0⟩), .packets [⟨TP_ELEMENT_MEMORY, 1, 16, 0⟩,
    ⟨TP_ELEMENT_FILE, 2, 1, 7⟩]]

/-- The four calls are those of one array; the last one fails. -/
theorem runAll_headFileArray :
    runAll countingSources (fun i => if i < 3 then some 1 else none) headFileArray 0 =
      transmitPackets countingSources (fun i => if i < 3 then some 1 else none)
        (some [⟨TP_ELEMENT_MEMORY, 2, 8, 0⟩, ⟨TP_ELEMENT_FILE, 3, 0, 7⟩,
          ⟨TP_ELEMENT_MEMORY, 1, 16, 0⟩, ⟨TP_ELEMENT_FILE, 2, 1, 7⟩]) 4 :=
  runAll_eq_transmitPackets countingSources _ headFileArray (by decide) (by decide) (by decide)

end LinuxWinsock.Ext
