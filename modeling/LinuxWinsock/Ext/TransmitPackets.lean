import LinuxWinsock.Api
import LinuxWinsock.Lib.Delivery
import LinuxWinsock.Lib.Memory

namespace LinuxWinsock.Ext

open Memory Offer

/-!
# `TransmitPackets`

`TransmitPackets` of `ms_extensions.c`, with the number of bytes that `send` or `sendfile`
accepts for each element as the kernel's choice.

* `transmitLoop_eq` — the loop offers the elements to the socket one after the other;
* `transmits_iff_resumes` — the socket receives the elements without a gap exactly if behind a
  call that accepts less than it is asked to a call fails, and what the calls between the two
  accept is what the first left out.
-/

/-! ### The function -/

def TP_ELEMENT_MEMORY : BitVec 32 := 1
def TP_ELEMENT_FILE : BitVec 32 := 2

/-- `TRANSMIT_PACKETS_ELEMENT`; the first word of the union is `nFileOffset.QuadPart` or
    `pBuffer`. -/
structure TransmitPacketsElement where
  dwElFlags : BitVec 32
  cLength : BitVec 32
  word : BitVec 64
  hFile : BitVec 64

namespace TransmitPacketsElement

def nFileOffset (e : TransmitPacketsElement) : Int := e.word.toInt
def pBuffer (e : TransmitPacketsElement) : Nat := e.word.toNat

/-- `(int)(intptr_t)hFile` -/
def fd (e : TransmitPacketsElement) : Fd := (e.hFile.setWidth 32).toInt

end TransmitPacketsElement

/-- The memory of the process, and the contents of its files. -/
structure Sources where
  mem : Memory
  file : Fd → List Byte

/-- What the kernel answers to the call for the `i`-th element: the number of bytes accepted, or
    a failure. -/
abbrev Sent := Nat → Option Nat

/-- `send` of the `len` bytes at `p`. -/
def send (sources : Sources) (p len : Nat) (answer : Option Nat) : Option (List Byte) :=
  answer.map (fun n => (sources.mem.loadBytes p len).take n)

/-- `sendfile` of `len` bytes from `offset` on. -/
def sendfile (sources : Sources) (fd : Fd) (offset : Int) (len : Nat) (answer : Option Nat) :
    Option (List Byte) :=
  answer.map (fun n => (((sources.file fd).drop offset.toNat).take len).take n)

/-- The loop, from the `i`-th element on; `wire` is what the socket has received. -/
def transmitLoop (sources : Sources) (sent : Sent) :
    List TransmitPacketsElement → Nat → List Byte → Bool × List Byte
  | [], _, wire => (true, wire)
  | e :: es, i, wire =>
    if e.dwElFlags &&& TP_ELEMENT_MEMORY ≠ 0 then
      match send sources e.pBuffer e.cLength.toNat (sent i) with
      | none => (false, wire)
      | some bytes => transmitLoop sources sent es (i + 1) (wire ++ bytes)
    else if e.dwElFlags &&& TP_ELEMENT_FILE ≠ 0 then
      match sendfile sources e.fd e.nFileOffset e.cLength.toNat (sent i) with
      | none => (false, wire)
      | some bytes => transmitLoop sources sent es (i + 1) (wire ++ bytes)
    else transmitLoop sources sent es (i + 1) wire

/-- What `TransmitPackets` leaves behind: its result, the last error, and the bytes that the
    socket has received. -/
structure Transmitted where
  ret : Bool
  lastError : Int
  wire : List Byte

/-- `nSendSize`, `lpOverlapped` and `dwFlags` are not used; `none` if the array is shorter than
    `nElementCount`. -/
def transmitPackets (sources : Sources) (sent : Sent)
    (lpPacketArray : Option (List TransmitPacketsElement)) (nElementCount : BitVec 32) :
    Option Transmitted :=
  match lpPacketArray with
  | none => some ⟨false, WSAEINVAL, []⟩
  | some es =>
    if nElementCount = 0 then some ⟨false, WSAEINVAL, []⟩
    else if es.length < nElementCount.toNat then none
    else
      match transmitLoop sources sent (es.take nElementCount.toNat) 0 [] with
      | (false, wire) => some ⟨false, WSAECONNRESET, wire⟩
      | (true, wire) => some ⟨true, 0, wire⟩

/-! ### The elements as pieces of a stream -/

variable {sources : Sources} {sent : Sent} {es : List TransmitPacketsElement}
  {e : TransmitPacketsElement}

/-- The element is for memory or for a file. -/
def TransmitPacketsElement.Flagged (e : TransmitPacketsElement) : Prop :=
  e.dwElFlags &&& TP_ELEMENT_MEMORY ≠ 0 ∨ e.dwElFlags &&& TP_ELEMENT_FILE ≠ 0

instance : DecidablePred TransmitPacketsElement.Flagged :=
  fun e => inferInstanceAs (Decidable (e.dwElFlags &&& TP_ELEMENT_MEMORY ≠ 0 ∨
    e.dwElFlags &&& TP_ELEMENT_FILE ≠ 0))

/-- The bytes of an element. -/
def Sources.bytes (sources : Sources) (e : TransmitPacketsElement) : List Byte :=
  if e.dwElFlags &&& TP_ELEMENT_MEMORY ≠ 0 then sources.mem.loadBytes e.pBuffer e.cLength.toNat
  else ((sources.file e.fd).drop e.nFileOffset.toNat).take e.cLength.toNat

/-- A file holds the bytes of its element. -/
def Sources.Holds (sources : Sources) (e : TransmitPacketsElement) : Prop :=
  e.dwElFlags &&& TP_ELEMENT_MEMORY = 0 →
    0 ≤ e.nFileOffset ∧ e.nFileOffset.toNat + e.cLength.toNat ≤ (sources.file e.fd).length

instance : DecidablePred sources.Holds :=
  fun e => inferInstanceAs (Decidable (e.dwElFlags &&& TP_ELEMENT_MEMORY = 0 →
    0 ≤ e.nFileOffset ∧ e.nFileOffset.toNat + e.cLength.toNat ≤ (sources.file e.fd).length))

theorem length_bytes (h : sources.Holds e) : (sources.bytes e).length = e.cLength.toNat := by
  unfold Sources.bytes
  split
  · exact length_loadBytes
  · rename_i hfile
    have hlen := (h (not_not.mp hfile)).2
    rw [List.length_take, List.length_drop]
    omega

/-- The offers that the loop makes, from the `i`-th element on. -/
def offers (sources : Sources) (sent : Sent) :
    List TransmitPacketsElement → Nat → List (Offer Byte)
  | [], _ => []
  | e :: es, i => ⟨sources.bytes e, sent i⟩ :: offers sources sent es (i + 1)

/-- One element: its bytes are offered, whichever kind they are. -/
theorem transmitLoop_cons (h : e.Flagged) (es : List TransmitPacketsElement) (i : Nat)
    (wire : List Byte) :
    transmitLoop sources sent (e :: es) i wire =
      match sent i with
      | none => (false, wire)
      | some n => transmitLoop sources sent es (i + 1) (wire ++ (sources.bytes e).take n) := by
  simp only [transmitLoop, Sources.bytes]
  by_cases hmem : e.dwElFlags &&& TP_ELEMENT_MEMORY ≠ 0
  · rw [if_pos hmem, if_pos hmem]
    cases sent i <;> rfl
  · have hfile := h.resolve_left hmem
    rw [if_neg hmem, if_neg hmem, if_pos hfile]
    cases sent i <;> rfl

/-- **The loop** offers the elements to the socket one after the other. -/
theorem transmitLoop_eq (h : ∀ e ∈ es, e.Flagged) (i : Nat) (wire : List Byte) :
    transmitLoop sources sent es i wire =
      (succeeded (offers sources sent es i), wire ++ delivered (offers sources sent es i)) := by
  induction es generalizing i wire with
  | nil => simp [transmitLoop, offers, succeeded, delivered]
  | cons e es ih =>
    have ih := ih (fun e' hmem => h e' (List.mem_cons_of_mem _ hmem))
    rw [transmitLoop_cons (h e List.mem_cons_self)]
    cases hsent : sent i with
    | none => simp [offers, hsent, succeeded, delivered]
    | some n => simp [offers, hsent, succeeded, delivered, ih]

/-- The whole stream is the elements' bytes in order. -/
theorem whole_offers (es : List TransmitPacketsElement) (i : Nat) :
    whole (offers sources sent es i) = es.flatMap sources.bytes := by
  induction es generalizing i with
  | nil => rfl
  | cons e es ih =>
    rw [offers, whole_cons, ih, List.flatMap_cons]

/-- The kernel accepts no more than it is asked to, and something if it is asked for anything. -/
def Answered (sent : Sent) (es : List TransmitPacketsElement) : Prop :=
  ∀ i e, es[i]? = some e → ∀ n, sent i = some n →
    n ≤ e.cLength.toNat ∧ (0 < e.cLength.toNat → 0 < n)

theorem answer_le_of_answered (h : Answered sent es) (hholds : ∀ e ∈ es, sources.Holds e) :
    ∀ o ∈ offers sources sent es 0, ∀ n, o.answer = some n → n ≤ o.data.length := by
  -- the elements from the `k`-th on
  have hall : ∀ (es' : List TransmitPacketsElement) k, (∀ i, es'[i]? = es[k + i]?) →
      ∀ o ∈ offers sources sent es' k, ∀ n, o.answer = some n → n ≤ o.data.length := by
    intro es'
    induction es' with
    | nil => intro k _ o ho; cases ho
    | cons e es' ih =>
      intro k hget o ho n hn
      rcases List.mem_cons.mp ho with rfl | ho
      · have hk : es[k]? = some e := (hget 0).symm
        rw [length_bytes (hholds e (List.mem_of_getElem? hk))]
        exact (h k e hk n hn).1
      · refine ih (k + 1) (fun i => ?_) o ho n hn
        have hi := hget (i + 1)
        rw [List.getElem?_cons_succ] at hi
        rw [hi]
        congr 1
        omega
  refine hall es 0 (fun i => ?_)
  rw [Nat.zero_add]

/-! ### The stream on the socket -/

/-- If the call returns TRUE, the socket has received the bytes of all elements in order, and
    otherwise a prefix of them. -/
def Transmits (sources : Sources) (sent : Sent) (lpPacketArray : List TransmitPacketsElement)
    (nElementCount : BitVec 32) : Prop :=
  ∃ o, transmitPackets sources sent (some lpPacketArray) nElementCount = some o ∧
    (o.ret = true → o.wire = (lpPacketArray.take nElementCount.toNat).flatMap sources.bytes) ∧
    (o.ret = false → o.wire <+: (lpPacketArray.take nElementCount.toNat).flatMap sources.bytes)

/-- The call does what its loop does. -/
theorem transmits_iff_delivers {lpPacketArray : List TransmitPacketsElement}
    {nElementCount : BitVec 32} (hcount : nElementCount.toNat ≤ lpPacketArray.length)
    (hflag : ∀ e ∈ lpPacketArray.take nElementCount.toNat, e.Flagged) :
    Transmits sources sent lpPacketArray nElementCount ↔
      Delivers (offers sources sent (lpPacketArray.take nElementCount.toNat) 0) := by
  unfold Transmits transmitPackets
  by_cases hzero : nElementCount = 0
  · -- there is nothing to transmit, and nothing has been
    subst hzero
    refine iff_of_true ⟨_, rfl, fun hret => ?_, fun _ => List.nil_prefix⟩ ⟨fun _ => rfl, ?_⟩
    · cases hret
    · intro hfail
      cases hfail
  · have hlen : ¬ lpPacketArray.length < nElementCount.toNat := by omega
    simp only [if_neg hzero, if_neg hlen, transmitLoop_eq hflag, List.nil_append, Delivers,
      whole_offers]
    cases succeeded (offers sources sent (lpPacketArray.take nElementCount.toNat) 0) with
    | true => simp
    | false => simp

/-- **The stream** on the socket has no gap exactly if behind a call that accepts less than it is
    asked to a call fails, and what the calls between the two accept is what the first left
    out. -/
theorem transmits_iff_resumes {lpPacketArray : List TransmitPacketsElement}
    {nElementCount : BitVec 32} (hcount : nElementCount.toNat ≤ lpPacketArray.length)
    (hflag : ∀ e ∈ lpPacketArray.take nElementCount.toNat, e.Flagged)
    (hholds : ∀ e ∈ lpPacketArray.take nElementCount.toNat, sources.Holds e)
    (hsent : Answered sent (lpPacketArray.take nElementCount.toNat)) :
    Transmits sources sent lpPacketArray nElementCount ↔
      Resumes (offers sources sent (lpPacketArray.take nElementCount.toNat) 0) := by
  rw [transmits_iff_delivers hcount hflag]
  exact delivers_iff_resumes (answer_le_of_answered hsent hholds)

/-- The bytes 0, 1, 2, … in memory and in every file. -/
def countingSources : Sources := ⟨fun i => BitVec.ofNat 8 i, fun _ => [0, 1, 2, 3, 4, 5]⟩

/-- Two bytes of memory, and three of a file, for which the call fails. -/
theorem transmits_until_failure :
    Transmits countingSources (fun i => if i = 0 then some 2 else none)
      [⟨TP_ELEMENT_MEMORY, 2, 8, 0⟩, ⟨TP_ELEMENT_FILE, 3, 1, 7⟩] 2 := by
  refine (transmits_iff_resumes (by decide) (by decide) (by decide) ?_).mpr ?_
  · intro i e he n hn
    by_cases hi : i = 0
    · subst hi
      obtain rfl := Option.some.inj he
      obtain rfl := Option.some.inj hn
      exact ⟨by decide, by decide⟩
    · have hfail : none = some n := (if_neg hi).symm.trans hn
      cases hfail
  · exact (resumes_cons_full rfl _).mpr (resumes_cons_none rfl _)

/-- Two elements of two bytes: the first call accepts one byte, the second both; the call returns
    TRUE, and the second byte of the first element is not on the socket. -/
theorem not_transmits_short_send :
    ¬ Transmits countingSources (fun i => some (i + 1))
      [⟨TP_ELEMENT_MEMORY, 2, 8, 0⟩, ⟨TP_ELEMENT_MEMORY, 2, 16, 0⟩] 2 := by
  rintro ⟨o, ho, hsuccess, -⟩
  obtain rfl := Option.some.inj ho
  exact absurd (hsuccess rfl) (by decide)

end LinuxWinsock.Ext
