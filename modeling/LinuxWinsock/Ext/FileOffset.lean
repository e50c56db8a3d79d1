import LinuxWinsock.Ext.TransmitPackets
import LinuxWinsock.Lib.Layout

namespace LinuxWinsock.Ext

open Memory Layout

/-!
# The offset of a file element

`LARGE_INTEGER` of `windows_types.h` and `TRANSMIT_PACKETS_ELEMENT` of `mswsock.h` as they lie in
memory, where `long` has eight bytes and the low byte of a word comes first.

* `elementAt` — what `TransmitPackets` reads of an element;
* `elementAt_storedParts` — what the members `LowPart` and `HighPart` change of it;
* `fileOffset_kept_iff` — when the two give the offset that is passed to `sendfile`.
-/

/-! ### The layout -/

theorem eight_bytes_pos : 0 < 8 := by decide

/-- A member aligned to eight bytes: `long`, a pointer, or what has one of these in it. -/
def longAligned {ι : Type} (name : ι) (size : Nat) : Member ι := ⟨name, size, 8, eight_bytes_pos⟩

/-- A member of the type `DWORD`. -/
def dwordMember {ι : Type} (name : ι) : Member ι := ⟨name, 4, 4, by decide⟩

/-- The members of the structs in `LARGE_INTEGER`. -/
inductive LargeIntegerMember where
  | lowPart
  | highPart
  deriving DecidableEq

/-- `DWORD LowPart` and `LONG HighPart`; `LONG` is `long`. -/
def largeIntegerStruct : List (Member LargeIntegerMember) :=
  [dwordMember .lowPart, longAligned .highPart 8]

/-- The members of the union `LARGE_INTEGER`. -/
inductive LargeIntegerUnionMember where
  | parts
  | u
  | quadPart

def largeInteger : List (Member LargeIntegerUnionMember) :=
  [longAligned .parts (sizeof largeIntegerStruct), longAligned .u (sizeof largeIntegerStruct),
    longAligned .quadPart 8]

/-- The members of the struct in the union of `TRANSMIT_PACKETS_ELEMENT`. -/
inductive FileMember where
  | nFileOffset
  | hFile
  deriving DecidableEq

def fileStruct : List (Member FileMember) :=
  [longAligned .nFileOffset (unionSize largeInteger), longAligned .hFile 8]

/-- The members of the union of `TRANSMIT_PACKETS_ELEMENT`. -/
inductive ElementUnionMember where
  | file
  | pBuffer

def elementUnion : List (Member ElementUnionMember) :=
  [longAligned .file (sizeof fileStruct), longAligned .pBuffer 8]

/-- The members of `TRANSMIT_PACKETS_ELEMENT`. -/
inductive ElementMember where
  | dwElFlags
  | cLength
  | source
  deriving DecidableEq

def transmitPacketsElement : List (Member ElementMember) :=
  [dwordMember .dwElFlags, dwordMember .cLength, longAligned .source (unionSize elementUnion)]

@[simp] theorem offsetof_lowPart : offsetof largeIntegerStruct .lowPart = 0 := rfl

/-- `HighPart` is not in the second half of `QuadPart`, but behind it. -/
@[simp] theorem offsetof_highPart : offsetof largeIntegerStruct .highPart = 8 := rfl

@[simp] theorem offsetof_nFileOffset : offsetof fileStruct .nFileOffset = 0 := rfl

@[simp] theorem offsetof_hFile : offsetof fileStruct .hFile = 16 := rfl

@[simp] theorem offsetof_dwElFlags : offsetof transmitPacketsElement .dwElFlags = 0 := rfl

@[simp] theorem offsetof_cLength : offsetof transmitPacketsElement .cLength = 4 := rfl

@[simp] theorem offsetof_source : offsetof transmitPacketsElement .source = 8 := rfl

/-! ### Elements in memory -/

/-- The `i`-th element of the array at `p`. -/
def elementAddress (p i : Nat) : Nat := p + sizeof transmitPacketsElement * i

/-- The address of `nFileOffset` in the element at `a`. -/
def nFileOffsetAddress (a : Nat) : Nat :=
  a + offsetof transmitPacketsElement .source + offsetof fileStruct .nFileOffset

/-- What `TransmitPackets` reads of the element at `a`: `QuadPart` and `pBuffer` have the same
    place. -/
def elementAt (m : Memory) (a : Nat) : TransmitPacketsElement where
  dwElFlags := m.load32 (a + offsetof transmitPacketsElement .dwElFlags)
  cLength := m.load32 (a + offsetof transmitPacketsElement .cLength)
  word := m.load64 (nFileOffsetAddress a)
  hFile := m.load64 (a + offsetof transmitPacketsElement .source + offsetof fileStruct .hFile)

/-- The elements of the array at `p`. -/
def elementsAt (m : Memory) (p n : Nat) : List TransmitPacketsElement :=
  (List.range n).map (fun i => elementAt m (elementAddress p i))

/-- `LowPart = v` for the `LARGE_INTEGER` at `o` -/
def storeLowPart (m : Memory) (o : Nat) (v : BitVec 32) : Memory :=
  m.store32 (o + offsetof largeIntegerStruct .lowPart) v

/-- `HighPart = v` for the `LARGE_INTEGER` at `o` -/
def storeHighPart (m : Memory) (o : Nat) (v : BitVec 64) : Memory :=
  m.store64 (o + offsetof largeIntegerStruct .highPart) v

@[simp] theorem length_elementsAt {m : Memory} {p n : Nat} : (elementsAt m p n).length = n := by
  simp [elementsAt]

theorem elementsAt_getElem? {m : Memory} {p n i : Nat} (h : i < n) :
    (elementsAt m p n)[i]? = some (elementAt m (elementAddress p i)) := by
  simp [elementsAt, h]

/-- The memory `m'` is `m` after a client has stored an offset in the element at `a` by its parts,
    in either order; the high part is a number of 32 bits, converted to `LONG`. -/
def StoredParts (m : Memory) (a : Nat) (low high : BitVec 32) (m' : Memory) : Prop :=
  m' = storeHighPart (storeLowPart m (nFileOffsetAddress a) low) (nFileOffsetAddress a)
      (high.signExtend 64) ∨
    m' = storeLowPart (storeHighPart m (nFileOffsetAddress a) (high.signExtend 64))
      (nFileOffsetAddress a) low

/-! ### What is passed to the kernel -/

/-- The call that `TransmitPackets` makes for an element. -/
inductive Transmission where
  | send (p len : Nat)
  | sendfile (fd : Fd) (offset : Int) (len : Nat)
  deriving DecidableEq

/-- The call for an element, if it makes one. -/
def TransmitPacketsElement.transmission (e : TransmitPacketsElement) : Option Transmission :=
  if e.dwElFlags &&& TP_ELEMENT_MEMORY ≠ 0 then some (.send e.pBuffer e.cLength.toNat)
  else if e.dwElFlags &&& TP_ELEMENT_FILE ≠ 0 then
    some (.sendfile e.fd e.nFileOffset e.cLength.toNat)
  else none

/-- What the kernel does for a call. -/
def Sources.transmit (sources : Sources) (answer : Option Nat) : Transmission → Option (List Byte)
  | .send p len => send sources p len answer
  | .sendfile fd offset len => sendfile sources fd offset len answer

/-- The loop makes the call of each element. -/
theorem transmitLoop_cons_transmission (sources : Sources) (sent : Sent)
    (e : TransmitPacketsElement) (es : List TransmitPacketsElement) (i : Nat) (wire : List Byte) :
    transmitLoop sources sent (e :: es) i wire =
      match e.transmission with
      | none => transmitLoop sources sent es (i + 1) wire
      | some t =>
        match sources.transmit (sent i) t with
        | none => (false, wire)
        | some bytes => transmitLoop sources sent es (i + 1) (wire ++ bytes) := by
  simp only [transmitLoop, TransmitPacketsElement.transmission]
  by_cases hmem : e.dwElFlags &&& TP_ELEMENT_MEMORY ≠ 0
  · rw [if_pos hmem, if_pos hmem]
    rfl
  · by_cases hfile : e.dwElFlags &&& TP_ELEMENT_FILE ≠ 0
    · rw [if_neg hmem, if_neg hmem, if_pos hfile, if_pos hfile]
      rfl
    · rw [if_neg hmem, if_neg hmem, if_neg hfile, if_neg hfile]

/-- The call is defined, and runs over the elements in memory. -/
theorem transmitPackets_elementsAt (sources : Sources) (sent : Sent) (p : Nat) {n : BitVec 32}
    (hn : n ≠ 0) :
    ∃ o, transmitPackets sources sent (some (elementsAt sources.mem p n.toNat)) n = some o ∧
      (o.ret, o.wire) = transmitLoop sources sent (elementsAt sources.mem p n.toNat) 0 [] := by
  have hlen : (elementsAt sources.mem p n.toNat).length = n.toNat := length_elementsAt
  simp only [transmitPackets, hn, hlen, lt_irrefl, if_false]
  rw [List.take_of_length_le hlen.le]
  cases transmitLoop sources sent (elementsAt sources.mem p n.toNat) 0 [] with
  | mk ret wire => cases ret <;> exact ⟨_, rfl, rfl⟩

/-- The element is for a file. -/
def TransmitPacketsElement.IsFile (e : TransmitPacketsElement) : Prop :=
  e.dwElFlags &&& TP_ELEMENT_MEMORY = 0 ∧ e.dwElFlags &&& TP_ELEMENT_FILE ≠ 0

instance : DecidablePred TransmitPacketsElement.IsFile :=
  fun e => inferInstanceAs (Decidable (e.dwElFlags &&& TP_ELEMENT_MEMORY = 0 ∧
    e.dwElFlags &&& TP_ELEMENT_FILE ≠ 0))

theorem transmission_of_isFile {e : TransmitPacketsElement} (h : e.IsFile) :
    e.transmission = some (.sendfile e.fd e.nFileOffset e.cLength.toNat) := by
  have hmem : ¬ e.dwElFlags &&& TP_ELEMENT_MEMORY ≠ 0 := not_not.mpr h.1
  rw [TransmitPacketsElement.transmission, if_neg hmem, if_pos h.2]

/-! ### The parts of an offset -/

variable {m m' : Memory} {a : Nat} {low high : BitVec 32}

/-- The order of the two stores is of no matter. -/
theorem storedParts_iff : StoredParts m a low high m' ↔
    m' = storeHighPart (storeLowPart m (nFileOffsetAddress a) low) (nFileOffsetAddress a)
      (high.signExtend 64) := by
  have hcomm : (m.storeBytes (nFileOffsetAddress a) (bytes32 low)).storeBytes
      (nFileOffsetAddress a + 8) (bytes64 (high.signExtend 64)) =
        (m.storeBytes (nFileOffsetAddress a + 8) (bytes64 (high.signExtend 64))).storeBytes
          (nFileOffsetAddress a) (bytes32 low) := storeBytes_comm m (by simp)
  unfold StoredParts storeLowPart storeHighPart store32 store64
  simp only [offsetof_lowPart, offsetof_highPart, add_zero, hcomm, or_self]

/-- The rest of the element is left alone. -/
theorem load_storedParts (h : StoredParts m a low high m') :
    m'.load32 a = m.load32 a ∧ m'.load32 (a + 4) = m.load32 (a + 4) ∧
      m'.load64 (a + 24) = m.load64 (a + 24) := by
  obtain rfl := storedParts_iff.mp h
  simp only [storeHighPart, storeLowPart, store32, store64, nFileOffsetAddress, offsetof_lowPart,
    offsetof_highPart, offsetof_source, offsetof_nFileOffset]
  refine ⟨?_, ?_, ?_⟩
  · rw [load32_storeBytes_of_disjoint (.inl (by omega)),
      load32_storeBytes_of_disjoint (.inl (by omega))]
  · rw [load32_storeBytes_of_disjoint (.inl (by omega)),
      load32_storeBytes_of_disjoint (.inl (by omega))]
  · rw [load64_storeBytes_of_disjoint (.inr (by simp)),
      load64_storeBytes_of_disjoint (.inr (by simp))]

/-- The offset has the low part, in front of what is in its second half. -/
theorem quadPart_storedParts (h : StoredParts m a low high m') :
    m'.load64 (nFileOffsetAddress a) = m.load32 (nFileOffsetAddress a + 4) ++ low := by
  obtain rfl := storedParts_iff.mp h
  -- the second half is behind the low part
  have hlow : (storeLowPart m (nFileOffsetAddress a) low).load32 (nFileOffsetAddress a) = low :=
    load32_store32 _ _ _
  have hhigh : (storeLowPart m (nFileOffsetAddress a) low).load32 (nFileOffsetAddress a + 4) =
      m.load32 (nFileOffsetAddress a + 4) := load32_storeBytes_of_disjoint (.inr (by simp))
  unfold storeHighPart store64
  rw [load64_storeBytes_of_disjoint (.inl (by simp)), load64, hlow, hhigh]

/-- **The parts.**  Of what `TransmitPackets` reads, the low part changes the low half of the
    offset, and the high part nothing. -/
theorem elementAt_storedParts (h : StoredParts m a low high m') :
    elementAt m' a = { elementAt m a with word := m.load32 (nFileOffsetAddress a + 4) ++ low } := by
  obtain ⟨hflags, hlength, hfile⟩ := load_storedParts h
  simp [elementAt, quadPart_storedParts h, hflags, hlength, hfile]

/-- Two halves are the offset of two parts exactly if the second half is the high part. -/
theorem toInt_append_eq_iff {x : BitVec 32} :
    (x ++ low).toInt = high.toInt * 2 ^ 32 + low.toNat ↔ x = high := by
  have happend : (x ++ low).toInt = 2 ^ 32 * x.toInt + low.toNat := by
    rw [BitVec.toInt_append]
    rfl
  rw [happend, ← BitVec.toInt_inj]
  omega

/-- The loop makes the call of the element at the place it has come to. -/
theorem transmitLoop_drop {es : List TransmitPacketsElement} {i : Nat} {t : Transmission}
    (h : es[i]?.bind TransmitPacketsElement.transmission = some t) (sources : Sources) (sent : Sent)
    (wire : List Byte) :
    transmitLoop sources sent (es.drop i) i wire =
      match sources.transmit (sent i) t with
      | none => (false, wire)
      | some bytes => transmitLoop sources sent (es.drop (i + 1)) (i + 1) (wire ++ bytes) := by
  obtain ⟨e, he, ht⟩ := Option.bind_eq_some_iff.mp h
  obtain ⟨hlt, rfl⟩ := List.getElem?_eq_some_iff.mp he
  rw [List.drop_eq_getElem_cons hlt, transmitLoop_cons_transmission, ht]

/-- **File offsets.**  After a client has stored an offset by its parts in a file element of an
    array, `TransmitPackets` passes their number to `sendfile` exactly if the four bytes behind
    the low part have held the high part before; and what the loop makes of the element is the
    call that is said to be passed. -/
theorem fileOffset_kept_iff (m m' : Memory) (p n i : Nat) (low high : BitVec 32) (hi : i < n)
    (hfile : (elementAt m (elementAddress p i)).IsFile)
    (hstored : StoredParts m (elementAddress p i) low high m') :
    ((elementsAt m' p n)[i]?.bind TransmitPacketsElement.transmission =
        some (.sendfile (elementAt m (elementAddress p i)).fd (high.toInt * 2 ^ 32 + low.toNat)
          (elementAt m (elementAddress p i)).cLength.toNat) ↔
      m.load32 (nFileOffsetAddress (elementAddress p i) + 4) = high) ∧
    ∀ t, (elementsAt m' p n)[i]?.bind TransmitPacketsElement.transmission = some t →
      ∀ sources sent wire,
        transmitLoop sources sent ((elementsAt m' p n).drop i) i wire =
          match sources.transmit (sent i) t with
          | none => (false, wire)
          | some bytes =>
            transmitLoop sources sent ((elementsAt m' p n).drop (i + 1)) (i + 1) (wire ++ bytes) := by
  have helement := elementAt_storedParts hstored
  have hfile' : (elementAt m' (elementAddress p i)).IsFile := by
    rw [helement]
    exact hfile
  refine ⟨?_, fun t ht => transmitLoop_drop ht⟩
  rw [elementsAt_getElem? hi, Option.bind_some, transmission_of_isFile hfile', helement]
  simp only [Option.some.injEq, Transmission.sendfile.injEq, TransmitPacketsElement.fd, true_and,
    and_true]
  exact toInt_append_eq_iff

/-- Zeroed memory with the flag of a file in the element at 0. -/
def zeroedFileElement : Memory := Memory.store32 (fun _ => 0) 0 TP_ELEMENT_FILE

/-- The same with a 1 behind the low part of the offset. -/
def markedFileElement : Memory := zeroedFileElement.store32 12 1

/-- The high part 1 is kept where that is in memory already. -/
theorem fileOffset_kept_marked :
    (elementsAt (storeHighPart (storeLowPart markedFileElement 8 4096) 8
        ((1 : BitVec 32).signExtend 64)) 0 1)[0]?.bind TransmitPacketsElement.transmission =
      some (.sendfile 0 4294971392 0) :=
  (fileOffset_kept_iff markedFileElement _ 0 1 0 4096 1 (by decide) (by decide)
    (.inl rfl)).1.mpr (by decide)

/-- An offset of 4 GiB becomes 0 in zeroed memory. -/
theorem fileOffset_lost : ¬ ∀ (m m' : Memory) (low high : BitVec 32), (elementAt m 0).IsFile →
    StoredParts m 0 low high m' →
    (elementsAt m' 0 1)[0]?.bind TransmitPacketsElement.transmission =
      some (.sendfile (elementAt m 0).fd (high.toInt * 2 ^ 32 + low.toNat)
        (elementAt m 0).cLength.toNat) := by
  intro h
  have hkept := h zeroedFileElement _ 0 1 (by decide) (.inl rfl)
  exact absurd hkept (by decide)

end LinuxWinsock.Ext
