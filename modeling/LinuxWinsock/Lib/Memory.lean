import Mathlib.Data.BitVec

/-!
# Byte memory and byte order

A block of memory as a function from offsets to bytes, with what C code does to it on a
little-endian machine.

* `loadBytes_storeBytes`, `loadBytes_storeBytes_of_disjoint` — what was stored is read back,
  and a store elsewhere is not read;
* `load16_store16`, `load16_storeBytes_of_disjoint` — the same for 16-bit words, and so on for
  longer ones;
* `htons_ntohs`, `htonl_ntohl` — a word put in host order and back is the same.
-/

abbrev Byte := BitVec 8

/-- A block of memory, from its start on. -/
abbrev Memory := Nat → Byte

namespace Memory

/-- The `n` bytes at `o`. -/
def loadBytes (m : Memory) (o n : Nat) : List Byte := (List.range n).map (fun i => m (o + i))

/-- The block with `bs` stored at `o`. -/
def storeBytes (m : Memory) (o : Nat) (bs : List Byte) : Memory :=
  fun i => if i < o then m i else bs.getD (i - o) (m i)

/-- The 16-bit word at `o`, its low byte first. -/
def load16 (m : Memory) (o : Nat) : BitVec 16 := m (o + 1) ++ m o

/-- The bytes of a 16-bit word, its low byte first. -/
def bytes16 (v : BitVec 16) : List Byte := [v.extractLsb' 0 8, v.extractLsb' 8 8]

/-- The 32-bit word at `o`, its low half first. -/
def load32 (m : Memory) (o : Nat) : BitVec 32 := m.load16 (o + 2) ++ m.load16 o

/-- The 64-bit word at `o`, its low half first. -/
def load64 (m : Memory) (o : Nat) : BitVec 64 := m.load32 (o + 4) ++ m.load32 o

/-- The bytes of a 32-bit word, its low half first. -/
def bytes32 (v : BitVec 32) : List Byte :=
  bytes16 (v.extractLsb' 0 16) ++ bytes16 (v.extractLsb' 16 16)

/-- The bytes of a 64-bit word, its low byte first. -/
def bytes64 (v : BitVec 64) : List Byte := (List.range 8).map (fun i => v.extractLsb' (8 * i) 8)

/-- The block with the word `v` stored at `o`. -/
def store16 (m : Memory) (o : Nat) (v : BitVec 16) : Memory := m.storeBytes o (bytes16 v)

/-- The same for a word of 32 bits. -/
def store32 (m : Memory) (o : Nat) (v : BitVec 32) : Memory := m.storeBytes o (bytes32 v)

/-- The same for a word of 64 bits. -/
def store64 (m : Memory) (o : Nat) (v : BitVec 64) : Memory := m.storeBytes o (bytes64 v)

variable {m : Memory} {o o' n : Nat} {bs : List Byte}

@[simp] theorem length_loadBytes : (m.loadBytes o n).length = n := by
  simp [loadBytes]

@[simp] theorem length_bytes16 (v : BitVec 16) : (bytes16 v).length = 2 := rfl

@[simp] theorem length_bytes32 (v : BitVec 32) : (bytes32 v).length = 4 := rfl

@[simp] theorem length_bytes64 (v : BitVec 64) : (bytes64 v).length = 8 := rfl

theorem storeBytes_of_lt {i : Nat} (h : i < o) : m.storeBytes o bs i = m i := if_pos h

theorem storeBytes_of_le {i : Nat} (h : o + bs.length ≤ i) : m.storeBytes o bs i = m i := by
  have ho : ¬ i < o := by omega
  have hlen : bs.length ≤ i - o := by omega
  simp [storeBytes, ho, List.getD_eq_getElem?_getD, List.getElem?_eq_none hlen]

theorem storeBytes_add {i : Nat} (h : i < bs.length) : m.storeBytes o bs (o + i) = bs[i] := by
  have ho : ¬ o + i < o := by omega
  simp [storeBytes, ho, List.getD_eq_getElem?_getD, h]

/-- Two runs are stored one behind the other. -/
theorem storeBytes_append (m : Memory) (o : Nat) (bs cs : List Byte) :
    m.storeBytes o (bs ++ cs) = (m.storeBytes o bs).storeBytes (o + bs.length) cs := by
  have hlen : (bs ++ cs).length = bs.length + cs.length := List.length_append
  ext1 i
  by_cases hlt : i < o + bs.length
  · rw [storeBytes_of_lt hlt]
    by_cases ho : i < o
    · rw [storeBytes_of_lt ho, storeBytes_of_lt ho]
    · obtain ⟨j, rfl⟩ := Nat.exists_eq_add_of_le (not_lt.mp ho)
      have hj : j < bs.length := by omega
      rw [storeBytes_add hj, storeBytes_add (by omega), List.getElem_append_left hj]
  · obtain ⟨j, rfl⟩ := Nat.exists_eq_add_of_le (not_lt.mp hlt)
    by_cases hj : j < cs.length
    · rw [storeBytes_add hj, add_assoc, storeBytes_add (by omega)]
      simp
    · have hend : o + (bs ++ cs).length ≤ o + bs.length + j := by omega
      rw [storeBytes_of_le hend, storeBytes_of_le (by omega), storeBytes_of_le (by omega)]

/-- The later of two stores at one place counts. -/
theorem storeBytes_storeBytes (m : Memory) (o : Nat) {cs : List Byte}
    (h : bs.length = cs.length) : (m.storeBytes o bs).storeBytes o cs = m.storeBytes o cs := by
  ext1 i
  by_cases ho : i < o
  · rw [storeBytes_of_lt ho, storeBytes_of_lt ho, storeBytes_of_lt ho]
  · obtain ⟨j, rfl⟩ := Nat.exists_eq_add_of_le (not_lt.mp ho)
    by_cases hj : j < cs.length
    · rw [storeBytes_add hj, storeBytes_add hj]
    · rw [storeBytes_of_le (by omega), storeBytes_of_le (by omega), storeBytes_of_le (by omega)]

/-- Stores at different places can be exchanged. -/
theorem storeBytes_comm (m : Memory) {cs : List Byte} (h : o + bs.length ≤ o') :
    (m.storeBytes o bs).storeBytes o' cs = (m.storeBytes o' cs).storeBytes o bs := by
  ext1 i
  by_cases hlt : i < o'
  · rw [storeBytes_of_lt hlt]
    simp only [storeBytes, hlt, if_true]
  · have hbehind : (m.storeBytes o' cs).storeBytes o bs i = m.storeBytes o' cs i :=
      storeBytes_of_le (by omega)
    rw [hbehind]
    simp only [storeBytes, hlt, if_false]
    congr 1
    exact storeBytes_of_le (by omega)

/-- A store into a run replaces its bytes there. -/
theorem storeBytes_overwrite (m : Memory) (o : Nat) (front : List Byte) {bs cs : List Byte}
    (h : bs.length = cs.length) (back : List Byte) :
    (m.storeBytes o (front ++ (bs ++ back))).storeBytes (o + front.length) cs =
      m.storeBytes o (front ++ (cs ++ back)) := by
  rw [storeBytes_append, storeBytes_append, storeBytes_append, storeBytes_append, ← h,
    ← storeBytes_comm _ (by omega : o + front.length + cs.length ≤ o + front.length + bs.length),
    storeBytes_storeBytes _ _ h]

/-- What was stored is read back. -/
theorem loadBytes_storeBytes (m : Memory) (o : Nat) (bs : List Byte) :
    (m.storeBytes o bs).loadBytes o bs.length = bs := by
  apply List.ext_getElem
  · simp
  · intro i _ hi
    simp [loadBytes, storeBytes_add hi]

/-- The first bytes of what was stored are read back. -/
theorem loadBytes_storeBytes_take (m : Memory) (o : Nat) (h : n ≤ bs.length) :
    (m.storeBytes o bs).loadBytes o n = bs.take n := by
  apply List.ext_getElem
  · simp [h]
  · intro i hi _
    have hlt : i < bs.length := by
      rw [length_loadBytes] at hi
      omega
    simp [loadBytes, storeBytes_add hlt]

/-- A store elsewhere is not read. -/
theorem loadBytes_storeBytes_of_disjoint (h : o' + n ≤ o ∨ o + bs.length ≤ o') :
    (m.storeBytes o bs).loadBytes o' n = m.loadBytes o' n := by
  apply List.map_congr_left
  intro i hi
  have hlt : i < n := List.mem_range.mp hi
  rcases h with h | h
  · exact storeBytes_of_lt (by omega)
  · exact storeBytes_of_le (by omega)

/-- Two runs of bytes are the same if they are so byte by byte. -/
theorem loadBytes_eq_iff {m' : Memory} :
    m.loadBytes o n = m'.loadBytes o' n ↔ ∀ i < n, m (o + i) = m' (o' + i) := by
  simp only [loadBytes, List.map_inj_left, List.mem_range]

/-- A byte of a run that was loaded. -/
theorem byte_of_loadBytes (h : m.loadBytes o n = bs) {i : Nat} (hi : i < n) :
    m (o + i) = bs.getD i 0 := by
  subst h
  simp [loadBytes, List.getD_eq_getElem?_getD, hi]

/-- `memcpy` from an object with the bytes `src`; `none` if it would read behind the object. -/
def memcpy (m : Memory) (o : Nat) (src : List Byte) (n : Nat) : Option Memory :=
  if n ≤ src.length then some (m.storeBytes o (src.take n)) else none

theorem memcpy_eq_some {src : List Byte} {m' : Memory} :
    m.memcpy o src n = some m' ↔ n ≤ src.length ∧ m' = m.storeBytes o (src.take n) := by
  unfold memcpy
  by_cases h : n ≤ src.length
  · simp [h, eq_comm]
  · simp [h]

theorem load16_storeBytes_of_disjoint (h : o' + 2 ≤ o ∨ o + bs.length ≤ o') :
    (m.storeBytes o bs).load16 o' = m.load16 o' := by
  have hbyte : ∀ i, o' ≤ i → i ≤ o' + 1 → m.storeBytes o bs i = m i := by
    intro i hlo hhi
    rcases h with h | h
    · exact storeBytes_of_lt (by omega)
    · exact storeBytes_of_le (by omega)
  unfold load16
  rw [hbyte o' (by omega) (by omega), hbyte (o' + 1) (by omega) (by omega)]

/-- A word that was stored is read back. -/
@[simp] theorem load16_store16 (m : Memory) (o : Nat) (v : BitVec 16) :
    (m.store16 o v).load16 o = v := by
  have hlow : m.store16 o v o = v.extractLsb' 0 8 := storeBytes_add (i := 0) (by simp)
  have hhigh : m.store16 o v (o + 1) = v.extractLsb' 8 8 := storeBytes_add (i := 1) (by simp)
  unfold load16
  rw [hlow, hhigh]
  exact BitVec.extractLsb'_append_extractLsb'

theorem load32_storeBytes_of_disjoint (h : o' + 4 ≤ o ∨ o + bs.length ≤ o') :
    (m.storeBytes o bs).load32 o' = m.load32 o' := by
  unfold load32
  rw [load16_storeBytes_of_disjoint (by omega), load16_storeBytes_of_disjoint (by omega)]

theorem load64_storeBytes_of_disjoint (h : o' + 8 ≤ o ∨ o + bs.length ≤ o') :
    (m.storeBytes o bs).load64 o' = m.load64 o' := by
  unfold load64
  rw [load32_storeBytes_of_disjoint (by omega), load32_storeBytes_of_disjoint (by omega)]

@[simp] theorem load32_store32 (m : Memory) (o : Nat) (v : BitVec 32) :
    (m.store32 o v).load32 o = v := by
  have hstore : m.store32 o v =
      (m.store16 o (v.extractLsb' 0 16)).store16 (o + 2) (v.extractLsb' 16 16) :=
    storeBytes_append m o _ _
  have hlow : (m.store32 o v).load16 o = v.extractLsb' 0 16 := by
    rw [hstore, store16, load16_storeBytes_of_disjoint (.inl (le_refl _)), load16_store16]
  have hhigh : (m.store32 o v).load16 (o + 2) = v.extractLsb' 16 16 := by
    rw [hstore, load16_store16]
  unfold load32
  rw [hlow, hhigh]
  exact BitVec.extractLsb'_append_extractLsb'

theorem bytes16_load16 (m : Memory) (o : Nat) : bytes16 (m.load16 o) = [m o, m (o + 1)] := by
  have hlow : (m.load16 o).extractLsb' 0 8 = m o := BitVec.extractLsb'_append_eq_right
  have hhigh : (m.load16 o).extractLsb' 8 8 = m (o + 1) := BitVec.extractLsb'_append_eq_left
  rw [bytes16, hlow, hhigh]

theorem bytes32_load32 (m : Memory) (o : Nat) : bytes32 (m.load32 o) = m.loadBytes o 4 := by
  have hlow : (m.load32 o).extractLsb' 0 16 = m.load16 o := BitVec.extractLsb'_append_eq_right
  have hhigh : (m.load32 o).extractLsb' 16 16 = m.load16 (o + 2) :=
    BitVec.extractLsb'_append_eq_left
  rw [bytes32, hlow, hhigh, bytes16_load16, bytes16_load16]
  rfl

/-- To store what is there changes nothing. -/
theorem storeBytes_loadBytes (m : Memory) (o n : Nat) : m.storeBytes o (m.loadBytes o n) = m := by
  ext1 i
  by_cases ho : i < o
  · exact storeBytes_of_lt ho
  · obtain ⟨j, rfl⟩ := Nat.exists_eq_add_of_le (not_lt.mp ho)
    by_cases hj : j < (m.loadBytes o n).length
    · rw [storeBytes_add hj]
      simp [loadBytes]
    · exact storeBytes_of_le (by omega)

/-- A store changes nothing exactly if the bytes are there already. -/
theorem storeBytes_eq_self_iff : m.storeBytes o bs = m ↔ m.loadBytes o bs.length = bs := by
  constructor
  · intro h
    rw [← h, loadBytes_storeBytes]
  · intro h
    have hsame := storeBytes_loadBytes m o bs.length
    rwa [h] at hsame

/-- The same for a word. -/
theorem store32_eq_self_iff {v : BitVec 32} : m.store32 o v = m ↔ m.load32 o = v := by
  constructor
  · intro h
    rw [← load32_store32 m o v, h]
  · rintro rfl
    rw [store32, storeBytes_eq_self_iff, bytes32_load32, length_loadBytes]

/-- A word is determined by its bytes. -/
theorem bytes16_inj {v w : BitVec 16} : bytes16 v = bytes16 w ↔ v = w := by
  refine ⟨fun h => ?_, fun h => by rw [h]⟩
  have hstored := load16_store16 (fun _ => 0) 0 v
  rw [store16, h] at hstored
  exact hstored.symm.trans (load16_store16 (fun _ => 0) 0 w)

end Memory

/-! ### Network byte order -/

/-- The bytes of a word exchanged. -/
def swap16 (v : BitVec 16) : BitVec 16 := v.extractLsb' 0 8 ++ v.extractLsb' 8 8

def htons (v : BitVec 16) : BitVec 16 := swap16 v
def ntohs (v : BitVec 16) : BitVec 16 := swap16 v

theorem swap16_swap16 (v : BitVec 16) : swap16 (swap16 v) = v := by
  have hlow : (swap16 v).extractLsb' 0 8 = v.extractLsb' 8 8 := BitVec.extractLsb'_append_eq_right
  have hhigh : (swap16 v).extractLsb' 8 8 = v.extractLsb' 0 8 := BitVec.extractLsb'_append_eq_left
  calc swap16 (swap16 v)
      = (swap16 v).extractLsb' 0 8 ++ (swap16 v).extractLsb' 8 8 := rfl
    _ = v.extractLsb' 8 8 ++ v.extractLsb' 0 8 := by rw [hlow, hhigh]
    _ = v := BitVec.extractLsb'_append_extractLsb'

@[simp] theorem htons_ntohs (v : BitVec 16) : htons (ntohs v) = v := swap16_swap16 v

@[simp] theorem ntohs_htons (v : BitVec 16) : ntohs (htons v) = v := swap16_swap16 v

/-- The bytes of a word of 32 bits in the other order. -/
def swap32 (v : BitVec 32) : BitVec 32 :=
  swap16 (v.extractLsb' 0 16) ++ swap16 (v.extractLsb' 16 16)

def htonl (v : BitVec 32) : BitVec 32 := swap32 v
def ntohl (v : BitVec 32) : BitVec 32 := swap32 v

theorem swap32_swap32 (v : BitVec 32) : swap32 (swap32 v) = v := by
  have hlow : (swap32 v).extractLsb' 0 16 = swap16 (v.extractLsb' 16 16) :=
    BitVec.extractLsb'_append_eq_right
  have hhigh : (swap32 v).extractLsb' 16 16 = swap16 (v.extractLsb' 0 16) :=
    BitVec.extractLsb'_append_eq_left
  calc swap32 (swap32 v)
      = swap16 ((swap32 v).extractLsb' 0 16) ++ swap16 ((swap32 v).extractLsb' 16 16) := rfl
    _ = v.extractLsb' 16 16 ++ v.extractLsb' 0 16 := by
      rw [hlow, hhigh, swap16_swap16, swap16_swap16]
    _ = v := BitVec.extractLsb'_append_extractLsb'

@[simp] theorem htonl_ntohl (v : BitVec 32) : htonl (ntohl v) = v := swap32_swap32 v

@[simp] theorem ntohl_htonl (v : BitVec 32) : ntohl (htonl v) = v := swap32_swap32 v
