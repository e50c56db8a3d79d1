import LinuxWinsock.Msg.Paths

namespace LinuxWinsock.Msg

/-!
# Bytes that are scattered and gathered

* `room` — what an array of buffers holds;
* `Covers`, `Apart` — the addresses of a buffer, and buffers that share none;
* `prefix_gather_scatter` — bytes that are put into buffers that share no address are read back
  in their order.
-/

/-- How many bytes the buffers hold. -/
def room (iov : List Iovec) : Nat := (iov.map (fun v => v.iov_len.toNat)).sum

@[simp] theorem room_nil : room [] = 0 := rfl

@[simp] theorem room_cons (v : Iovec) (iov : List Iovec) :
    room (v :: iov) = v.iov_len.toNat + room iov := by
  simp [room]

/-- The bytes of one buffer. -/
def Iovec.bytes (memory : BitVec 64 → Byte) (v : Iovec) : List Byte :=
  (List.range v.iov_len.toNat).map (fun i => memory (v.iov_base + BitVec.ofNat 64 i))

@[simp] theorem Iovec.length_bytes (memory : BitVec 64 → Byte) (v : Iovec) :
    (v.bytes memory).length = v.iov_len.toNat := by
  simp [Iovec.bytes]

@[simp] theorem gather_nil (memory : BitVec 64 → Byte) : gather memory [] = [] := rfl

@[simp] theorem gather_cons (memory : BitVec 64 → Byte) (v : Iovec) (iov : List Iovec) :
    gather memory (v :: iov) = v.bytes memory ++ gather memory iov := by
  simp [gather, Iovec.bytes, ← List.map_eq_flatMap, Function.comp_def]

@[simp] theorem length_gather (memory : BitVec 64 → Byte) (iov : List Iovec) :
    (gather memory iov).length = room iov := by
  induction iov with
  | nil => rfl
  | cons v iov ih => simp [ih]

/-- The address is one of the buffer's. -/
def Iovec.Covers (v : Iovec) (i : BitVec 64) : Prop := (i - v.iov_base).toNat < v.iov_len.toNat

theorem Iovec.toNat_offset (v : Iovec) {k : Nat} (h : k < v.iov_len.toNat) :
    (v.iov_base + BitVec.ofNat 64 k - v.iov_base).toNat = k := by
  have hlt : v.iov_len.toNat < 2 ^ 64 := v.iov_len.isLt
  have hcancel : v.iov_base + BitVec.ofNat 64 k - v.iov_base = BitVec.ofNat 64 k := by grind
  rw [hcancel, BitVec.toNat_ofNat]
  omega

theorem Iovec.covers_offset (v : Iovec) {k : Nat} (h : k < v.iov_len.toNat) :
    v.Covers (v.iov_base + BitVec.ofNat 64 k) := by
  show (v.iov_base + BitVec.ofNat 64 k - v.iov_base).toNat < v.iov_len.toNat
  rwa [v.toNat_offset h]

/-- No two buffers of the array share an address. -/
def Apart (iov : List Iovec) : Prop :=
  iov.Pairwise (fun v v' => ∀ i, v.Covers i → ¬ v'.Covers i)

/-- Other addresses keep their bytes. -/
theorem scatter_of_not_covers {iov : List Iovec} {i : BitVec 64} (h : ∀ v ∈ iov, ¬ v.Covers i)
    (memory : BitVec 64 → Byte) (bs : List Byte) : scatter memory iov bs i = memory i := by
  induction iov generalizing memory bs with
  | nil => rfl
  | cons v iov ih =>
    have hv : ¬ (i - v.iov_base).toNat < v.iov_len.toNat := h v List.mem_cons_self
    have hget : (bs.take v.iov_len.toNat)[(i - v.iov_base).toNat]? = none := by
      rw [List.getElem?_eq_none]
      rw [List.length_take]
      omega
    show scatter _ iov _ i = memory i
    rw [ih (fun v' hv' => h v' (List.mem_cons_of_mem v hv')), hget, Option.getD_none]

/-- The first buffer has the first bytes, as many as it holds. -/
theorem bytes_scatter_cons {v : Iovec} {iov : List Iovec} (h : Apart (v :: iov))
    (memory : BitVec 64 → Byte) (bs : List Byte) :
    bs.take v.iov_len.toNat <+: v.bytes (scatter memory (v :: iov) bs) := by
  have hapart := (List.pairwise_cons.mp h).1
  rw [List.prefix_iff_getElem?]
  intro k hk
  have hlen : k < v.iov_len.toNat := by
    rw [List.length_take] at hk
    omega
  -- the other buffers leave this address alone
  have hothers : ∀ v' ∈ iov, ¬ v'.Covers (v.iov_base + BitVec.ofNat 64 k) :=
    fun v' hv' => hapart v' hv' _ (v.covers_offset hlen)
  have hbyte : scatter memory (v :: iov) bs (v.iov_base + BitVec.ofNat 64 k) =
      (bs.take v.iov_len.toNat)[k] := by
    show scatter _ iov _ _ = _
    rw [scatter_of_not_covers hothers, v.toNat_offset hlen, List.getElem?_eq_getElem hk,
      Option.getD_some]
  simp only [Iovec.bytes, List.getElem?_map, List.getElem?_range hlen, Option.map_some, hbyte]

/-- **Scattered bytes are gathered in their order**, from buffers that share no address. -/
theorem prefix_gather_scatter {iov : List Iovec} (h : Apart iov) (memory : BitVec 64 → Byte)
    {bs : List Byte} (hroom : bs.length ≤ room iov) :
    bs <+: gather (scatter memory iov bs) iov := by
  induction iov generalizing memory bs with
  | nil =>
    obtain rfl := List.length_eq_zero_iff.mp (Nat.le_zero.mp hroom)
    exact List.prefix_refl []
  | cons v iov ih =>
    have hfirst := bytes_scatter_cons h memory bs
    rw [gather_cons]
    by_cases hlen : bs.length ≤ v.iov_len.toNat
    · rw [List.take_of_length_le hlen] at hfirst
      exact hfirst.trans (List.prefix_append _ _)
    · -- the first buffer is full, and the others have the rest
      have hfull : v.bytes (scatter memory (v :: iov) bs) = bs.take v.iov_len.toNat := by
        refine (hfirst.eq_of_length ?_).symm
        rw [List.length_take, Iovec.length_bytes]
        omega
      have hrest : bs.drop v.iov_len.toNat <+: gather (scatter memory (v :: iov) bs) iov := by
        refine ih (List.pairwise_cons.mp h).2 _ ?_
        rw [List.length_drop]
        rw [room_cons] at hroom
        omega
      rw [hfull]
      calc bs = bs.take v.iov_len.toNat ++ bs.drop v.iov_len.toNat :=
            (List.take_append_drop _ bs).symm
        _ <+: bs.take v.iov_len.toNat ++ gather (scatter memory (v :: iov) bs) iov :=
            (List.prefix_append_right_inj _).mpr hrest

/-- A byte count of scattered bytes gives them back. -/
theorem take_gather_scatter {iov : List Iovec} (h : Apart iov) (memory : BitVec 64 → Byte)
    {bs : List Byte} (hroom : bs.length ≤ room iov) :
    (gather (scatter memory iov bs) iov).take bs.length = bs :=
  (List.prefix_iff_eq_take.mp (prefix_gather_scatter h memory hroom)).symm

end LinuxWinsock.Msg
