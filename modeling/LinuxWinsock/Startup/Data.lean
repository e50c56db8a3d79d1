import LinuxWinsock.Startup.Startup
import Mathlib.Data.List.GetD

namespace LinuxWinsock.Startup

open Layout Memory

/-!
# `WSADATA` through the two headers

What the library stores through the `WSADATA` of `winsock2_api.h` and a client reads through
the one of `winsock.h`.  The two have the same size, but their members are ordered
differently: behind the versions, the client reads each byte twelve bytes too early.

* `load_winsock2` — the library's own struct reads back what it stored;
* `data_agrees_iff` — the client's does exactly if the data repeats itself with period
  twelve, which the data of `WSAStartup` never does.
-/

variable {d : WSADATA} {base : Nat} {m : Memory}

/-! ### The two layouts -/

theorem place_winsock2 : place winsock2Members =
    [⟨.wVersion, 0, 2⟩, ⟨.wHighVersion, 2, 2⟩, ⟨.iMaxSockets, 4, 2⟩, ⟨.iMaxUdpDg, 6, 2⟩,
      ⟨.lpVendorInfo, 8, 8⟩, ⟨.szDescription, 16, 257⟩, ⟨.szSystemStatus, 273, 129⟩] := rfl

theorem place_winsock1 : place winsock1Members =
    [⟨.wVersion, 0, 2⟩, ⟨.wHighVersion, 2, 2⟩, ⟨.szDescription, 4, 257⟩,
      ⟨.szSystemStatus, 261, 129⟩, ⟨.iMaxSockets, 390, 2⟩, ⟨.iMaxUdpDg, 392, 2⟩,
      ⟨.lpVendorInfo, 400, 8⟩] := rfl

/-- The sizes coincide. -/
theorem sizeof_eq : sizeof winsock2Members = 408 ∧ sizeof winsock1Members = 408 := ⟨rfl, rfl⟩

theorem fits_winsock2 (d : WSADATA) : Fits d.bytes (place winsock2Members) := by
  intro s hs
  rw [place_winsock2] at hs
  simp only [List.mem_cons, List.not_mem_nil, or_false] at hs
  rcases hs with rfl | rfl | rfl | rfl | rfl | rfl | rfl
  · rfl
  · rfl
  · rfl
  · rfl
  · rfl
  · exact List.length_ofFn
  · exact List.length_ofFn

/-- The memory with `d` stored through `winsock2_api.h`. -/
def storeWSADATA (d : WSADATA) (base : Nat) (m : Memory) : Memory :=
  store d.bytes base (place winsock2Members) m

/-- Each member is read as it was stored. -/
theorem load_winsock2 (d : WSADATA) (base : Nat) (m : Memory) (f : Field) :
    load winsock2Members base (storeWSADATA d base m) f = some (d.bytes f) := by
  refine load_store (fits_winsock2 d) ?_ base m
  rw [place_winsock2]
  cases f <;> simp

/-! ### Where the two agree -/

/-- What twelve consecutive bytes from `iMaxSockets` on hold. -/
def WSADATA.block (d : WSADATA) : List Byte :=
  bytes16 d.iMaxSockets ++ bytes16 d.iMaxUdpDg ++ bytes64 d.lpVendorInfo

/-- The data repeats the block `iMaxSockets`, `iMaxUdpDg`, `lpVendorInfo` with period twelve:
    the strings do so from one to the other, and the padding behind them ends the last one. -/
structure Repeats (d : WSADATA) (base : Nat) (m : Memory) : Prop where
  udp : d.iMaxUdpDg = d.iMaxSockets
  vendor : d.lpVendorInfo.setWidth 16 = d.iMaxSockets
  description : ∀ i : Fin 257, d.szDescription i = d.block.getD (i % 12) 0
  status : ∀ i : Fin 129, d.szSystemStatus i = d.block.getD ((i + 5) % 12) 0
  padding : ∀ i < 6, m (base + 402 + i) = d.block.getD (i + 6) 0

/-- All members are read as they were stored. -/
def Agrees (d : WSADATA) (base : Nat) (m : Memory) : Prop :=
  ∀ f, load winsock1Members base (storeWSADATA d base m) f = some (d.bytes f)

/-! ### Byte by byte -/

theorem getD_ofFn {n : Nat} (f : Fin n → Byte) (i : Fin n) : (List.ofFn f).getD i 0 = f i := by
  simp [List.getD_eq_getElem?_getD]

/-- The three parts of the block. -/
theorem block_getD (d : WSADATA) :
    (∀ i < 2, d.block.getD i 0 = (bytes16 d.iMaxSockets).getD i 0) ∧
    (∀ i < 2, d.block.getD (2 + i) 0 = (bytes16 d.iMaxUdpDg).getD i 0) ∧
    (∀ i < 8, d.block.getD (4 + i) 0 = (bytes64 d.lpVendorInfo).getD i 0) := by
  unfold WSADATA.block
  refine ⟨fun i hi => ?_, fun i hi => ?_, fun i hi => ?_⟩
  · rw [List.getD_append _ _ _ _ (by simp; omega), List.getD_append _ _ _ _ (by simpa using hi)]
  · rw [List.getD_append _ _ _ _ (by simp; omega),
      List.getD_append_right _ _ _ _ (by simp)]
    simp
  · rw [List.getD_append_right _ _ _ _ (by simp)]
    simp

/-- The bytes of the members, where they stand. -/
theorem storeWSADATA_bytes (d : WSADATA) (base : Nat) (m : Memory) :
    (∀ i < 12, storeWSADATA d base m (base + 4 + i) = d.block.getD i 0) ∧
    (∀ i : Fin 257, storeWSADATA d base m (base + 16 + i) = d.szDescription i) ∧
    (∀ i : Fin 129, storeWSADATA d base m (base + 273 + i) = d.szSystemStatus i) ∧
    (∀ i < 6, storeWSADATA d base m (base + 402 + i) = m (base + 402 + i)) := by
  have hload : ∀ s ∈ place winsock2Members,
      (storeWSADATA d base m).loadBytes (base + s.offset) s.size = d.bytes s.name :=
    fun s hs => loadBytes_store (fits_winsock2 d) (place_pairwise 0 _) hs
  rw [place_winsock2] at hload
  simp only [List.forall_mem_cons] at hload
  obtain ⟨_, _, hsock, hudp, hvend, hdesc, hstat, _⟩ := hload
  refine ⟨fun i hi => ?_, fun i => ?_, fun i => ?_, fun i hi => ?_⟩
  · obtain ⟨hblock, hblock₂, hblock₄⟩ := block_getD d
    by_cases h₂ : i < 2
    · rw [byte_of_loadBytes hsock h₂, hblock i h₂]
      rfl
    by_cases h₄ : i < 4
    · have hbyte := byte_of_loadBytes hudp (show i - 2 < 2 by omega)
      have hpart := hblock₂ (i - 2) (by omega)
      rw [show base + 6 + (i - 2) = base + 4 + i by omega] at hbyte
      rw [show 2 + (i - 2) = i by omega] at hpart
      exact hbyte.trans hpart.symm
    · have hbyte := byte_of_loadBytes hvend (show i - 4 < 8 by omega)
      have hpart := hblock₄ (i - 4) (by omega)
      rw [show base + 8 + (i - 4) = base + 4 + i by omega] at hbyte
      rw [show 4 + (i - 4) = i by omega] at hpart
      exact hbyte.trans hpart.symm
  · exact (byte_of_loadBytes hdesc i.isLt).trans (getD_ofFn d.szDescription i)
  · exact (byte_of_loadBytes hstat i.isLt).trans (getD_ofFn d.szSystemStatus i)
  · refine store_of_outside (fits_winsock2 d) ?_
    rw [place_winsock2]
    simp
    omega

/-- In the bytes from `iMaxSockets` on, each member of the client's struct holds what the
    library stored in the member of that name. -/
structure ReadEarly (N : Nat → Byte) : Prop where
  description : ∀ i < 257, N i = N (12 + i)
  status : ∀ i < 129, N (257 + i) = N (269 + i)
  sockets : ∀ i < 2, N (386 + i) = N i
  udp : ∀ i < 2, N (388 + i) = N (2 + i)
  vendor : ∀ i < 8, N (396 + i) = N (4 + i)

/-- The bytes repeat the first twelve, and of these the second and the third word are the
    first. -/
structure PeriodTwelve (N : Nat → Byte) : Prop where
  udp : ∀ i < 2, N (2 + i) = N i
  vendor : ∀ i < 2, N (4 + i) = N i
  description : ∀ i < 257, N (12 + i) = N (i % 12)
  status : ∀ i < 129, N (269 + i) = N ((i + 5) % 12)
  padding : ∀ i < 6, N (398 + i) = N (6 + i)

/-- A sequence that repeats itself after `k` places is known from its first `k`. -/
theorem eq_mod_of_add {α : Type} {N : Nat → α} {k n : Nat} (hk : 0 < k)
    (h : ∀ j, j + k < n → N (j + k) = N j) (j : Nat) (hj : j < n) : N j = N (j % k) := by
  induction j using Nat.strong_induction_on with
  | _ j ih =>
    by_cases hlt : j < k
    · rw [Nat.mod_eq_of_lt hlt]
    · have hprev := h (j - k) (by omega)
      rw [Nat.sub_add_cancel (by omega)] at hprev
      rw [hprev, ih (j - k) (by omega) (by omega), ← Nat.mod_eq_sub_mod (by omega)]

theorem ReadEarly.eq_mod {N : Nat → Byte} (h : ReadEarly N) : ∀ j < 398, N j = N (j % 12) := by
  apply eq_mod_of_add (by decide)
  intro j hj
  by_cases hdesc : j < 257
  · rw [h.description j hdesc, Nat.add_comm]
  · have hrest := h.status (j - 257) (by omega)
    rw [show 257 + (j - 257) = j by omega, show 269 + (j - 257) = j + 12 by omega] at hrest
    exact hrest.symm

theorem PeriodTwelve.eq_mod {N : Nat → Byte} (h : PeriodTwelve N) :
    ∀ j < 398, N j = N (j % 12) := by
  intro j hj
  by_cases hlt : j < 12
  · rw [Nat.mod_eq_of_lt hlt]
  · by_cases hd : j < 269
    · have hrest := h.description (j - 12) (by omega)
      rwa [show 12 + (j - 12) = j by omega, show (j - 12) % 12 = j % 12 by omega] at hrest
    · have hrest := h.status (j - 269) (by omega)
      rwa [show 269 + (j - 269) = j by omega,
        show (j - 269 + 5) % 12 = j % 12 by omega] at hrest

/-- **The shift by twelve bytes.**  Bytes that are read twelve places too early are read right
    exactly if they repeat themselves. -/
theorem readEarly_iff (N : Nat → Byte) : ReadEarly N ↔ PeriodTwelve N := by
  constructor
  · intro h
    -- each byte is the one at its place modulo twelve
    have hmod := h.eq_mod
    have hudp : ∀ i < 2, N (2 + i) = N i := by
      intro i hi
      rw [← h.sockets i hi, hmod (386 + i) (by omega), show (386 + i) % 12 = 2 + i by omega]
    constructor
    case udp => exact hudp
    case vendor =>
      intro i hi
      rw [← hudp i hi, ← h.udp i hi, hmod (388 + i) (by omega),
        show (388 + i) % 12 = 4 + i by omega]
    case description =>
      intro i hi
      rw [hmod (12 + i) (by omega), show (12 + i) % 12 = i % 12 by omega]
    case status =>
      intro i hi
      rw [hmod (269 + i) (by omega), show (269 + i) % 12 = (i + 5) % 12 by omega]
    case padding =>
      intro i hi
      have hrest := h.vendor (i + 2) (by omega)
      rwa [show 396 + (i + 2) = 398 + i by omega, show 4 + (i + 2) = 6 + i by omega] at hrest
  · intro h
    have hmod := h.eq_mod
    constructor
    case description =>
      intro i hi
      rw [hmod i (by omega), hmod (12 + i) (by omega), show (12 + i) % 12 = i % 12 by omega]
    case status =>
      intro i hi
      rw [hmod (257 + i) (by omega), hmod (269 + i) (by omega),
        show (269 + i) % 12 = (257 + i) % 12 by omega]
    case sockets =>
      intro i hi
      rw [hmod (386 + i) (by omega), show (386 + i) % 12 = 2 + i by omega, h.udp i hi]
    case udp =>
      intro i hi
      rw [hmod (388 + i) (by omega), show (388 + i) % 12 = 4 + i by omega, h.vendor i hi,
        h.udp i hi]
    case vendor =>
      intro i hi
      by_cases hlow : i < 2
      · rw [hmod (396 + i) (by omega), show (396 + i) % 12 = i by omega, h.vendor i hlow]
      · have hrest := h.padding (i - 2) (by omega)
        rwa [show 398 + (i - 2) = 396 + i by omega, show 6 + (i - 2) = 4 + i by omega] at hrest

/-! ### The condition -/

/-- The bytes from `iMaxSockets` on. -/
def tailBytes (d : WSADATA) (base : Nat) (m : Memory) : Nat → Byte :=
  fun j => storeWSADATA d base m (base + 4 + j)

theorem agrees_iff_readEarly (d : WSADATA) (base : Nat) (m : Memory) :
    Agrees d base m ↔ ReadEarly (tailBytes d base m) := by
  have hfield : Agrees d base m ↔ ∀ f, load winsock1Members base (storeWSADATA d base m) f =
      load winsock2Members base (storeWSADATA d base m) f := by
    simp only [Agrees, load_winsock2]
  -- the members stand 12 bytes before those of the library, but for the last three
  have hearly : ∀ o o' n, ((storeWSADATA d base m).loadBytes (base + (4 + o)) n =
      (storeWSADATA d base m).loadBytes (base + (4 + o')) n ↔
        ∀ i < n, tailBytes d base m (o + i) = tailBytes d base m (o' + i)) := by
    intro o o' n
    rw [loadBytes_eq_iff]
    simp only [tailBytes, Nat.add_assoc]
  have hzero : ∀ i, (0 : Nat) + i = i := Nat.zero_add
  rw [hfield]
  simp only [load, place_winsock1, place_winsock2]
  constructor
  · intro h
    have hd := (hearly 0 12 257).mp (Option.some.inj (h .szDescription))
    have hs := (hearly 257 269 129).mp (Option.some.inj (h .szSystemStatus))
    have hk := (hearly 386 0 2).mp (Option.some.inj (h .iMaxSockets))
    have hu := (hearly 388 2 2).mp (Option.some.inj (h .iMaxUdpDg))
    have hv := (hearly 396 4 8).mp (Option.some.inj (h .lpVendorInfo))
    simp only [hzero] at hd hk
    exact ⟨hd, hs, hk, hu, hv⟩
  · rintro ⟨hd, hs, hk, hu, hv⟩ f
    cases f with
    | wVersion => rfl
    | wHighVersion => rfl
    | szDescription =>
      exact congrArg some ((hearly 0 12 257).mpr (by simpa only [hzero] using hd))
    | szSystemStatus => exact congrArg some ((hearly 257 269 129).mpr hs)
    | iMaxSockets => exact congrArg some ((hearly 386 0 2).mpr (by simpa only [hzero] using hk))
    | iMaxUdpDg => exact congrArg some ((hearly 388 2 2).mpr hu)
    | lpVendorInfo => exact congrArg some ((hearly 396 4 8).mpr hv)

/-- Words are the same if their bytes are. -/
theorem word_eq_iff {v w : BitVec 16} :
    (∀ i < 2, (bytes16 v).getD i 0 = (bytes16 w).getD i 0) ↔ v = w := by
  refine ⟨fun h => bytes16_inj.mp ?_, fun h i _ => by rw [h]⟩
  have h₀ := h 0 (by decide)
  have h₁ := h 1 (by decide)
  simp only [bytes16, List.getD_cons_zero, List.getD_cons_succ] at h₀ h₁
  simp only [bytes16, h₀, h₁]

/-- The low word of a pointer has its first two bytes. -/
theorem bytes64_low (v : BitVec 64) :
    ∀ i < 2, (bytes64 v).getD i 0 = (bytes16 (v.setWidth 16)).getD i 0 := by
  intro i hi
  have hcases : i = 0 ∨ i = 1 := by omega
  rcases hcases with rfl | rfl
  · show v.extractLsb' 0 8 = (v.setWidth 16).extractLsb' 0 8
    ext j hj
    simp [BitVec.getElem_extractLsb', BitVec.getLsbD_setWidth]
    omega
  · show v.extractLsb' 8 8 = (v.setWidth 16).extractLsb' 8 8
    ext j hj
    simp [BitVec.getElem_extractLsb', BitVec.getLsbD_setWidth]
    omega

theorem periodTwelve_iff_repeats (d : WSADATA) (base : Nat) (m : Memory) :
    PeriodTwelve (tailBytes d base m) ↔ Repeats d base m := by
  obtain ⟨hbytes, hdesc, hstat, hpad⟩ := storeWSADATA_bytes d base m
  obtain ⟨hb₀, hb₂, hb₄⟩ := block_getD d
  have hblock : ∀ i < 12, tailBytes d base m i = d.block.getD i 0 := hbytes
  have hmod : ∀ i, tailBytes d base m (i % 12) = d.block.getD (i % 12) 0 :=
    fun i => hblock _ (Nat.mod_lt i (by decide))
  -- where the members of the record are among the bytes
  have hdescription : ∀ i : Fin 257, tailBytes d base m (12 + i) = d.szDescription i := by
    intro i
    rw [← hdesc i, tailBytes, show base + 4 + (12 + i.val) = base + 16 + i.val by omega]
  have hstatus : ∀ i : Fin 129, tailBytes d base m (269 + i) = d.szSystemStatus i := by
    intro i
    rw [← hstat i, tailBytes, show base + 4 + (269 + i.val) = base + 273 + i.val by omega]
  have hpadding : ∀ i < 6, tailBytes d base m (398 + i) = m (base + 402 + i) := by
    intro i hi
    rw [← hpad i hi, tailBytes, show base + 4 + (398 + i) = base + 402 + i by omega]
  have hsockets : ∀ i < 2, tailBytes d base m i = (bytes16 d.iMaxSockets).getD i 0 :=
    fun i hi => (hblock i (by omega)).trans (hb₀ i hi)
  have hudp : ∀ i < 2, tailBytes d base m (2 + i) = (bytes16 d.iMaxUdpDg).getD i 0 :=
    fun i hi => (hblock (2 + i) (by omega)).trans (hb₂ i hi)
  have hvendor : ∀ i < 2, tailBytes d base m (4 + i) =
      (bytes16 (d.lpVendorInfo.setWidth 16)).getD i 0 := by
    intro i hi
    rw [hblock (4 + i) (by omega), hb₄ i (by omega), bytes64_low _ i hi]
  constructor
  · rintro ⟨h₂, h₄, hd, hs, hp⟩
    constructor
    case udp => exact word_eq_iff.mp (fun i hi => by rw [← hudp i hi, h₂ i hi, hsockets i hi])
    case vendor =>
      exact word_eq_iff.mp (fun i hi => by rw [← hvendor i hi, h₄ i hi, hsockets i hi])
    case description => exact fun i => by rw [← hdescription i, hd i i.isLt, hmod]
    case status => exact fun i => by rw [← hstatus i, hs i i.isLt, hmod]
    case padding =>
      intro i hi
      rw [← hpadding i hi, hp i hi, hblock (6 + i) (by omega), Nat.add_comm]
  · rintro ⟨h₂, h₄, hd, hs, hp⟩
    constructor
    case udp => exact fun i hi => by rw [hudp i hi, hsockets i hi, h₂]
    case vendor => exact fun i hi => by rw [hvendor i hi, hsockets i hi, h₄]
    case description => exact fun i hi => by rw [hdescription ⟨i, hi⟩, hd ⟨i, hi⟩, hmod]
    case status => exact fun i hi => by rw [hstatus ⟨i, hi⟩, hs ⟨i, hi⟩, hmod]
    case padding =>
      intro i hi
      rw [hpadding i hi, hp i hi, hblock (6 + i) (by omega), Nat.add_comm]

/-- The two headers agree exactly on data that repeats itself. -/
theorem agrees_iff_repeats {d : WSADATA} {base : Nat} {m : Memory} :
    Agrees d base m ↔ Repeats d base m := by
  rw [agrees_iff_readEarly, readEarly_iff, periodTwelve_iff_repeats]

/-! ### After a successful start-up -/

/-- What a call that returns 0 has stored is `startupData`, on cleared memory. -/
theorem startupBody_eq_zero {version : BitVec 16} {lp : Option Nat} {count : BitVec 32}
    {mem : Memory} (h : (startupBody version lp count mem).1.ret = 0) :
    ∃ p, lp = some p ∧ (startupBody version lp count mem).2.2 = storeWSADATA (startupData version) p
      (mem.storeBytes p (List.replicate (sizeof winsock2Members) 0)) := by
  cases lp with
  | none => exact absurd h (show WSAEFAULT ≠ 0 by decide)
  | some p =>
    refine ⟨p, rfl, ?_⟩
    simp only [startupBody]
    split <;> rfl

/-- The data of a start-up does not repeat itself: its description begins with an "L". -/
theorem not_repeats_startupData (version : BitVec 16) (base : Nat) (m : Memory) :
    ¬ Repeats (startupData version) base m := by
  intro h
  have hfirst := h.description 0
  exact absurd (show (76 : Byte) = 0 from hfirst) (by decide)

/-- **The two headers.**  What is stored through `winsock2_api.h` is read through `winsock.h` as
    the same data exactly if the data repeats itself with period twelve.  After a call of
    `WSAStartup` that returns 0 it never is. -/
theorem data_agrees_iff (d : WSADATA) (base : Nat) (m : Memory) (version : BitVec 16)
    (lp : Option Nat) (count : BitVec 32) (mem : Memory) :
    (Agrees d base m ↔ Repeats d base m) ∧
    ((startupBody version lp count mem).1.ret = 0 →
      ∃ p, lp = some p ∧ ∃ f, load winsock1Members p (startupBody version lp count mem).2.2 f ≠
        some ((startupData version).bytes f)) := by
  refine ⟨agrees_iff_repeats, fun hret => ?_⟩
  obtain ⟨p, rfl, hmem⟩ := startupBody_eq_zero hret
  refine ⟨p, rfl, ?_⟩
  rw [hmem]
  by_contra hall
  push Not at hall
  have hagrees : Agrees (startupData version) p _ := hall
  exact not_repeats_startupData version p _ (agrees_iff_repeats.mp hagrees)

/-- A cleared record repeats itself. -/
theorem repeats_zeros (base : Nat) :
    Repeats ⟨0, 0, 0, 0, 0, fun _ => 0, fun _ => 0⟩ base (fun _ => 0) := by
  have hblock : ∀ n, (WSADATA.block ⟨0, 0, 0, 0, 0, fun _ => 0, fun _ => 0⟩).getD n 0 = 0 := by
    intro n
    show (List.replicate 12 (0 : Byte)).getD n 0 = 0
    rw [List.getD_eq_getElem?_getD, List.getElem?_getD_replicate_default_eq]
  exact ⟨rfl, rfl, fun i => (hblock _).symm, fun i => (hblock _).symm, fun i _ => (hblock _).symm⟩

/-- A cleared record is read as it was stored; after `WSAStartup(MAKEWORD(2, 2), &data)`, which
    returns 0, some member is not. -/
theorem data_agrees_iff_zeros_startup :
    Agrees ⟨0, 0, 0, 0, 0, fun _ => 0, fun _ => 0⟩ 64 (fun _ => 0) ∧
    ∃ p, some 64 = some p ∧ ∃ f, load winsock1Members p
      (startupBody (MAKEWORD 2 2) (some 64) 0 (fun _ => 0)).2.2 f ≠
        some ((startupData (MAKEWORD 2 2)).bytes f) :=
  have hboth := data_agrees_iff ⟨0, 0, 0, 0, 0, fun _ => 0, fun _ => 0⟩ 64 (fun _ => 0)
    (MAKEWORD 2 2) (some 64) 0 (fun _ => 0)
  ⟨hboth.1.mpr (repeats_zeros 64), hboth.2 rfl⟩

/-- After `WSAStartup(MAKEWORD(1, 1), &data)`, which returns 0, the library has stored a
    description that begins with an "L", and the client reads an empty one. -/
theorem data_disagrees :
    (startupBody (MAKEWORD 1 1) (some 0) 0 (fun _ => 0)).1.ret = 0 ∧
    ((startupData (MAKEWORD 1 1)).bytes .szDescription).head? = some 76 ∧
    ((load winsock1Members 0 (startupBody (MAKEWORD 1 1) (some 0) 0 (fun _ => 0)).2.2
      .szDescription).bind List.head?) = some 0 ∧
    ¬ Agrees (startupData (MAKEWORD 1 1)) 0 (fun _ => 0) := by
  refine ⟨by decide, rfl, by decide, fun hagrees => ?_⟩
  have hfirst := congrArg (fun bytes => bytes.bind List.head?) (hagrees .szDescription)
  exact absurd hfirst (by decide)

end LinuxWinsock.Startup
