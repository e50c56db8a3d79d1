import LinuxWinsock.Addr.Literal
import LinuxWinsock.Addr.Sizing

namespace LinuxWinsock.Addr

open Memory CString CString.Inet

/-!
# The bytes that `WSAAddressToStringA` reads

The call has the length of the address and does not look at it: two runs are compared whose
memories agree on the bytes that the caller has given.

* `wsaAddressToStringA_congr` — the first 24 bytes are all that is read;
* `givenOnly_iff` — for which lengths the call keeps to the bytes that it was given, and refuses an
  address that is shorter than its family's.
-/

/-! ### What is read -/

variable {libc : Libc} {f : Family} {sa sa' : Memory} {n c : BitVec 32} {hasString : Bool}
  {capacity : Option (BitVec 32)}

/-- The end of the address in either family. -/
theorem Family.addrOffset_add_addrSize_le (f : Family) : f.addrOffset + f.addrSize ≤ 24 := by
  cases f <;> decide

theorem saAddr_congr (h : ∀ i < 24, sa i = sa' i) (f : Family) : saAddr f sa = saAddr f sa' := by
  have hend := f.addrOffset_add_addrSize_le
  exact loadBytes_eq_iff.mpr (fun i hi => h _ (by omega))

theorem load16_congr {o : Nat} (h : ∀ i < 24, sa i = sa' i) (ho : o + 2 ≤ 24) :
    sa.load16 o = sa'.load16 o := by
  unfold load16
  rw [h o (by omega), h (o + 1) (by omega)]

/-- Without a place for the text or its length the call is refused. -/
theorem wsaAddressToStringA_of_null (sa : Option Memory) (h : hasString = false ∨ capacity = none) :
    wsaAddressToStringA libc sa n hasString capacity =
      ⟨SOCKET_ERROR, WSAEFAULT, none, capacity⟩ := by
  rcases h with rfl | rfl
  · cases sa <;> rfl
  · cases sa <;> cases hasString <;> rfl

/-- **The bytes that are read.**  The call gives the same for two memories that agree on the first
    24 bytes, whatever length it is told. -/
theorem wsaAddressToStringA_congr (libc : Libc) (h : ∀ i < 24, sa i = sa' i) (n : BitVec 32)
    (hasString : Bool) (capacity : Option (BitVec 32)) :
    wsaAddressToStringA libc (some sa) n hasString capacity =
      wsaAddressToStringA libc (some sa') n hasString capacity := by
  have hfamily : saFamily sa = saFamily sa' := load16_congr h (by decide)
  have hport : saPort sa = saPort sa' := load16_congr h (by decide)
  have hprint : ∀ f, printAddress libc f sa = printAddress libc f sa' := by
    intro f
    rw [printAddress, printAddress, saAddr_congr h, hport]
  cases capacity with
  | none => rw [wsaAddressToStringA_of_null _ (.inr rfl), wsaAddressToStringA_of_null _ (.inr rfl)]
  | some c =>
    cases hasString with
    | false =>
      rw [wsaAddressToStringA_of_null _ (.inl rfl), wsaAddressToStringA_of_null _ (.inl rfl)]
    | true => simp only [wsaAddressToStringA, hfamily, hprint]

/-! ### What is documented of `inet_ntop` -/

/-- What is documented of `inet_ntop` for IPv6: how it prints `::`, `::1` and `::10`, and that a text
    it gives is one of the address. -/
structure Libc.PrintsInet6 (libc : Libc) : Prop where
  zero : libc.Prints .inet6 (List.replicate 16 0) [58, 58]
  one : libc.Prints .inet6 (List.replicate 15 0 ++ [1]) [58, 58, 49]
  sixteen : libc.Prints .inet6 (List.replicate 15 0 ++ [16]) [58, 58, 49, 48]
  roundTrip : ∀ addr size text, libc.inetNtop .inet6 addr size = some text →
    inetPton6 text = some addr

/-- The shortest text is that of `::`. -/
theorem two_le_length_of_inetPton6 {text : CString} {addr : List Byte}
    (h : inetPton6 text = some addr) : 2 ≤ text.length := by
  obtain ⟨groups, hgroups, -⟩ := Option.map_eq_some_iff.mp h
  by_contra hshort
  have hcolon := (inet6Groups_text hgroups).1
  -- a single colon is no address
  obtain ⟨p, s, rfl⟩ := List.append_of_mem hcolon
  have hlen : p.length = 0 ∧ s.length = 0 := by
    rw [List.length_append, List.length_cons] at hshort
    omega
  obtain rfl := List.eq_nil_of_length_eq_zero hlen.1
  obtain rfl := List.eq_nil_of_length_eq_zero hlen.2
  have hnone : inet6Groups [58] = none := by decide
  rw [List.nil_append, hnone] at hgroups
  cases hgroups

/-- A printed IPv6 address has a colon and a digit behind its text. -/
theorem four_le_length_printAddress (hlibc : libc.PrintsInet6) {t : CString}
    (h : printAddress libc .inet6 sa = some t) : 4 ≤ t.length := by
  obtain ⟨text, htext, rfl⟩ := Option.map_eq_some_iff.mp h
  have hroundTrip := hlibc.roundTrip _ _ _ htext
  have htwo := two_le_length_of_inetPton6 hroundTrip
  have hshort : text.length < INET6_ADDRSTRLEN := (literal_text (f := .inet6) hroundTrip).1
  have hdigits := List.length_pos_of_ne_nil (decimal_ne_nil (ntohs (saPort sa)).toNat)
  rw [snprintf_port hshort, List.length_append, List.length_cons]
  omega

/-! ### Three addresses -/

/-- A `sockaddr_in6` of an address whose last byte is `b`, the others being 0, with the port 0. -/
def lastByteAddress (b : Byte) : Memory :=
  fun i => ([10] ++ List.replicate 22 0 ++ [b]).getD i 0

theorem saFamily_lastByteAddress (b : Byte) :
    saFamily (lastByteAddress b) = BitVec.ofNat 16 Family.inet6.af := by
  have hlow : lastByteAddress b 0 = 10 := rfl
  have hhigh : lastByteAddress b 1 = 0 := rfl
  rw [saFamily, load16, hlow, hhigh]
  decide

theorem saPort_lastByteAddress (b : Byte) : saPort (lastByteAddress b) = 0 := by
  have hlow : lastByteAddress b 2 = 0 := rfl
  have hhigh : lastByteAddress b 3 = 0 := rfl
  rw [saPort, load16, hlow, hhigh]
  decide

/-- Two of them differ in the byte 23 only. -/
theorem loadBytes_lastByteAddress (b b' : Byte) {k : Nat} (h : k ≤ 23) :
    (lastByteAddress b).loadBytes 0 k = (lastByteAddress b').loadBytes 0 k := by
  rw [loadBytes_eq_iff]
  intro i hi
  have hlen : i < ([10] ++ List.replicate 22 0 : List Byte).length := by
    simp
    omega
  simp only [lastByteAddress, zero_add, List.getD_eq_getElem?_getD,
    List.getElem?_append_left hlen]

/-- The reported length is that of the text, whether there is room for it or not. -/
theorem copyText_length (t : CString) (c : BitVec 32) :
    (copyText (some t) c).length = some (BitVec.ofNat 32 (t.length + 1)) := by
  unfold copyText
  dsimp only
  split <;> rfl

theorem wsaAddressToStringA_lastByteAddress {b : Byte} {text : CString}
    (h : libc.Prints .inet6 (List.replicate 15 0 ++ [b]) text) (n c : BitVec 32) :
    wsaAddressToStringA libc (some (lastByteAddress b)) n true (some c) =
      copyText (some (text ++ [58, 48])) c := by
  have hprints : libc.Prints .inet6 (saAddr .inet6 (lastByteAddress b)) text := h
  rw [wsaAddressToStringA_family libc (saFamily_lastByteAddress b),
    printAddress_of_prints hprints, addressText, saPort_lastByteAddress]
  rfl

/-! ### The bytes that are given -/

/-- Two runs whose memories agree on the `n` bytes that were given end alike, and an address shorter
    than its family's is refused. -/
structure GivenOnly (libc : Libc) (n : BitVec 32) (hasString : Bool)
    (capacity : Option (BitVec 32)) : Prop where
  same : ∀ sa sa' : Memory, sa.loadBytes 0 n.toNat = sa'.loadBytes 0 n.toNat →
    wsaAddressToStringA libc (some sa) n hasString capacity =
      wsaAddressToStringA libc (some sa') n hasString capacity
  refuses : ∀ (f : Family) (sa : Memory), saFamily sa = BitVec.ofNat 16 f.af →
    n.toNat < f.sockaddrSize →
    (wsaAddressToStringA libc (some sa) n hasString capacity).ret = SOCKET_ERROR

/-- With 24 bytes everything that is read is given. -/
theorem same_of_le (libc : Libc) (hn : 24 ≤ n.toNat) (hasString : Bool)
    (capacity : Option (BitVec 32)) (h : sa.loadBytes 0 n.toNat = sa'.loadBytes 0 n.toNat) :
    wsaAddressToStringA libc (some sa) n hasString capacity =
      wsaAddressToStringA libc (some sa') n hasString capacity := by
  apply wsaAddressToStringA_congr
  intro i hi
  have hbyte := loadBytes_eq_iff.mp h i (by omega)
  rwa [zero_add] at hbyte

/-- With less, `::1` and `::10` are not told apart by what is given, but printed. -/
theorem le_of_same (hlibc : libc.PrintsInet6) (h : GivenOnly libc n true (some c)) :
    24 ≤ n.toNat := by
  by_contra hlt
  have heq := h.same (lastByteAddress 1) (lastByteAddress 16)
    (loadBytes_lastByteAddress 1 16 (by omega))
  rw [wsaAddressToStringA_lastByteAddress hlibc.one,
    wsaAddressToStringA_lastByteAddress hlibc.sixteen] at heq
  have hlength := congrArg ToString.length heq
  rw [copyText_length, copyText_length] at hlength
  exact absurd hlength (by decide)

/-- An IPv6 address with fewer than 28 bytes is refused for want of room only. -/
theorem room_of_refuses (hlibc : libc.PrintsInet6) (h : GivenOnly libc n true (some c))
    (hn : n.toNat < 28) : c.toNat < 5 := by
  by_contra hroom
  have hzero : libc.Prints .inet6 (List.replicate 15 0 ++ [0]) [58, 58] := hlibc.zero
  have hret := h.refuses .inet6 (lastByteAddress 0) (saFamily_lastByteAddress 0) hn
  have hfits : ¬ c.toNat < ([58, 58] ++ [58, 48] : CString).length + 1 := hroom
  rw [wsaAddressToStringA_lastByteAddress hzero, copyText, if_neg hfits] at hret
  exact absurd hret (by decide)

/-- No IPv6 address has room in fewer than 5 bytes. -/
theorem refuses_of_room (hlibc : libc.PrintsInet6) (hfamily : saFamily sa = BitVec.ofNat 16
    Family.inet6.af) (hc : c.toNat < 5) :
    (wsaAddressToStringA libc (some sa) n true (some c)).ret = SOCKET_ERROR := by
  rw [wsaAddressToStringA_family libc hfamily]
  cases hprint : printAddress libc .inet6 sa with
  | none => rfl
  | some t =>
    have hfour := four_le_length_printAddress hlibc hprint
    have hshort : c.toNat < t.length + 1 := by omega
    rw [copyText, if_pos hshort]

/-- A call that is refused for a `NULL` argument reads nothing. -/
theorem givenOnly_of_null (libc : Libc) (n : BitVec 32)
    (h : hasString = false ∨ capacity = none) : GivenOnly libc n hasString capacity := by
  constructor
  · intro sa sa' _
    rw [wsaAddressToStringA_of_null _ h, wsaAddressToStringA_of_null _ h]
  · intro f sa _ _
    rw [wsaAddressToStringA_of_null _ h]

/-- No address is longer than a `struct sockaddr_in6`. -/
theorem givenOnly_of_le (libc : Libc) (hn : 28 ≤ n.toNat) (hasString : Bool)
    (capacity : Option (BitVec 32)) : GivenOnly libc n hasString capacity := by
  constructor
  · intro sa sa' hagree
    exact same_of_le libc (by omega) hasString capacity hagree
  · intro f sa _ hlt
    have hsize : f.sockaddrSize ≤ 28 := by cases f <;> decide
    omega

/-- If the bytes behind the address are missing, only a small capacity refuses it. -/
theorem givenOnly_of_room (hlibc : libc.PrintsInet6) (hn : 24 ≤ n.toNat) (hc : c.toNat < 5) :
    GivenOnly libc n true (some c) := by
  constructor
  · intro sa sa' hagree
    exact same_of_le libc hn true (some c) hagree
  · intro f sa hfamily hlt
    cases f with
    | inet =>
      have hsize : Family.inet.sockaddrSize = 16 := rfl
      omega
    | inet6 => exact refuses_of_room hlibc hfamily hc

/-- **The given bytes.**  The call keeps to the bytes that it was given exactly if it is refused for
    a `NULL` argument, or the length is that of the longer `struct sockaddr_in6`, or it covers the
    address and there is no room for any text. -/
theorem givenOnly_iff (libc : Libc) (hlibc : libc.PrintsInet6) (n : BitVec 32) (hasString : Bool)
    (capacity : Option (BitVec 32)) :
    GivenOnly libc n hasString capacity ↔
      hasString = false ∨ capacity = none ∨ 28 ≤ n.toNat ∨
        (24 ≤ n.toNat ∧ ∃ c, capacity = some c ∧ c.toNat < 5) := by
  cases capacity with
  | none => exact iff_of_true (givenOnly_of_null libc n (.inr rfl)) (.inr (.inl rfl))
  | some c =>
    cases hasString with
    | false => exact iff_of_true (givenOnly_of_null libc n (.inl rfl)) (.inl rfl)
    | true =>
      by_cases hn : 28 ≤ n.toNat
      · exact iff_of_true (givenOnly_of_le libc hn true (some c)) (.inr (.inr (.inl hn)))
      · constructor
        · intro h
          exact .inr (.inr (.inr ⟨le_of_same hlibc h, c, rfl,
            room_of_refuses hlibc h (not_le.mp hn)⟩))
        · intro h
          have hroom : 24 ≤ n.toNat ∧ c.toNat < 5 := by simpa [hn] using h
          exact givenOnly_of_room hlibc hroom.1 hroom.2

/-- `inet_ntop` as it prints `::`, `::1` and `::10`. -/
def smallLibc : Libc where
  inetNtop f addr size :=
    if f = .inet6 ∧ addr = List.replicate 16 0 ∧ 2 < size then some [58, 58]
    else if f = .inet6 ∧ addr = List.replicate 15 0 ++ [1] ∧ 3 < size then some [58, 58, 49]
    else if f = .inet6 ∧ addr = List.replicate 15 0 ++ [16] ∧ 4 < size then some [58, 58, 49, 48]
    else none
  inetPton := inetPton

theorem smallLibc_prints : smallLibc.PrintsInet6 where
  zero := ⟨fun size => by simp [smallLibc], by decide, by simp [WideString.Ascii]⟩
  one := ⟨fun size => by simp [smallLibc], by decide, by simp [WideString.Ascii]⟩
  sixteen := ⟨fun size => by simp [smallLibc], by decide, by simp [WideString.Ascii]⟩
  roundTrip := by
    intro addr size text h
    simp only [smallLibc] at h
    split_ifs at h with hzero hone hsixteen
    · obtain rfl := Option.some.inj h
      rw [hzero.2.1]
      decide
    · obtain rfl := Option.some.inj h
      rw [hone.2.1]
      decide
    · obtain rfl := Option.some.inj h
      rw [hsixteen.2.1]
      decide

/-- Without the last byte of the address, `::1` and `::10` are told apart all the same. -/
theorem givenOnly_last_byte : ¬ GivenOnly smallLibc 23 true (some 64) := by
  rw [givenOnly_iff smallLibc smallLibc_prints]
  simp

/-- The sixteen bytes of a `sockaddr_in` are given, and a `sockaddr_in6` is read. -/
theorem not_givenOnly_short : ¬ ∀ (n : BitVec 32) (hasString : Bool)
    (capacity : Option (BitVec 32)), GivenOnly smallLibc n hasString capacity := by
  intro h
  exact absurd (le_of_same smallLibc_prints (h 16 true (some 64))) (by decide)

end LinuxWinsock.Addr
