import LinuxWinsock.Addr.Literal
import LinuxWinsock.Lib.ArrayStores

namespace LinuxWinsock.Addr

open Memory CString CString.Inet WideString

/-!
# The array `addr_only`

`WSAStringToAddressA` copies the address part of a string into an array on its stack: up to the last
colon, or refused if that is too far, and without a colon cut to the array.

* `fillAddrOnly_spec` — no store is outside the array, and the text in it is the one that the
  conversion gets;
* `address_of_success` — the cut makes no address of a text that is none.
-/

/-- The stores into `addr_only`, and the port; `none` where the string is refused. -/
def fillAddrOnly (s : CString) : Option (List (Nat × Byte) × BitVec 32) :=
  match strrchr s 58 with
  | some i =>
    if INET6_ADDRSTRLEN ≤ i then none
    else some (copyStores s i ++ [(i, 0)], atoi (s.drop (i + 1)))
  | none => some (copyStores s (INET6_ADDRSTRLEN - 1) ++ [(INET6_ADDRSTRLEN - 1, 0)], 0)

/-- The text before the last colon of `t`, or all of it if it has none. -/
def IsAddressPart (t part : CString) : Prop :=
  (58 ∉ t ∧ part = t) ∨ ∃ s, t = part ++ 58 :: s ∧ 58 ∉ s

/-- What is documented of the texts that `inet_pton` accepts, and of the size of what it stores. -/
structure Libc.Grammar (libc : Libc) : Prop where
  inet : ∀ text addr, libc.inetPton .inet text = some addr → text.length ≤ 15
  inet6 : ∀ text addr, libc.inetPton .inet6 text = some addr → 58 ∈ text
  size : ∀ f text addr, libc.inetPton f text = some addr → addr.length = f.addrSize

variable {libc : Libc} {f : Family} {t part addrOnly : CString} {stores : List (Nat × Byte)}
  {mem : Memory} {length port : BitVec 32}

/-- A copy up to `n` and its terminator stay below what `n` is below. -/
theorem lt_of_mem_cut {n size : Nat} (hn : n < size) {e : Nat × Byte}
    (h : e ∈ copyStores t n ++ [(n, 0)]) : e.1 < size := by
  rcases List.mem_append.mp h with h | h
  · exact (lt_of_mem_copyStores h).trans hn
  · rw [List.mem_singleton.mp h]
    exact hn

/-- **The array** is filled with the text that is converted and its terminator, and no store is
    outside it. -/
theorem fillAddrOnly_spec {text : CString} (array : CharArray INET6_ADDRSTRLEN) (ht : 0 ∉ t)
    (h : splitPort t = some (text, port)) :
    ∃ stores, fillAddrOnly t = some (stores, port) ∧ (∀ e ∈ stores, e.1 < INET6_ADDRSTRLEN) ∧
      stringIn (storeAll array.bytes stores) = some text := by
  have hsize := array.size
  cases hcolon : strrchr t 58 with
  | none =>
    simp only [fillAddrOnly, splitPort, hcolon] at h ⊢
    obtain ⟨rfl, rfl⟩ := Prod.mk.inj (Option.some.inj h)
    have hlast : INET6_ADDRSTRLEN - 1 < INET6_ADDRSTRLEN := by decide
    exact ⟨_, rfl, fun e he => lt_of_mem_cut hlast he, stringIn_cut ht (by omega)⟩
  | some i =>
    simp only [fillAddrOnly, splitPort, hcolon] at h ⊢
    by_cases hlong : INET6_ADDRSTRLEN ≤ i
    · rw [if_pos hlong] at h
      cases h
    · rw [if_neg hlong] at h
      obtain ⟨rfl, rfl⟩ := Prod.mk.inj (Option.some.inj h)
      rw [if_neg hlong]
      exact ⟨_, rfl, fun e he => lt_of_mem_cut (not_le.mp hlong) he, stringIn_cut ht (by omega)⟩

/-- Nothing is stored exactly if the string is refused. -/
theorem fillAddrOnly_eq_none : fillAddrOnly t = none ↔ splitPort t = none := by
  cases hcolon : strrchr t 58 with
  | none =>
    simp only [fillAddrOnly, splitPort, hcolon]
    exact iff_of_false nofun nofun
  | some i =>
    simp only [fillAddrOnly, splitPort, hcolon]
    split <;> simp

/-- **The cut is harmless.**  A text that is split off and accepted is the whole address part. -/
theorem isAddressPart_of_accepted {addr : List Byte} (hlibc : libc.Grammar)
    (hsplit : splitPort t = some (addrOnly, port)) (haddr : libc.inetPton f addrOnly = some addr) :
    IsAddressPart t addrOnly := by
  by_cases hcolon : 58 ∈ t
  · obtain ⟨p, s, rfl, hs⟩ := exists_last_of_mem hcolon
    rw [splitPort_colon p hs] at hsplit
    split at hsplit
    · cases hsplit
    · obtain ⟨rfl, -⟩ := Prod.mk.inj (Option.some.inj hsplit)
      exact .inr ⟨s, rfl, hs⟩
  · have htake : t.take (INET6_ADDRSTRLEN - 1) = addrOnly := by
      rw [splitPort, strrchr_eq_none hcolon] at hsplit
      exact congrArg Prod.fst (Option.some.inj hsplit)
    refine .inl ⟨hcolon, ?_⟩
    rw [← htake]
    cases f with
    | inet =>
      -- a text that was cut has 45 bytes, more than an IPv4 address
      have hshort := hlibc.inet addrOnly addr haddr
      rw [← htake, List.length_take, INET6_ADDRSTRLEN] at hshort
      refine List.take_of_length_le ?_
      rw [INET6_ADDRSTRLEN]
      omega
    | inet6 =>
      -- an IPv6 address has a colon, whether it was cut or not
      have hmem := hlibc.inet6 addrOnly addr haddr
      rw [← htake] at hmem
      exact absurd (List.mem_of_mem_take hmem) hcolon

/-- A call that returns 0 has split the string, and converted what it split off. -/
theorem converted_of_success {addressFamily : BitVec 32} {lpAddress : Option Memory}
    {lpAddressLength : Option (BitVec 32)} (hlibc : libc.Grammar)
    (h : (wsaStringToAddressA libc (some t) addressFamily lpAddress lpAddressLength).ret = 0) :
    ∃ f addrOnly port mem', Family.ofNat? addressFamily.toNat = some f ∧
      splitPort t = some (addrOnly, port) ∧
      (wsaStringToAddressA libc (some t) addressFamily lpAddress lpAddressLength).address =
        some mem' ∧ libc.inetPton f addrOnly = some (saAddr f mem') := by
  rcases wsaStringToAddressA_cases libc (some t) addressFamily lpAddress lpAddressLength with
    ⟨e, hcall, -⟩ | ⟨t, mem, length, addrOnly, port, f, ⟨rfl⟩, rfl, rfl, hsplit, hfamily, hcall⟩
  · rw [hcall] at h
    have hzero : SOCKET_ERROR = 0 := h
    exact absurd hzero (by decide)
  · rw [hcall] at h ⊢
    obtain ⟨hroom, haddr⟩ := storeAddress_eq_zero_iff.mp h
    obtain ⟨addr, hpton⟩ := Option.ne_none_iff_exists'.mp haddr
    obtain ⟨mem', hstore, -, -, hstored⟩ := storeAddress_spec port mem (not_lt.mp hroom) hpton
    refine ⟨f, addrOnly, port, mem', hfamily, hsplit, congrArg ToAddress.address hstore, ?_⟩
    rw [hpton, hstored (hlibc.size f addrOnly addr hpton)]

/-- **No truncated address.**  Whatever the string: it is refused before anything is stored in the
    array, or the array is filled with the terminated text that is converted, and not left; and if
    the call returns 0, the whole address part of the string is accepted, and what it stands for is
    stored. -/
theorem address_of_success (libc : Libc) (hlibc : libc.Grammar)
    (array : CharArray INET6_ADDRSTRLEN) (t : CString) (ht : 0 ∉ t) (addressFamily : BitVec 32)
    (lpAddress : Option Memory) (lpAddressLength : Option (BitVec 32)) :
    (∀ text port, splitPort t = some (text, port) →
      ∃ stores, fillAddrOnly t = some (stores, port) ∧ (∀ e ∈ stores, e.1 < INET6_ADDRSTRLEN) ∧
        stringIn (storeAll array.bytes stores) = some text) ∧
    (splitPort t = none → fillAddrOnly t = none) ∧
    ((wsaStringToAddressA libc (some t) addressFamily lpAddress lpAddressLength).ret = 0 →
      ∃ f part mem', Family.ofNat? addressFamily.toNat = some f ∧ IsAddressPart t part ∧
        (wsaStringToAddressA libc (some t) addressFamily lpAddress lpAddressLength).address =
          some mem' ∧ libc.inetPton f part = some (saAddr f mem')) := by
  refine ⟨fun text port h => fillAddrOnly_spec array ht h, fillAddrOnly_eq_none.mpr, fun h => ?_⟩
  obtain ⟨f, addrOnly, port, mem', hfamily, hsplit, haddress, hpton⟩ :=
    converted_of_success hlibc h
  exact ⟨f, addrOnly, mem', hfamily, isAddressPart_of_accepted hlibc hsplit hpton, haddress, hpton⟩

theorem ptonLibc_grammar : ptonLibc.Grammar where
  inet _ _ h := (inetPton4_spec h).2.2.1
  inet6 _ _ h := (literal_text (f := .inet6) h).2.mpr rfl
  size _ _ _ h := length_of_inetPton h

/-- "127.0.0.1:80" -/
def localhostPort80 : CString := [49, 50, 55, 46, 48, 46, 48, 46, 49, 58, 56, 48]

/-- The array gets the nine bytes of the address part and their terminator, and they are what is
    converted. -/
theorem address_of_localhost :
    (∃ stores, fillAddrOnly localhostPort80 = some (stores, 80) ∧
      (∀ e ∈ stores, e.1 < INET6_ADDRSTRLEN) ∧
      stringIn (storeAll (List.replicate 46 7) stores) =
        some [49, 50, 55, 46, 48, 46, 48, 46, 49]) ∧
    ∃ f part mem', Family.ofNat? 2 = some f ∧ IsAddressPart localhostPort80 part ∧
      (wsaStringToAddressA ptonLibc (some localhostPort80) 2 (some (fun _ => 0)) (some 16)).address =
        some mem' ∧
      ptonLibc.inetPton f part = some (saAddr f mem') := by
  obtain ⟨hfilled, -, hconverted⟩ := address_of_success ptonLibc ptonLibc_grammar
    ⟨List.replicate 46 7, rfl⟩ localhostPort80 (by decide) 2 (some (fun _ => 0)) (some 16)
  exact ⟨hfilled _ _ (by decide), hconverted (by decide)⟩

end LinuxWinsock.Addr
