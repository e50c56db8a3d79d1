import LinuxWinsock.Api
import LinuxWinsock.Lib.CString

namespace LinuxWinsock.Addr

open Memory CString

/-!
# Socket addresses and their text

`WSAAddressToStringA` and `WSAStringToAddressA` of `wsa_addr.c`, over the bytes of a
`sockaddr_in` or `sockaddr_in6`.  `inet_ntop` and `inet_pton` are parameters.

* `wsaAddressToStringA`, `wsaStringToAddressA` — the two functions, with the results of all
  their exits;
* `splitPort_printed` — the last colon of a printed address is the one in front of its port;
* `address_of_string_of_address` — the text of an address is read back as the same address.
-/

/-! ### Addresses -/

/-- The two address families. -/
inductive Family where
  | inet
  | inet6
  deriving DecidableEq

namespace Family

/-- `AF_INET` or `AF_INET6`. -/
def af : Family → Nat
  | inet => 2
  | inet6 => 10

/-- The size of `sockaddr_in` or `sockaddr_in6`. -/
def sockaddrSize : Family → Nat
  | inet => 16
  | inet6 => 28

/-- The offset of `sin_addr` or `sin6_addr`. -/
def addrOffset : Family → Nat
  | inet => 4
  | inet6 => 8

/-- The size of an `in_addr` or `in6_addr`. -/
def addrSize : Family → Nat
  | inet => 4
  | inet6 => 16

/-- The family that an address or a caller names. -/
def ofNat? (n : Nat) : Option Family :=
  if n = inet.af then some inet else if n = inet6.af then some inet6 else none

@[simp] theorem ofNat?_af (f : Family) : ofNat? f.af = some f := by
  cases f <;> rfl

end Family

/-- `sa_family` -/
def saFamily (sa : Memory) : BitVec 16 := sa.load16 0

/-- `sin_port` or `sin6_port`, in network order. -/
def saPort (sa : Memory) : BitVec 16 := sa.load16 2

/-- `sin_addr` or `sin6_addr`. -/
def saAddr (f : Family) (sa : Memory) : List Byte := sa.loadBytes f.addrOffset f.addrSize

/-- The conversions of the C library. -/
structure Libc where
  /-- The text of the address in an array of the given size; `none` for `NULL`. -/
  inetNtop : Family → List Byte → Nat → Option CString
  /-- The address, or `none` if the text is not one. -/
  inetPton : Family → CString → Option (List Byte)

/-! ### Printing -/

def INET6_ADDRSTRLEN : Nat := 46

/-- The size of the print buffer. -/
def printSize : Nat := INET6_ADDRSTRLEN + 16

/-- What `WSAAddressToStringA` leaves behind: its result, the last error, the text at
    `lpszAddressString` if it is written, and the length. -/
structure ToString where
  ret : Int
  lastError : Int
  text : Option CString
  length : Option (BitVec 32)

/-- The print buffer after the branch of the family: the text of the address, a colon and the
    port. -/
def printAddress (libc : Libc) (f : Family) (sa : Memory) : Option CString :=
  (libc.inetNtop f (saAddr f sa) printSize).map (fun text =>
    text ++ snprintf (printSize - text.length) (58 :: decimal (ntohs (saPort sa)).toNat))

/-- The exits after the branches: no text, not enough room, and the copy. -/
def copyText (buffer : Option CString) (capacity : BitVec 32) : ToString :=
  match buffer with
  | none => ⟨SOCKET_ERROR, WSAEFAULT, none, some capacity⟩
  | some text =>
    if capacity.toNat < text.length + 1 then
      ⟨SOCKET_ERROR, WSAEFAULT, none, some (BitVec.ofNat 32 (text.length + 1))⟩
    else ⟨0, 0, some text, some (BitVec.ofNat 32 (text.length + 1))⟩

/-- `hasString` tells whether `lpszAddressString` is not `NULL`; the length of the address is
    not looked at. -/
def wsaAddressToStringA (libc : Libc) (lpsaAddress : Option Memory)
    (_dwAddressLength : BitVec 32) (hasString : Bool)
    (lpdwAddressStringLength : Option (BitVec 32)) : ToString :=
  match lpsaAddress, hasString, lpdwAddressStringLength with
  | some sa, true, some capacity =>
    match Family.ofNat? (saFamily sa).toNat with
    | some f => copyText (printAddress libc f sa) capacity
    | none => ⟨SOCKET_ERROR, WSAEAFNOSUPPORT, none, some capacity⟩
  | _, _, _ => ⟨SOCKET_ERROR, WSAEFAULT, none, lpdwAddressStringLength⟩

/-! ### Reading -/

/-- What `WSAStringToAddressA` leaves behind: its result, the last error, the memory at
    `lpAddress` and the length. -/
structure ToAddress where
  ret : Int
  lastError : Int
  address : Option Memory
  length : Option (BitVec 32)

/-- The array `addr_only` and the port: the text up to the last colon, and the number after
    it.  `none` if the text does not fit. -/
def splitPort (s : CString) : Option (CString × BitVec 32) :=
  match strrchr s 58 with
  | some i =>
    -- the text and its terminator have to fit `addr_only`
    if INET6_ADDRSTRLEN ≤ i then none else some (s.take i, atoi (s.drop (i + 1)))
  -- without a colon the text is cut to the array, and the port is 0
  | none => some (s.take (INET6_ADDRSTRLEN - 1), 0)

/-- The branch of the family: the room is checked, the address is cleared and its family and
    port are stored, and the text is converted. -/
def storeAddress (libc : Libc) (f : Family) (addrOnly : CString) (port : BitVec 32)
    (mem : Memory) (length : BitVec 32) : ToAddress :=
  if length.toInt < f.sockaddrSize then
    ⟨SOCKET_ERROR, WSAEFAULT, some mem, some (BitVec.ofNat 32 f.sockaddrSize)⟩
  else
    let cleared := mem.storeBytes 0 (List.replicate f.sockaddrSize 0)
    let named := (cleared.store16 0 (BitVec.ofNat 16 f.af)).store16 2 (htons (port.setWidth 16))
    match libc.inetPton f addrOnly with
    | some addr =>
      ⟨0, 0, some (named.storeBytes f.addrOffset addr), some (BitVec.ofNat 32 f.sockaddrSize)⟩
    | none =>
      -- family, port and length are already stored when the text turns out to be no address
      ⟨SOCKET_ERROR, WSAEINVAL, some named, some (BitVec.ofNat 32 f.sockaddrSize)⟩

def wsaStringToAddressA (libc : Libc) (addressString : Option CString) (addressFamily : BitVec 32)
    (lpAddress : Option Memory) (lpAddressLength : Option (BitVec 32)) : ToAddress :=
  match addressString, lpAddress, lpAddressLength with
  | some s, some mem, some length =>
    match splitPort s with
    | none => ⟨SOCKET_ERROR, WSAEINVAL, some mem, some length⟩
    | some (addrOnly, port) =>
      match Family.ofNat? addressFamily.toNat with
      | some f => storeAddress libc f addrOnly port mem length
      | none => ⟨SOCKET_ERROR, WSAEAFNOSUPPORT, some mem, some length⟩
  | _, _, _ => ⟨SOCKET_ERROR, WSAEFAULT, lpAddress, lpAddressLength⟩

/-- A call is refused with everything left as it was, or it gets to the conversion of the text. -/
theorem wsaStringToAddressA_cases (libc : Libc) (addressString : Option CString)
    (addressFamily : BitVec 32) (lpAddress : Option Memory) (lpAddressLength : Option (BitVec 32)) :
    (∃ e, wsaStringToAddressA libc addressString addressFamily lpAddress lpAddressLength =
        ⟨SOCKET_ERROR, e, lpAddress, lpAddressLength⟩ ∧
      (e = WSAEFAULT → addressString = none ∨ lpAddress = none ∨ lpAddressLength = none) ∧
      ∀ t, addressString = some t → lpAddress ≠ none → lpAddressLength ≠ none →
        splitPort t = none ∨ Family.ofNat? addressFamily.toNat = none) ∨
    ∃ t mem length addrOnly port f, addressString = some t ∧ lpAddress = some mem ∧
      lpAddressLength = some length ∧ splitPort t = some (addrOnly, port) ∧
      Family.ofNat? addressFamily.toNat = some f ∧
      wsaStringToAddressA libc addressString addressFamily lpAddress lpAddressLength =
        storeAddress libc f addrOnly port mem length := by
  cases addressString with
  | none => exact .inl ⟨WSAEFAULT, rfl, fun _ => .inl rfl, nofun⟩
  | some t =>
    cases lpAddress with
    | none => exact .inl ⟨WSAEFAULT, rfl, fun _ => .inr (.inl rfl), fun _ _ h => absurd rfl h⟩
    | some mem =>
      cases lpAddressLength with
      | none =>
        exact .inl ⟨WSAEFAULT, rfl, fun _ => .inr (.inr rfl), fun _ _ _ h => absurd rfl h⟩
      | some length =>
        simp only [wsaStringToAddressA]
        cases hsplit : splitPort t with
        | none =>
          refine .inl ⟨WSAEINVAL, rfl, fun h => absurd h (by decide), ?_⟩
          rintro t ⟨rfl⟩ - -
          exact .inl hsplit
        | some r =>
          cases hfamily : Family.ofNat? addressFamily.toNat with
          | none => exact .inl ⟨WSAEAFNOSUPPORT, rfl, fun h => absurd h (by decide),
              fun _ _ _ _ => .inr rfl⟩
          | some f => exact .inr ⟨t, mem, length, r.1, r.2, f, rfl, rfl, rfl, hsplit, rfl, rfl⟩

/-- A string is split at its last colon. -/
theorem splitPort_colon {s : CString} (p : CString) (hs : 58 ∉ s) :
    splitPort (p ++ 58 :: s) =
      if INET6_ADDRSTRLEN ≤ p.length then none else some (p, atoi s) := by
  have htake : (p ++ 58 :: s).take p.length = p := List.take_left
  have hdrop : (p ++ 58 :: s).drop (p.length + 1) = s := by
    rw [← List.drop_drop, List.drop_left]
    rfl
  unfold splitPort
  rw [strrchr_append p hs]
  simp only [htake, hdrop]

/-- The call for one of the two families. -/
theorem wsaStringToAddressA_family (libc : Libc) (t : CString) (f : Family) (mem : Memory)
    (length : BitVec 32) :
    wsaStringToAddressA libc (some t) (BitVec.ofNat 32 f.af) (some mem) (some length) =
      match splitPort t with
      | none => ⟨SOCKET_ERROR, WSAEINVAL, some mem, some length⟩
      | some (addrOnly, port) => storeAddress libc f addrOnly port mem length := by
  have hnat : (BitVec.ofNat 32 f.af).toNat = f.af := by cases f <;> rfl
  cases hsplit : splitPort t with
  | none => simp only [wsaStringToAddressA, hsplit]
  | some => simp only [wsaStringToAddressA, hsplit, hnat, Family.ofNat?_af]

/-- The call on a string with a colon. -/
theorem wsaStringToAddressA_colon {s : CString} (libc : Libc) (p : CString) (hs : 58 ∉ s)
    (f : Family) (mem : Memory) (length : BitVec 32) :
    wsaStringToAddressA libc (some (p ++ 58 :: s)) (BitVec.ofNat 32 f.af) (some mem)
        (some length) =
      if INET6_ADDRSTRLEN ≤ p.length then ⟨SOCKET_ERROR, WSAEINVAL, some mem, some length⟩
      else storeAddress libc f p (atoi s) mem length := by
  rw [wsaStringToAddressA_family, splitPort_colon p hs]
  by_cases hlong : INET6_ADDRSTRLEN ≤ p.length
  · rw [if_pos hlong, if_pos hlong]
  · rw [if_neg hlong, if_neg hlong]

/-! ### The round trip -/

/-- What is assumed of the conversions for one address: its text fits `INET6_ADDRSTRLEN`, and
    is read back. -/
def Libc.RoundTrips (libc : Libc) (f : Family) (addr : List Byte) : Prop :=
  ∀ size text, libc.inetNtop f addr size = some text →
    text.length < INET6_ADDRSTRLEN ∧ libc.inetPton f text = some addr

/-- A success is the copy of the print buffer. -/
theorem text_of_copyText {buffer : Option CString} {capacity : BitVec 32} {t : CString}
    (h : (copyText buffer capacity).text = some t) : buffer = some t := by
  unfold copyText at h
  split at h
  · cases h
  · split at h
    · cases h
    · exact h

/-- A port has at most five digits. -/
theorem length_decimal_port (port : BitVec 16) : (decimal port.toNat).length ≤ 5 := by
  apply length_decimal_le (by decide)
  have hlt := port.isLt
  omega

/-- The print buffer has room for the port behind any text of an address. -/
theorem snprintf_port {text : CString} (h : text.length < INET6_ADDRSTRLEN) (port : BitVec 16) :
    snprintf (printSize - text.length) (58 :: decimal port.toNat) = 58 :: decimal port.toNat := by
  have hdigits := length_decimal_port port
  apply snprintf_of_lt
  simp only [List.length_cons, printSize, INET6_ADDRSTRLEN] at *
  omega

/-- Nothing is cut off a printed address. -/
theorem printAddress_eq {libc : Libc} {f : Family} {sa : Memory} {t : CString}
    (hlibc : libc.RoundTrips f (saAddr f sa)) (h : printAddress libc f sa = some t) :
    ∃ text, t = text ++ 58 :: decimal (ntohs (saPort sa)).toNat ∧
      text.length < INET6_ADDRSTRLEN ∧ libc.inetPton f text = some (saAddr f sa) := by
  obtain ⟨text, htext, rfl⟩ := Option.map_eq_some_iff.mp h
  obtain ⟨hlen, hpton⟩ := hlibc _ _ htext
  refine ⟨text, ?_, hlen, hpton⟩
  rw [snprintf_port hlen]

/-- The call for an address of one of the two families. -/
theorem wsaAddressToStringA_family {f : Family} {sa : Memory} (libc : Libc)
    (hfamily : saFamily sa = BitVec.ofNat 16 f.af) (dwAddressLength capacity : BitVec 32) :
    wsaAddressToStringA libc (some sa) dwAddressLength true (some capacity) =
      copyText (printAddress libc f sa) capacity := by
  have hnat : (saFamily sa).toNat = f.af := by
    rw [hfamily]
    cases f <;> rfl
  simp only [wsaAddressToStringA, hnat, Family.ofNat?_af]

/-- **The last colon** of a printed address is the one in front of its port, whatever colons
    its text has. -/
theorem splitPort_printed {text : CString} {port : BitVec 16} (h : text.length < INET6_ADDRSTRLEN) :
    splitPort (text ++ 58 :: decimal port.toNat) = some (text, port.setWidth 32) := by
  have hcolon : (58 : Byte) ∉ decimal port.toNat := by
    intro hmem
    exact absurd (isDigit_of_mem_decimal hmem) (by decide)
  have hatoi : atoi (decimal port.toNat) = port.setWidth 32 := by
    have hport := port.isLt
    rw [atoi_decimal (by omega), BitVec.ofNat_toNat]
  rw [splitPort_colon text hcolon, if_neg (by omega), hatoi]

/-- What a branch stores is read back: the family, the port and the address. -/
theorem storeAddress_spec {libc : Libc} {f : Family} {addrOnly : CString} {length : BitVec 32}
    {addr : List Byte} (port : BitVec 32) (mem : Memory)
    (hlen : (f.sockaddrSize : Int) ≤ length.toInt)
    (hpton : libc.inetPton f addrOnly = some addr) :
    ∃ mem', storeAddress libc f addrOnly port mem length =
        ⟨0, 0, some mem', some (BitVec.ofNat 32 f.sockaddrSize)⟩ ∧
      saFamily mem' = BitVec.ofNat 16 f.af ∧ saPort mem' = htons (port.setWidth 16) ∧
      (addr.length = f.addrSize → saAddr f mem' = addr) := by
  have hroom : ¬ length.toInt < f.sockaddrSize := by omega
  have hafter : 4 ≤ f.addrOffset := by cases f <;> decide
  unfold storeAddress
  rw [if_neg hroom, hpton]
  refine ⟨_, rfl, ?_, ?_, ?_⟩
  · unfold saFamily
    rw [load16_storeBytes_of_disjoint (.inl (by omega)), store16,
      load16_storeBytes_of_disjoint (.inl (by omega)), load16_store16]
  · unfold saPort
    rw [load16_storeBytes_of_disjoint (.inl (by omega)), load16_store16]
  · intro haddr
    unfold saAddr
    rw [← haddr, loadBytes_storeBytes]

/-- **Round trip.**  If the text of an address was printed, it is read back as an address of
    the same family with the same bytes and the same port. -/
theorem address_of_string_of_address (libc : Libc) (f : Family) (sa mem : Memory) (t : CString)
    (dwAddressLength capacity length : BitVec 32)
    (hfamily : saFamily sa = BitVec.ofNat 16 f.af)
    (hlibc : libc.RoundTrips f (saAddr f sa))
    (hto : (wsaAddressToStringA libc (some sa) dwAddressLength true (some capacity)).ret = 0 ∧
      (wsaAddressToStringA libc (some sa) dwAddressLength true (some capacity)).text = some t)
    (hlen : (f.sockaddrSize : Int) ≤ length.toInt) :
    ∃ mem', wsaStringToAddressA libc (some t) (BitVec.ofNat 32 f.af) (some mem) (some length) =
        ⟨0, 0, some mem', some (BitVec.ofNat 32 f.sockaddrSize)⟩ ∧
      saFamily mem' = saFamily sa ∧ saAddr f mem' = saAddr f sa ∧ saPort mem' = saPort sa := by
  have hprint := wsaAddressToStringA_family libc hfamily dwAddressLength capacity
  rw [hprint] at hto
  -- the text is that of the address, a colon and the port, and the reader splits it there
  obtain ⟨text, rfl, hfits, hpton⟩ := printAddress_eq hlibc (text_of_copyText hto.2)
  obtain ⟨mem', hstore, hfam, hport, haddr⟩ :=
    storeAddress_spec ((ntohs (saPort sa)).setWidth 32) mem hlen hpton
  refine ⟨mem', ?_, hfam.trans hfamily.symm, haddr length_loadBytes, ?_⟩
  · rw [wsaStringToAddressA_family, splitPort_printed hfits]
    exact hstore
  · rw [hport, BitVec.setWidth_setWidth_of_le _ (by decide), BitVec.setWidth_eq, htons_ntohs]

/-- The conversions of `::1`. -/
def loopbackLibc : Libc where
  inetNtop f addr size :=
    if f = .inet6 ∧ addr = List.replicate 15 0 ++ [1] ∧ 3 < size then some [58, 58, 49] else none
  inetPton f text :=
    if f = .inet6 ∧ text = [58, 58, 49] then some (List.replicate 15 0 ++ [1]) else none

/-- A `sockaddr_in6` of `::1` with the port 8080. -/
def loopbackAddress : Memory :=
  fun i => ([10, 0, 31, 144] ++ List.replicate 19 0 ++ [1]).getD i 0

/-- `::1:8080` is read back as `::1` and the port 8080. -/
theorem address_of_string_of_loopback : ∃ mem',
    wsaStringToAddressA loopbackLibc (some [58, 58, 49, 58, 56, 48, 56, 48]) 10
      (some (fun _ => 255)) (some 28) = ⟨0, 0, some mem', some 28⟩ ∧
    saFamily mem' = 10 ∧ saAddr .inet6 mem' = List.replicate 15 0 ++ [1] ∧
    saPort mem' = htons 8080 := by
  have hlibc : loopbackLibc.RoundTrips .inet6 (saAddr .inet6 loopbackAddress) := by
    intro size text htext
    simp only [loopbackLibc] at htext
    split at htext
    · obtain rfl := Option.some.inj htext
      exact ⟨by decide, rfl⟩
    · cases htext
  exact address_of_string_of_address loopbackLibc .inet6 loopbackAddress (fun _ => 255)
    [58, 58, 49, 58, 56, 48, 56, 48] 28 62 28 rfl hlibc (by decide) (by decide)

end LinuxWinsock.Addr
