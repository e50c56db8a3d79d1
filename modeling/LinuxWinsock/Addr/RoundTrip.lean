import LinuxWinsock.Addr.Wide

namespace LinuxWinsock.Addr

open Memory CString WideString

/-!
# Narrow and wide texts of one address

An address is printed by a narrow or a wide function, and its text is read by either.

* `wsaStringToAddressA_addressText` — what is read of a printed socket address;
* `socket_address_round_trip` — `WSAAddressToStringA` and `WSAAddressToStringW` print the same
  text, and `WSAStringToAddressA` and `WSAStringToAddressW` read the address back from it;
* `inet_round_trip` — the same for `InetNtopA`, `InetNtopW`, `InetPtonA` and `InetPtonW`.
-/

/-! ### Socket addresses -/

/-- The two have the same family, address and port. -/
structure SameAddress (f : Family) (sa sa' : Memory) : Prop where
  family : saFamily sa' = saFamily sa
  addr : saAddr f sa' = saAddr f sa
  port : saPort sa' = saPort sa

section Socket

variable {libc : Libc} {f : Family} {sa mem : Memory} {text : CString} {length : BitVec 32}

/-- The port is behind the last colon, and the rest is the text of the address. -/
theorem wsaStringToAddressA_addressText (hfamily : saFamily sa = BitVec.ofNat 16 f.af)
    (hshort : text.length < INET6_ADDRSTRLEN) (hpton : libc.inetPton f text = some (saAddr f sa))
    (mem : Memory) (hlen : (f.sockaddrSize : Int) ≤ length.toInt) :
    ∃ mem', wsaStringToAddressA libc (some (addressText text sa)) (BitVec.ofNat 32 f.af)
        (some mem) (some length) = ⟨0, 0, some mem', some (BitVec.ofNat 32 f.sockaddrSize)⟩ ∧
      SameAddress f sa mem' := by
  obtain ⟨mem', hstore, hfam, hport, haddr⟩ :=
    storeAddress_spec ((ntohs (saPort sa)).setWidth 32) mem hlen hpton
  refine ⟨mem', ?_, hfam.trans hfamily.symm, haddr length_loadBytes, ?_⟩
  · rw [wsaStringToAddressA_family, addressText, splitPort_printed hshort]
    exact hstore
  · rw [hport, BitVec.setWidth_setWidth_of_le _ (by decide), BitVec.setWidth_eq, htons_ntohs]

/-- The wide text, in a buffer with room for it. -/
theorem wsaAddressToStringW_of_room (hfamily : saFamily sa = BitVec.ofNat 16 f.af)
    (hprints : libc.Prints f (saAddr f sa) text) (dwAddressLength : BitVec 32)
    (out : List WChar) {capacity : BitVec 32}
    (hroom : (addressText text sa).length + 1 ≤ capacity.toNat) :
    wsaAddressToStringW libc (some sa) dwAddressLength (some out) (some capacity) =
      some ⟨0, 0,
        some (widen (addressText text sa) ++ 0 :: out.drop ((addressText text sa).length + 1)),
        some (BitVec.ofNat 32 ((addressText text sa).length + 1))⟩ := by
  have hascii : Ascii (addressText text sa) := ascii_addressText hprints.ascii
  rw [wsaAddressToStringW_of_prints hfamily hprints, mbstowcs_of_lt hascii (by omega)]
  simp only [wcslen_append hascii, Option.map_some]

/-- **Socket addresses.**  With room for the text of an address, its port and a terminator, the
    narrow and the wide function print the same text, and the narrow and the wide function read the
    address back from it, whatever was on the stack and in the buffers. -/
theorem socket_address_round_trip (libc : Libc) (f : Family) (sa mem : Memory) (text : CString)
    (hfamily : saFamily sa = BitVec.ofNat 16 f.af)
    (hprints : libc.Prints f (saAddr f sa) text)
    (hpton : libc.inetPton f text = some (saAddr f sa))
    (dwAddressLength capacity length : BitVec 32) (out : List WChar)
    (hroom : text.length + 1 + (decimal (ntohs (saPort sa)).toNat).length + 1 ≤ capacity.toNat)
    (hlen : (f.sockaddrSize : Int) ≤ length.toInt) :
    ∃ t wide mem',
      (wsaAddressToStringA libc (some sa) dwAddressLength true (some capacity)).text = some t ∧
      wsaAddressToStringW libc (some sa) dwAddressLength (some out) (some capacity) = some wide ∧
      wide.ret = 0 ∧ wide.buffer.bind (terminated 0) = some (widen t) ∧
      wsaStringToAddressA libc (some t) (BitVec.ofNat 32 f.af) (some mem) (some length) =
        ⟨0, 0, some mem', some (BitVec.ofNat 32 f.sockaddrSize)⟩ ∧
      (∀ buffer, wsaStringToAddressW libc buffer (widen t) (BitVec.ofNat 32 f.af) (some mem)
        (some length) = some ⟨0, 0, some mem', some (BitVec.ofNat 32 f.sockaddrSize)⟩) ∧
      SameAddress f sa mem' := by
  have hascii : Ascii (addressText text sa) := ascii_addressText hprints.ascii
  have hlength : (addressText text sa).length =
      text.length + 1 + (decimal (ntohs (saPort sa)).toNat).length := by
    simp only [addressText, List.length_append, List.length_cons]
    omega
  have hcopied : ¬ capacity.toNat < (addressText text sa).length + 1 := by omega
  obtain ⟨mem', hread, hsame⟩ :=
    wsaStringToAddressA_addressText hfamily hprints.short hpton mem hlen
  refine ⟨addressText text sa, _, mem', ?_, wsaAddressToStringW_of_room hfamily hprints
    dwAddressLength out (by omega), rfl, ?_, hread, fun buffer => ?_, hsame⟩
  · rw [wsaAddressToStringA_family libc hfamily, printAddress_of_prints hprints, copyText,
      if_neg hcopied]
  · show terminated 0 _ = _
    exact terminated_append hascii.widen _
  · have hfits : (widen (addressText text sa)).length < printSize := by
      rw [length_widen]
      exact length_addressText_lt hprints.short
    rw [wsaStringToAddressW_of_ascii (ascii_widen hascii), if_pos hfits, narrow_widen, hread]

end Socket

/-- `::1` with the port 8080, in wide characters and back. -/
theorem socket_address_round_trip_loopback : ∃ mem',
    wsaStringToAddressW loopbackLibc (zeroArray printSize)
        (widen [58, 58, 49, 58, 56, 48, 56, 48]) 10 (some (fun _ => 255)) (some 28) =
      some ⟨0, 0, some mem', some 28⟩ ∧ SameAddress .inet6 loopbackAddress mem' := by
  have hpton : loopbackLibc.inetPton .inet6 [58, 58, 49] =
      some (saAddr .inet6 loopbackAddress) := by decide
  obtain ⟨t, wide, mem', htext, -, -, -, -, hread, hsame⟩ :=
    socket_address_round_trip loopbackLibc .inet6 loopbackAddress (fun _ => 255) [58, 58, 49] rfl
      loopbackLibc_prints hpton 28 9 28 [] (by decide) (by decide)
  have ht : t = [58, 58, 49, 58, 56, 48, 56, 48] := by
    have hprinted : (wsaAddressToStringA loopbackLibc (some loopbackAddress) 28 true
        (some 9)).text = some [58, 58, 49, 58, 56, 48, 56, 48] := by decide
    exact Option.some.inj (htext.symm.trans hprinted)
  subst ht
  exact ⟨mem', hread _, hsame⟩

/-! ### Addresses without a port -/

section Inet

variable {libc : Libc} {f : Family} {family : BitVec 32} {pAddr : Memory} {text : CString}

/-- **Addresses.**  With room for the text of an address and a terminator, `InetNtopA` and
    `InetNtopW` print the same text, and `InetPtonA` and `InetPtonW` read the address back from
    it. -/
theorem inet_round_trip (libc : Libc) (f : Family) (family : BitVec 32) (pAddr : Memory)
    (text : CString) (hfamily : Family.ofNat? family.toNat = some f)
    (hprints : libc.Prints f (pAddr.loadBytes 0 f.addrSize) text)
    (hpton : libc.inetPton f text = some (pAddr.loadBytes 0 f.addrSize)) (out : List WChar)
    (n : BitVec 64) (hroom : text.length < n.toNat % 2 ^ 32) :
    inetNtopA libc family pAddr n = some text ∧
      (inetNtopW libc family pAddr out n).found = true ∧
      terminated 0 (inetNtopW libc family pAddr out n).buffer = some (widen text) ∧
      inetPtonA libc family text = ⟨1, none, some (pAddr.loadBytes 0 f.addrSize)⟩ ∧
      ∀ buffer, inetPtonW libc buffer family (widen text) =
        some ⟨1, none, some (pAddr.loadBytes 0 f.addrSize)⟩ := by
  have hcut : (n.setWidth 32).toNat = n.toNat % 2 ^ 32 := BitVec.toNat_setWidth 32 n
  have hwide : text.length < n.toNat := Nat.lt_of_lt_of_le hroom (Nat.mod_le _ _)
  have hread : inetPtonA libc family text = ⟨1, none, some (pAddr.loadBytes 0 f.addrSize)⟩ := by
    simp only [inetPtonA, hfamily, hpton]
  refine ⟨?_, ?_, ?_, hread, fun buffer => ?_⟩
  · rw [inetNtopA_of_prints hfamily hprints, if_pos (by omega)]
  · rw [inetNtopW_of_prints hfamily hprints, if_pos hwide]
  · rw [inetNtopW_of_prints hfamily hprints, if_pos hwide]
    exact terminated_append hprints.ascii.widen _
  · have hfits : (widen text).length < INET6_ADDRSTRLEN := by
      rw [length_widen]
      exact hprints.short
    rw [inetPtonW_of_ascii (ascii_widen hprints.ascii), if_pos hfits, narrow_widen, hread]

end Inet

/-- `::1` in wide characters and back. -/
theorem inet_round_trip_loopback :
    inetPtonW loopbackLibc (zeroArray INET6_ADDRSTRLEN) 10 (widen [58, 58, 49]) =
      some ⟨1, none, some (List.replicate 15 0 ++ [1])⟩ := by
  have hprints := loopbackBytes_prints .inet6 rfl
  have hpton : loopbackLibc.inetPton .inet6 [58, 58, 49] =
      some (loopbackBytes.loadBytes 0 Family.inet6.addrSize) := by decide
  have hall := inet_round_trip loopbackLibc .inet6 10 loopbackBytes [58, 58, 49] rfl hprints hpton []
    4 (by decide)
  exact hall.2.2.2.2 _

end LinuxWinsock.Addr
