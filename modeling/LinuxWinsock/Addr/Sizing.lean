import LinuxWinsock.Addr.Convert
import LinuxWinsock.Lib.WideString

namespace LinuxWinsock.Addr

open Memory CString WideString

/-!
# The length of a printed address

`WSAAddressToStringA` reports the length it needs, and `WSAAddressToStringW` prints into an
array of its own first and widens the text into the caller's buffer.

* `Libc.Prints` — what is documented of `inet_ntop`;
* `sizing_protocol` — a call with too little room reports the length that the next one needs;
* `wide_printing_iff` — the wide call agrees with the narrow one exactly if the text and its
  terminator fit: otherwise it cuts the text, does not end it, and reports success.
-/

/-! ### The text of a socket address -/

/-- What is documented of `inet_ntop` for one address: it has a text of at most 45 ASCII
    characters, and the call fails only where text and terminator do not fit. -/
structure Libc.Prints (libc : Libc) (f : Family) (addr : List Byte) (text : CString) : Prop where
  inetNtop : ∀ size, libc.inetNtop f addr size = if text.length < size then some text else none
  short : text.length < INET6_ADDRSTRLEN
  ascii : Ascii text

/-- The text of an address, a colon and the port of `sa`. -/
def addressText (text : CString) (sa : Memory) : CString :=
  text ++ 58 :: decimal (ntohs (saPort sa)).toNat

section Text

variable {libc : Libc} {f : Family} {sa : Memory} {text : CString}

theorem ascii_decimal (n : Nat) : Ascii (decimal n) := by
  intro c hc
  have hrange : 48 ≤ c.toNat ∧ c.toNat ≤ 57 := by
    simpa [isDigit] using isDigit_of_mem_decimal hc
  refine ⟨fun hzero => ?_, by omega⟩
  rw [hzero] at hrange
  exact absurd hrange.1 (by decide)

theorem ascii_addressText (htext : Ascii text) : Ascii (addressText text sa) := by
  apply htext.append
  intro c hc
  rcases List.mem_cons.mp hc with rfl | hc
  · decide
  · exact ascii_decimal _ c hc

/-- The print buffer has room for every address. -/
theorem length_addressText_lt (htext : text.length < INET6_ADDRSTRLEN) :
    (addressText text sa).length < printSize := by
  have hdigits := length_decimal_port (ntohs (saPort sa))
  simp only [addressText, List.length_append, List.length_cons, printSize, INET6_ADDRSTRLEN] at *
  omega

/-- What is in the print buffer is the text, whole. -/
theorem printAddress_of_prints (hprints : libc.Prints f (saAddr f sa) text) :
    printAddress libc f sa = some (addressText text sa) := by
  have hroom : text.length < printSize := by
    have hshort := hprints.short
    simp only [printSize]
    omega
  rw [printAddress, hprints.inetNtop, if_pos hroom, Option.map_some, snprintf_port hprints.short]
  rfl

end Text

/-! ### The two-call protocol -/

/-- The bytes that `strcpy` writes at `lpszAddressString`. -/
def ToString.written (r : ToString) : List Byte := (r.text.map (· ++ [0])).getD []

/-- `call`, which takes any capacity, prints `t` where it fits, and always reports the room
    that it needs. -/
structure Sizing (t : CString) (call : BitVec 32 → ToString) : Prop where
  succeeds : ∀ c, (call c).ret = 0 ↔ t.length + 1 ≤ c.toNat
  reports : ∀ c, ∃ k, (call c).length = some k ∧ k.toNat = t.length + 1
  writes : ∀ c, (call c).ret = 0 → (call c).written = t ++ [0]
  quiet : ∀ c, (call c).ret ≠ 0 → (call c).written = []

theorem sizing_copyText {t : CString} (ht : t.length + 1 < 2 ^ 32) :
    Sizing t (copyText (some t)) := by
  have hk : (BitVec.ofNat 32 (t.length + 1)).toNat = t.length + 1 := by
    rw [BitVec.toNat_ofNat, Nat.mod_eq_of_lt ht]
  -- the two exits, by the room there is
  have hexit : ∀ c : BitVec 32,
      (c.toNat < t.length + 1 ∧ copyText (some t) c =
        ⟨SOCKET_ERROR, WSAEFAULT, none, some (BitVec.ofNat 32 (t.length + 1))⟩) ∨
      (t.length + 1 ≤ c.toNat ∧ copyText (some t) c =
        ⟨0, 0, some t, some (BitVec.ofNat 32 (t.length + 1))⟩) := by
    intro c
    by_cases hc : c.toNat < t.length + 1
    · exact .inl ⟨hc, by simp only [copyText, if_pos hc]⟩
    · exact .inr ⟨by omega, by simp only [copyText, if_neg hc]⟩
  constructor
  case succeeds =>
    intro c
    rcases hexit c with ⟨hc, heq⟩ | ⟨hc, heq⟩
    · simp [heq, SOCKET_ERROR]
      omega
    · simp [heq, hc]
  case reports =>
    intro c
    rcases hexit c with ⟨_, heq⟩ | ⟨_, heq⟩
    · exact ⟨_, by rw [heq], hk⟩
    · exact ⟨_, by rw [heq], hk⟩
  case writes =>
    intro c hret
    rcases hexit c with ⟨_, heq⟩ | ⟨_, heq⟩
    · simp [heq, SOCKET_ERROR] at hret
    · simp [heq, ToString.written]
  case quiet =>
    intro c hret
    rcases hexit c with ⟨_, heq⟩ | ⟨_, heq⟩
    · simp [heq, ToString.written]
    · simp [heq] at hret

/-- The call with the length it has reported succeeds. -/
theorem Sizing.repeats {t : CString} {call : BitVec 32 → ToString} (h : Sizing t call)
    {c k : BitVec 32} (hk : (call c).length = some k) : (call k).ret = 0 := by
  obtain ⟨k', hk', hlen⟩ := h.reports c
  rw [hk, Option.some.injEq] at hk'
  rw [h.succeeds, hk', hlen]

theorem sizing_of_prints {libc : Libc} {f : Family} {sa : Memory} {text : CString}
    (hfamily : saFamily sa = BitVec.ofNat 16 f.af) (hprints : libc.Prints f (saAddr f sa) text)
    (dwAddressLength : BitVec 32) :
    Sizing (addressText text sa)
      (fun c => wsaAddressToStringA libc (some sa) dwAddressLength true (some c)) := by
  have hlt : (addressText text sa).length < printSize := length_addressText_lt hprints.short
  have hcall : (fun c => wsaAddressToStringA libc (some sa) dwAddressLength true (some c)) =
      copyText (some (addressText text sa)) := by
    ext1 c
    rw [wsaAddressToStringA_family libc hfamily, printAddress_of_prints hprints]
  rw [hcall]
  apply sizing_copyText
  simp only [printSize, INET6_ADDRSTRLEN] at hlt
  omega

/-- **Sizing.**  Each address has a length: the calls with at least that much room succeed and
    write that many bytes, the last of them the only NUL; the others write none.  Every call
    reports the length, so the call is repeated with it and succeeds. -/
theorem sizing_protocol (libc : Libc) (f : Family) (sa : Memory) (text : CString)
    (hfamily : saFamily sa = BitVec.ofNat 16 f.af)
    (hprints : libc.Prints f (saAddr f sa) text) :
    ∃ t k, t = text ++ 58 :: decimal (ntohs (saPort sa)).toNat ∧ 0 ∉ t ∧ k = t.length + 1 ∧
      ∀ dwAddressLength c : BitVec 32,
        let call := fun c => wsaAddressToStringA libc (some sa) dwAddressLength true (some c)
        ((call c).ret = 0 ↔ k ≤ c.toNat) ∧
        ((call c).ret = 0 → (call c).written = t ++ [0] ∧ (call c).written.length = k) ∧
        ((call c).ret ≠ 0 → (call c).written = []) ∧
        ∃ c', (call c).length = some c' ∧ c'.toNat = k ∧ (call c').ret = 0 := by
  refine ⟨_, _, rfl, (ascii_addressText hprints.ascii).nul_not_mem, rfl, ?_⟩
  intro dwAddressLength c
  have hsizing := sizing_of_prints hfamily hprints dwAddressLength
  obtain ⟨c', hc', hlen⟩ := hsizing.reports c
  refine ⟨hsizing.succeeds c, fun hret => ?_, hsizing.quiet c, c', hc', hlen, hsizing.repeats hc'⟩
  have hwrites := hsizing.writes c hret
  refine ⟨hwrites, ?_⟩
  rw [hwrites, List.length_append, List.length_singleton]
  rfl

/-- What `loopbackLibc` says of `::1`. -/
theorem loopbackLibc_prints : loopbackLibc.Prints .inet6 (saAddr .inet6 loopbackAddress)
    [58, 58, 49] where
  inetNtop size := by
    have haddr : saAddr .inet6 loopbackAddress = List.replicate 15 0 ++ [1] := by decide
    simp only [loopbackLibc, haddr, true_and, List.length_cons, List.length_nil]
  short := by decide
  ascii := by simp [Ascii]

/-- `::1` with the port 8080 needs 9 characters: a call without room says so, and the next one
    succeeds. -/
theorem sizing_protocol_loopback : ∃ c : BitVec 32,
    (wsaAddressToStringA loopbackLibc (some loopbackAddress) 28 true (some 0)).length = some c ∧
    c.toNat = 9 ∧
    (wsaAddressToStringA loopbackLibc (some loopbackAddress) 28 true (some c)).ret = 0 := by
  obtain ⟨t, k, rfl, _, rfl, hcalls⟩ := sizing_protocol loopbackLibc .inet6 loopbackAddress
    [58, 58, 49] rfl loopbackLibc_prints
  exact (hcalls 28 0).2.2.2

/-! ### The wide call -/

/-- What `WSAAddressToStringW` leaves behind; `buffer` is the memory from `lpszAddressString`
    on. -/
structure ToStringW where
  ret : Int
  lastError : Int
  buffer : Option (List WChar)
  length : Option (BitVec 32)

/-- `none` where the call reads through a `NULL` pointer, or the scan for the end of the text
    runs out of the memory from `lpszAddressString` on. -/
def wsaAddressToStringW (libc : Libc) (lpsaAddress : Option Memory)
    (dwAddressLength : BitVec 32) (lpszAddressString : Option (List WChar))
    (lpdwAddressStringLength : Option (BitVec 32)) : Option ToStringW :=
  -- the narrow call prints into an array of its own, whatever room the caller has
  let result := wsaAddressToStringA libc lpsaAddress dwAddressLength true
    (some (BitVec.ofNat 32 printSize))
  match result.text with
  | none =>
    some ⟨result.ret, result.lastError, lpszAddressString, lpdwAddressStringLength⟩
  | some text =>
    match lpszAddressString, lpdwAddressStringLength with
    | some out, some capacity =>
      match mbstowcs out text capacity.toNat with
      | (out', none) => some ⟨SOCKET_ERROR, WSAEINVAL, some out', some capacity⟩
      | (out', some _) =>
        (wcslen out').map (fun len => ⟨0, 0, some out', some (BitVec.ofNat 32 (len + 1))⟩)
    | _, _ => none

/-- What the wide call is to leave behind, after the narrow one with the same capacity. -/
structure PrintsAlike (narrow : ToString) (out : List WChar) (capacity : BitVec 32)
    (wide : ToStringW) : Prop where
  ret : wide.ret = 0 ↔ narrow.ret = 0
  length : wide.length = narrow.length
  stored : narrow.ret = 0 → ∃ t, narrow.text = some t ∧ t.length + 1 ≤ capacity.toNat ∧
    wide.buffer = some (widen t ++ 0 :: out.drop (t.length + 1))
  untouched : narrow.ret ≠ 0 → wide.buffer = some out

/-- The call for an address of one of the two families: the text is widened, and what is found
    in the buffer is measured. -/
theorem wsaAddressToStringW_of_prints {libc : Libc} {f : Family} {sa : Memory} {text : CString}
    (hfamily : saFamily sa = BitVec.ofNat 16 f.af) (hprints : libc.Prints f (saAddr f sa) text)
    (dwAddressLength : BitVec 32) (out : List WChar) (capacity : BitVec 32) :
    wsaAddressToStringW libc (some sa) dwAddressLength (some out) (some capacity) =
      match mbstowcs out (addressText text sa) capacity.toNat with
      | (out', none) => some ⟨SOCKET_ERROR, WSAEINVAL, some out', some capacity⟩
      | (out', some _) =>
        (wcslen out').map (fun len => ⟨0, 0, some out', some (BitVec.ofNat 32 (len + 1))⟩) := by
  have hlt : (addressText text sa).length < printSize := length_addressText_lt hprints.short
  have hroom : ¬ (BitVec.ofNat 32 printSize).toNat < (addressText text sa).length + 1 := by
    have hsize : (BitVec.ofNat 32 printSize).toNat = printSize := by decide
    omega
  simp only [wsaAddressToStringW, wsaAddressToStringA_family libc hfamily,
    printAddress_of_prints hprints, copyText, if_neg hroom]

/-- **Wide and narrow printing** agree exactly if the text and its terminator fit. -/
theorem wide_printing_iff (libc : Libc) (f : Family) (sa : Memory) (text : CString)
    (hfamily : saFamily sa = BitVec.ofNat 16 f.af)
    (hprints : libc.Prints f (saAddr f sa) text)
    (dwAddressLength capacity : BitVec 32) (out : List WChar) :
    (∃ wide, wsaAddressToStringW libc (some sa) dwAddressLength (some out) (some capacity) =
        some wide ∧
      PrintsAlike (wsaAddressToStringA libc (some sa) dwAddressLength true (some capacity)) out
        capacity wide) ↔
      text.length + 1 + (decimal (ntohs (saPort sa)).toNat).length + 1 ≤ capacity.toNat := by
  have hascii : Ascii (addressText text sa) := ascii_addressText hprints.ascii
  have hsizing := sizing_of_prints hfamily hprints dwAddressLength
  have hlen : (addressText text sa).length =
      text.length + 1 + (decimal (ntohs (saPort sa)).toNat).length := by
    simp only [addressText, List.length_append, List.length_cons]
    omega
  rw [wsaAddressToStringW_of_prints hfamily hprints, ← hlen]
  constructor
  · rintro ⟨wide, hwide, halike⟩
    by_contra hshort
    -- the narrow call fails, and the wide one reports success if it returns
    have hfails := mt (hsizing.succeeds capacity).mp hshort
    rw [mbstowcs_of_le hascii (by omega)] at hwide
    obtain ⟨len, _, rfl⟩ := Option.map_eq_some_iff.mp hwide
    exact hfails (halike.ret.mp rfl)
  · intro hfits
    have hret := (hsizing.succeeds capacity).mpr hfits
    have hnarrow : ¬ capacity.toNat < (addressText text sa).length + 1 := by omega
    rw [mbstowcs_of_lt hascii (by omega)]
    simp only [wcslen_append hascii, Option.map_some]
    rw [wsaAddressToStringA_family libc hfamily, printAddress_of_prints hprints, copyText,
      if_neg hnarrow]
    exact ⟨_, rfl, Iff.rfl, rfl, fun _ => ⟨_, rfl, hfits, rfl⟩, fun hne => absurd rfl hne⟩

/-- `::1` with the port 8080 has 8 characters, so 9 are enough. -/
theorem wide_printing_loopback : ∃ wide,
    wsaAddressToStringW loopbackLibc (some loopbackAddress) 28 (some (List.replicate 9 255))
        (some 9) = some wide ∧
      PrintsAlike (wsaAddressToStringA loopbackLibc (some loopbackAddress) 28 true (some 9))
        (List.replicate 9 255) 9 wide :=
  (wide_printing_iff loopbackLibc .inet6 loopbackAddress [58, 58, 49] rfl loopbackLibc_prints 28 9
    (List.replicate 9 255)).mpr (by decide)

/-- With room for four, the wide call returns 0 with the first four of them, and counts a
    terminator behind the buffer. -/
theorem wide_printing_cut : ¬ ∃ wide,
    wsaAddressToStringW loopbackLibc (some loopbackAddress) 28 (some (List.replicate 5 0))
        (some 4) = some wide ∧
      PrintsAlike (wsaAddressToStringA loopbackLibc (some loopbackAddress) 28 true (some 4))
        (List.replicate 5 0) 4 wide := by
  rintro ⟨wide, hwide, halike⟩
  have hcut : wsaAddressToStringW loopbackLibc (some loopbackAddress) 28
      (some (List.replicate 5 0)) (some 4) =
        some ⟨0, 0, some [58, 58, 49, 58, 0], some 5⟩ := by rfl
  rw [hcut, Option.some.injEq] at hwide
  subst hwide
  exact absurd (halike.ret.mp rfl) (by decide)

end LinuxWinsock.Addr
