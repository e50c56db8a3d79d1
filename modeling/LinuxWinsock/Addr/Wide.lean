import LinuxWinsock.Addr.Copies
import LinuxWinsock.Addr.Sizing

namespace LinuxWinsock.Addr

open Memory WideString

/-!
# The wide wrappers

Each wide function narrows its text into an array on the stack, calls the narrow function, and
widens the text that comes back into the caller's buffer.

* `narrowing_iff` — the narrow function gets the caller's text exactly if it is shorter than the
  array: of a longer one, the array holds no string at all;
* `widening_iff` — the text that comes back arrives whole, or is refused, exactly if the caller's
  buffer has room for it where the array does.
-/

/-! ### `InetPton`, `WSAStringToAddress` and their texts -/

/-- What `InetPtonA` and `InetPtonW` leave behind: the result, the last error if it is set, and
    what is written at `pAddrBuf`. -/
structure Pton where
  ret : Int
  lastError : Option Int
  addr : Option (List Byte)

def inetPtonA (libc : Libc) (family : BitVec 32) (pszAddrString : CString) : Pton :=
  match Family.ofNat? family.toNat with
  | none => ⟨-1, none, none⟩
  | some f =>
    match libc.inetPton f pszAddrString with
    | none => ⟨0, none, none⟩
    | some addr => ⟨1, none, some addr⟩

/-- `none` where `inet_pton` is called with an array that holds no string. -/
def inetPtonW (libc : Libc) (buffer : CharArray INET6_ADDRSTRLEN) (family : BitVec 32)
    (pszAddrString : WString) : Option Pton :=
  match wcstombs buffer.bytes pszAddrString INET6_ADDRSTRLEN with
  | (_, none) => some ⟨-1, some WSAEINVAL, none⟩
  | (bytes, some _) => (stringIn bytes).map (inetPtonA libc family)

/-- `none` where `WSAStringToAddressA` reads beyond the array. -/
def wsaStringToAddressW (libc : Libc) (buffer : CharArray printSize) (addressString : WString)
    (addressFamily : BitVec 32) (lpAddress : Option Memory)
    (lpAddressLength : Option (BitVec 32)) : Option ToAddress :=
  match wcstombs buffer.bytes addressString printSize with
  | (_, none) => some ⟨SOCKET_ERROR, WSAEINVAL, lpAddress, lpAddressLength⟩
  | (bytes, some _) =>
    match lpAddress, lpAddressLength with
    | some mem, some length =>
      (stringIn bytes).map
        (fun s => wsaStringToAddressA libc (some s) addressFamily (some mem) (some length))
    -- a `NULL` pointer is refused before the text is read
    | _, _ => some ⟨SOCKET_ERROR, WSAEFAULT, lpAddress, lpAddressLength⟩

section Narrowing

variable {s : WString} {n : Nat}

/-- What is in the array is read as the caller's text, or not at all. -/
theorem inetPtonW_of_ascii (hs : Ascii s) (libc : Libc) (buffer : CharArray INET6_ADDRSTRLEN)
    (family : BitVec 32) :
    inetPtonW libc buffer family s =
      if s.length < INET6_ADDRSTRLEN then some (inetPtonA libc family (narrow s)) else none := by
  obtain ⟨bytes, len, hconv, hstring⟩ := wcstombs_array hs buffer
  simp only [inetPtonW, hconv, hstring]
  split <;> simp

theorem wsaStringToAddressW_of_ascii (hs : Ascii s) (libc : Libc) (buffer : CharArray printSize)
    (addressFamily : BitVec 32) (mem : Memory) (length : BitVec 32) :
    wsaStringToAddressW libc buffer s addressFamily (some mem) (some length) =
      if s.length < printSize then
        some (wsaStringToAddressA libc (some (narrow s)) addressFamily (some mem) (some length))
      else none := by
  obtain ⟨bytes, len, hconv, hstring⟩ := wcstombs_array hs buffer
  simp only [wsaStringToAddressW, hconv, hstring]
  split <;> simp

/-- A parameter is narrowed, and read from its array if it is shorter than that. -/
theorem narrowParam_of_ascii {p : Option WString} (hp : ∀ s ∈ p, Ascii s) (array : CharArray n) :
    ∃ bytes, narrowParam array p = some bytes ∧
      readParam bytes = if ∀ s ∈ p, s.length < n then some (p.map narrow) else none := by
  cases p with
  | none => exact ⟨none, rfl, by simp [readParam]⟩
  | some s =>
    obtain ⟨bytes, len, hconv, hstring⟩ := wcstombs_array (hp s rfl) array
    refine ⟨some bytes, by simp only [narrowParam, hconv], ?_⟩
    simp only [readParam, hstring, Option.mem_some_iff, forall_eq', Option.map_some]
    split <;> simp

/-- `GetAddrInfoA` -/
def getAddrInfoA (getaddrinfo : Lookup) (pNodeName pServiceName : Option CString)
    (pHints : Option AddrInfo) : Except Int (List AddrInfo) :=
  getaddrinfo pNodeName pServiceName pHints

/-- What `GetAddrInfoW` makes of the result of the narrow call: the code, or a copy. -/
def answer (A : Allocator Block) (L : Ledger Block) :
    Except Int (List AddrInfo) → Option GetAddrInfo
  | .error ret => some ⟨ret, none, none, L, 0⟩
  | .ok result => copyLoop A result L none none

theorem answer_isSome (A : Allocator Block) (h : Heap Block)
    (r : Except Int (List AddrInfo)) : (answer A (Ledger.start h) r).isSome = true := by
  cases r with
  | error ret => rfl
  | ok result =>
    obtain ⟨o, ho, _⟩ := copyLoop_allOrNothing_iff A h result
    simp [answer, ho]

theorem getAddrInfoW_of_ascii {pNodeName pServiceName : Option WString}
    (hnode : ∀ s ∈ pNodeName, Ascii s) (hservice : ∀ s ∈ pServiceName, Ascii s)
    (getaddrinfo : Lookup) (A : Allocator Block) (L : Ledger Block)
    (nodeBuffer serviceBuffer : CharArray 256) (pHints : Option ADDRINFOW) :
    getAddrInfoW getaddrinfo A L nodeBuffer serviceBuffer pNodeName pServiceName pHints =
      if (∀ s ∈ pNodeName, s.length < 256) ∧ ∀ s ∈ pServiceName, s.length < 256 then
        answer A L (getAddrInfoA getaddrinfo (pNodeName.map narrow) (pServiceName.map narrow)
          (pHints.map ADDRINFOW.toHints))
      else none := by
  obtain ⟨node, hnarrow, hread⟩ := narrowParam_of_ascii hnode nodeBuffer
  obtain ⟨service, hnarrow', hread'⟩ := narrowParam_of_ascii hservice serviceBuffer
  simp only [getAddrInfoW, hnarrow, hnarrow', hread, hread']
  by_cases hfits : (∀ s ∈ pNodeName, s.length < 256) ∧ ∀ s ∈ pServiceName, s.length < 256
  · rw [if_pos hfits, if_pos hfits.1, if_pos hfits.2, getAddrInfoA]
    cases hcall : getaddrinfo (pNodeName.map narrow) (pServiceName.map narrow)
      (pHints.map ADDRINFOW.toHints) <;> simp only [answer, hcall]
  · rw [if_neg hfits]
    rcases not_and_or.mp hfits with hlong | hlong
    · simp only [if_neg hlong]
    · rw [if_neg hlong]
      cases (if ∀ s ∈ pNodeName, s.length < 256 then some (pNodeName.map narrow) else none) <;> rfl

end Narrowing

/-- **Narrowing.**  Each wrapper has the result of the narrow function on the caller's text
    exactly if the text is shorter than its array, or is not read. -/
theorem narrowing_iff (libc : Libc) (getaddrinfo : Lookup) (A : Allocator Block) (h : Heap Block)
    (ptonBuffer : CharArray INET6_ADDRSTRLEN) (addressBuffer : CharArray printSize)
    (nodeBuffer serviceBuffer : CharArray 256) (s : WString) (hs : Ascii s) (family : BitVec 32)
    (lpAddress : Option Memory) (lpAddressLength : Option (BitVec 32))
    (pNodeName pServiceName : Option WString) (hnode : ∀ s ∈ pNodeName, Ascii s)
    (hservice : ∀ s ∈ pServiceName, Ascii s) (pHints : Option ADDRINFOW) :
    (inetPtonW libc ptonBuffer family s = some (inetPtonA libc family (narrow s)) ↔
      s.length < 46) ∧
    (wsaStringToAddressW libc addressBuffer s family lpAddress lpAddressLength =
        some (wsaStringToAddressA libc (some (narrow s)) family lpAddress lpAddressLength) ↔
      lpAddress = none ∨ lpAddressLength = none ∨ s.length < 62) ∧
    (getAddrInfoW getaddrinfo A (Ledger.start h) nodeBuffer serviceBuffer pNodeName pServiceName
        pHints =
      answer A (Ledger.start h) (getAddrInfoA getaddrinfo (pNodeName.map narrow)
        (pServiceName.map narrow) (pHints.map ADDRINFOW.toHints)) ↔
      (∀ s ∈ pNodeName, s.length < 256) ∧ ∀ s ∈ pServiceName, s.length < 256) := by
  refine ⟨?_, ?_, ?_⟩
  · rw [inetPtonW_of_ascii hs, INET6_ADDRSTRLEN]
    split <;> simp [*]
  · -- without an address or a length the text is not read
    cases lpAddress with
    | none =>
      obtain ⟨bytes, len, hconv, _⟩ := wcstombs_array hs addressBuffer
      simp [wsaStringToAddressW, hconv, wsaStringToAddressA]
    | some mem =>
      cases lpAddressLength with
      | none =>
        obtain ⟨bytes, len, hconv, _⟩ := wcstombs_array hs addressBuffer
        simp [wsaStringToAddressW, hconv, wsaStringToAddressA]
      | some length =>
        rw [wsaStringToAddressW_of_ascii hs, printSize, INET6_ADDRSTRLEN]
        split <;> simp [*]
  · rw [getAddrInfoW_of_ascii hnode hservice]
    split
    · rename_i hfits
      exact iff_of_true rfl hfits
    · rename_i hlong
      refine iff_of_false (fun heq => ?_) hlong
      -- the narrow function has a result, so the wide one needs one
      have hsome := answer_isSome A h (getAddrInfoA getaddrinfo (pNodeName.map narrow)
        (pServiceName.map narrow) (pHints.map ADDRINFOW.toHints))
      rw [← heq] at hsome
      cases hsome

/-- `1.2.3.4:` and a port of `digits` zeros and 80. -/
def paddedAddress (digits : Nat) : WString :=
  [49, 46, 50, 46, 51, 46, 52, 58] ++ List.replicate digits 48 ++ [56, 48]

/-- The conversions of `1.2.3.4`. -/
def dottedLibc : Libc where
  inetNtop _ _ _ := none
  inetPton f text :=
    if f = .inet ∧ text = [49, 46, 50, 46, 51, 46, 52] then some [1, 2, 3, 4] else none

/-- 61 characters arrive. -/
theorem narrowing_fits :
    wsaStringToAddressW dottedLibc (zeroArray printSize) (paddedAddress 51) 2
        (some (fun _ => 0)) (some 16) =
      some (wsaStringToAddressA dottedLibc (some (narrow (paddedAddress 51))) 2
        (some (fun _ => 0)) (some 16)) := by
  have hascii : Ascii (paddedAddress 51) := by
    simp [Ascii, paddedAddress]
  have hnone : ∀ s ∈ (none : Option WString), Ascii s := by simp
  exact (narrowing_iff dottedLibc (fun _ _ _ => .ok []) (allocatorAbove (fun _ => true)) Heap.empty
    (zeroArray _) (zeroArray _) (zeroArray _) (zeroArray _) (paddedAddress 51) hascii 2
    (some (fun _ => 0)) (some 16) none none hnone hnone none).2.1.mpr (by decide)

/-- Of 62 the array holds no string, while the narrow function reads the address. -/
theorem narrowing_cut :
    (wsaStringToAddressA dottedLibc (some (narrow (paddedAddress 52))) 2 (some (fun _ => 0))
        (some 16)).ret = 0 ∧
    ¬ wsaStringToAddressW dottedLibc (zeroArray printSize) (paddedAddress 52) 2
        (some (fun _ => 0)) (some 16) =
      some (wsaStringToAddressA dottedLibc (some (narrow (paddedAddress 52))) 2
        (some (fun _ => 0)) (some 16)) := by
  have hascii : Ascii (paddedAddress 52) := by
    simp [Ascii, paddedAddress]
  refine ⟨by decide, ?_⟩
  rw [wsaStringToAddressW_of_ascii hascii, if_neg (by decide)]
  simp

/-! ### `InetNtop` and `GetNameInfo` -/

def NI_MAXHOST : Nat := 1025
def NI_MAXSERV : Nat := 32

/-- The `getnameinfo` error for a text that does not fit. -/
def EAI_OVERFLOW : Int := -12

/-- `inet_ntop` takes the size as a `socklen_t`, which cuts a `size_t` to 32 bits. -/
def inetNtopA (libc : Libc) (family : BitVec 32) (pAddr : Memory) (stringBufSize : BitVec 64) :
    Option CString :=
  (Family.ofNat? family.toNat).bind
    (fun f => libc.inetNtop f (pAddr.loadBytes 0 f.addrSize) (stringBufSize.setWidth 32).toNat)

/-- What `InetNtopW` leaves behind: whether the result is not `NULL`, the last error if it is set,
    and the memory from `pStringBuf` on. -/
structure NtopW where
  found : Bool
  lastError : Option Int
  buffer : List WChar

def inetNtopW (libc : Libc) (family : BitVec 32) (pAddr : Memory) (pStringBuf : List WChar)
    (stringBufSize : BitVec 64) : NtopW :=
  match inetNtopA libc family pAddr (BitVec.ofNat 64 INET6_ADDRSTRLEN) with
  | none => ⟨false, none, pStringBuf⟩
  | some text =>
    match mbstowcs pStringBuf text stringBufSize.toNat with
    | (out, none) => ⟨false, some WSAEINVAL, out⟩
    | (out, some _) => ⟨true, none, out⟩

/-- `getnameinfo` of the C library, for an address with its length and for flags: the texts of
    the node and the service, given the sizes of their buffers where these are not `NULL`. -/
abbrev NameLookup :=
  Memory → BitVec 32 → Option Nat → Option Nat → BitVec 32 → Except Int (CString × CString)

def getNameInfoA (getnameinfo : NameLookup) (pSockaddr : Memory) (sockaddrLength : BitVec 32)
    (node service : Option (BitVec 32)) (flags : BitVec 32) : Except Int (CString × CString) :=
  getnameinfo pSockaddr sockaddrLength (node.map BitVec.toNat) (service.map BitVec.toNat) flags

/-- What `GetNameInfoW` leaves behind: the result, the last error if it is set, and the memory
    from the two buffers on. -/
structure NameInfoW where
  ret : Int
  lastError : Option Int
  node : Option (List WChar)
  service : Option (List WChar)

/-- The copy of a text into a buffer that is not `NULL`, and whether it was converted. -/
def widenInto (buffer : Option (List WChar)) (text : CString) (size : BitVec 32) :
    Option (List WChar) × Bool :=
  match buffer with
  | none => (none, true)
  | some out =>
    let copied := mbstowcs out text size.toNat
    (some copied.1, copied.2.isSome)

def getNameInfoW (getnameinfo : NameLookup) (pSockaddr : Memory) (sockaddrLength : BitVec 32)
    (pNodeBuffer : Option (List WChar)) (nodeBufferSize : BitVec 32)
    (pServiceBuffer : Option (List WChar)) (serviceBufferSize : BitVec 32) (flags : BitVec 32) :
    NameInfoW :=
  match getnameinfo pSockaddr sockaddrLength (pNodeBuffer.map (fun _ => NI_MAXHOST))
      (pServiceBuffer.map (fun _ => NI_MAXSERV)) flags with
  | .error result => ⟨result, none, pNodeBuffer, pServiceBuffer⟩
  | .ok (host, serv) =>
    match widenInto pNodeBuffer host nodeBufferSize with
    | (node, false) => ⟨WSAEINVAL, some WSAEINVAL, node, pServiceBuffer⟩
    | (node, true) =>
      match widenInto pServiceBuffer serv serviceBufferSize with
      | (service, false) => ⟨WSAEINVAL, some WSAEINVAL, node, service⟩
      | (service, true) => ⟨0, some 0, node, service⟩

/-- The buffer holds the text and its terminator, within its size. -/
def HoldsText (buffer : Option (List WChar)) (size : Nat) (text : CString)
    (after : Option (List WChar)) : Prop :=
  ∀ out, buffer = some out → text.length < size ∧
    after = some (widen text ++ 0 :: out.drop (text.length + 1))

/-- A text and its terminator fit a buffer that is not `NULL`. -/
def Fits (size : Option Nat) (text : CString) : Prop := ∀ n ∈ size, text.length < n

instance (size : Option Nat) (text : CString) : Decidable (Fits size text) :=
  inferInstanceAs (Decidable (∀ n ∈ size, text.length < n))

/-- What is assumed of `getnameinfo` for one address and flags: which texts are asked for decides
    whether there is an answer, and an answer of ASCII texts is returned if they fit with their
    terminators and is `EAI_OVERFLOW` if not.  The last is an assumption for an array of size 0,
    where the real function may leave the text out instead. -/
structure NameLookup.Answers (getnameinfo : NameLookup) (pSockaddr : Memory)
    (sockaddrLength flags : BitVec 32) (names : Bool → Bool → Except Int (CString × CString)) :
    Prop where
  call : ∀ node service, getnameinfo pSockaddr sockaddrLength node service flags =
    match names node.isSome service.isSome with
    | .error e => .error e
    | .ok (host, serv) =>
      if Fits node host ∧ Fits service serv then .ok (host, serv) else .error EAI_OVERFLOW
  error : ∀ node service e, names node service = .error e → e ≠ 0
  ascii : ∀ node service host serv, names node service = .ok (host, serv) →
    Ascii host ∧ Ascii serv

/-- What `InetNtopW` is to leave behind, after `InetNtopA` with the same capacity. -/
def NtopAlike (narrow : Option CString) (out : List WChar) (size : Nat) (wide : NtopW) : Prop :=
  (wide.found = true ↔ narrow.isSome = true) ∧
    ∀ text, narrow = some text → HoldsText (some out) size text (some wide.buffer)

/-- What `GetNameInfoW` is to leave behind, after `GetNameInfoA` with the same capacities. -/
def NamesAlike (narrow : Except Int (CString × CString)) (node service : Option (List WChar))
    (nodeSize serviceSize : Nat) (wide : NameInfoW) : Prop :=
  (wide.ret = 0 ↔ narrow.toOption.isSome = true) ∧
    ∀ host serv, narrow = .ok (host, serv) →
      HoldsText node nodeSize host wide.node ∧ HoldsText service serviceSize serv wide.service

section Widening

variable {libc : Libc} {family : BitVec 32} {pAddr : Memory}

theorem inetNtopA_of_prints {f : Family} {text : CString}
    (hfamily : Family.ofNat? family.toNat = some f)
    (hprints : libc.Prints f (pAddr.loadBytes 0 f.addrSize) text) (n : BitVec 64) :
    inetNtopA libc family pAddr n =
      if text.length < (n.setWidth 32).toNat then some text else none := by
  rw [inetNtopA, hfamily, Option.bind_some, hprints.inetNtop]

/-- A text is always copied as far as there is room, and whole if it fits. -/
theorem widenInto_of_ascii {text : CString} (htext : Ascii text) (buffer : Option (List WChar))
    (size : BitVec 32) :
    ∃ after, widenInto buffer text size = (after, true) ∧
      (Fits (buffer.map (fun _ => size.toNat)) text → HoldsText buffer size.toNat text after) := by
  cases buffer with
  | none => exact ⟨none, rfl, fun _ => nofun⟩
  | some out =>
    by_cases hfits : text.length < size.toNat
    · refine ⟨some (widen text ++ 0 :: out.drop (text.length + 1)), ?_, ?_⟩
      · simp only [widenInto, mbstowcs_of_lt htext hfits, Option.isSome_some]
      · rintro _ out' hout
        obtain rfl := Option.some.inj hout
        exact ⟨hfits, rfl⟩
    · refine ⟨some (widen (text.take size.toNat) ++ out.drop size.toNat), ?_, fun h => ?_⟩
      · simp only [widenInto, mbstowcs_of_le htext (Nat.le_of_not_lt hfits), Option.isSome_some]
      · exact absurd (h size.toNat (by simp)) hfits

/-- Whatever room the caller has, the address is printed and the text is widened. -/
theorem inetNtopW_of_prints {f : Family} {text : CString}
    (hfamily : Family.ofNat? family.toNat = some f)
    (hprints : libc.Prints f (pAddr.loadBytes 0 f.addrSize) text) (out : List WChar)
    (n : BitVec 64) : inetNtopW libc family pAddr out n =
      if text.length < n.toNat then ⟨true, none, widen text ++ 0 :: out.drop (text.length + 1)⟩
      else ⟨true, none, widen (text.take n.toNat) ++ out.drop n.toNat⟩ := by
  have hown : inetNtopA libc family pAddr (BitVec.ofNat 64 INET6_ADDRSTRLEN) = some text := by
    have hsize : ((BitVec.ofNat 64 INET6_ADDRSTRLEN).setWidth 32).toNat = INET6_ADDRSTRLEN := by
      decide
    rw [inetNtopA_of_prints hfamily hprints, hsize, if_pos hprints.short]
  by_cases hfits : text.length < n.toNat
  · simp only [inetNtopW, hown, mbstowcs_of_lt hprints.ascii hfits, if_pos hfits]
  · simp only [inetNtopW, hown, mbstowcs_of_le hprints.ascii (Nat.le_of_not_lt hfits),
      if_neg hfits]

theorem ntopAlike_iff (out : List WChar) (n : BitVec 64) (text : Family → CString)
    (hprints : ∀ f, Family.ofNat? family.toNat = some f →
      libc.Prints f (pAddr.loadBytes 0 f.addrSize) (text f)) :
    NtopAlike (inetNtopA libc family pAddr n) out n.toNat (inetNtopW libc family pAddr out n) ↔
      ∀ f, Family.ofNat? family.toNat = some f → (text f).length < (n.setWidth 32).toNat := by
  cases hfamily : Family.ofNat? family.toNat with
  | none => simp [NtopAlike, inetNtopW, inetNtopA, hfamily]
  | some f =>
    have hf := hprints f hfamily
    have hcut : (n.setWidth 32).toNat ≤ n.toNat := by
      rw [BitVec.toNat_setWidth]
      exact Nat.mod_le _ _
    rw [inetNtopA_of_prints hfamily hf, inetNtopW_of_prints hfamily hf]
    by_cases hfits : (text f).length < (n.setWidth 32).toNat
    · have hroom : (text f).length < n.toNat := by omega
      rw [if_pos hfits, if_pos hroom]
      refine iff_of_true ⟨by simp, fun t ht => ?_⟩ (by simpa using hfits)
      obtain rfl := Option.some.inj ht
      rintro out' hout
      obtain rfl := Option.some.inj hout
      exact ⟨hroom, rfl⟩
    · -- the narrow call refuses, and the wide one returns what there is room for
      rw [if_neg hfits]
      refine iff_of_false (fun halike => ?_) (by simpa using hfits)
      have hfound := halike.1
      split at hfound <;> simp at hfound

/-- What is asked of every answer is asked of the one there is. -/
theorem forall_ok_iff {host serv : CString} {P : CString → CString → Prop} :
    (∀ host' serv', (.ok (host, serv) : Except Int (CString × CString)) = .ok (host', serv') →
      P host' serv') ↔ P host serv := by
  constructor
  · intro h
    exact h host serv rfl
  · intro h host' serv' heq
    obtain ⟨rfl, rfl⟩ := Prod.mk.inj (Except.ok.inj heq)
    exact h

theorem namesAlike_iff {getnameinfo : NameLookup} {pSockaddr : Memory}
    {sockaddrLength flags : BitVec 32} {names : Bool → Bool → Except Int (CString × CString)}
    (hanswers : getnameinfo.Answers pSockaddr sockaddrLength flags names)
    (node service : Option (List WChar)) (n₁ n₂ : BitVec 32) :
    NamesAlike
        (getNameInfoA getnameinfo pSockaddr sockaddrLength (node.map (fun _ => n₁))
          (service.map (fun _ => n₂)) flags)
        node service n₁.toNat n₂.toNat
        (getNameInfoW getnameinfo pSockaddr sockaddrLength node n₁ service n₂ flags) ↔
      ∀ host serv, names node.isSome service.isSome = .ok (host, serv) →
        ((Fits (node.map (fun _ => n₁.toNat)) host ∧ Fits (service.map (fun _ => n₂.toNat)) serv) ↔
          (Fits (node.map (fun _ => NI_MAXHOST)) host ∧
            Fits (service.map (fun _ => NI_MAXSERV)) serv)) := by
  have hoverflow : EAI_OVERFLOW ≠ 0 := by decide
  have hsome : ∀ {α β : Type} (o : Option α) (b : β), (o.map (fun _ => b)).isSome = o.isSome :=
    fun o b => by simp
  rw [getNameInfoA, getNameInfoW, hanswers.call, hanswers.call]
  simp only [Option.map_map, Function.comp_def, hsome]
  cases hnames : names node.isSome service.isSome with
  | error e => simp [NamesAlike, hanswers.error _ _ e hnames, Except.toOption]
  | ok answer =>
    obtain ⟨host, serv⟩ := answer
    obtain ⟨hhost, hserv⟩ := hanswers.ascii _ _ _ _ hnames
    obtain ⟨node', hnode, hnode'⟩ := widenInto_of_ascii hhost node n₁
    obtain ⟨service', hservice, hservice'⟩ := widenInto_of_ascii hserv service n₂
    rw [forall_ok_iff]
    by_cases hown : Fits (node.map (fun _ => NI_MAXHOST)) host ∧
        Fits (service.map (fun _ => NI_MAXSERV)) serv
    · by_cases hfits : Fits (node.map (fun _ => n₁.toNat)) host ∧
          Fits (service.map (fun _ => n₂.toNat)) serv
      · -- both calls return the texts
        simp only [if_pos hown, if_pos hfits, hnode, hservice]
        apply iff_of_true _ (iff_of_true hfits hown)
        refine ⟨by simp [Except.toOption], ?_⟩
        rw [forall_ok_iff]
        exact ⟨hnode' hfits.1, hservice' hfits.2⟩
      · -- the narrow call refuses, and the wide one has room of its own
        simp only [if_pos hown, if_neg hfits, hnode, hservice]
        refine iff_of_false (fun halike => ?_) (fun hcond => hfits (hcond.mpr hown))
        have hret := halike.1
        simp [Except.toOption] at hret
    · by_cases hfits : Fits (node.map (fun _ => n₁.toNat)) host ∧
          Fits (service.map (fun _ => n₂.toNat)) serv
      · -- the narrow call returns the texts, and the wide one has too little room of its own
        simp only [if_neg hown, if_pos hfits]
        refine iff_of_false (fun halike => ?_) (fun hcond => hown (hcond.mp hfits))
        exact hoverflow (halike.1.mpr (by simp [Except.toOption]))
      · -- both calls refuse
        simp only [if_neg hown, if_neg hfits]
        apply iff_of_true _ (iff_of_false hfits hown)
        exact ⟨by simp [hoverflow, Except.toOption], nofun⟩

end Widening

/-- **Widening.**  `InetNtopW` agrees with `InetNtopA` exactly if the text fits the capacity as a
    `socklen_t`, and `GetNameInfoW` with `GetNameInfoA` exactly if the texts fit the caller's
    buffers where they fit those on the stack. -/
theorem widening_iff (libc : Libc) (family : BitVec 32) (pAddr : Memory)
    (text : Family → CString)
    (hprints : ∀ f, Family.ofNat? family.toNat = some f →
      libc.Prints f (pAddr.loadBytes 0 f.addrSize) (text f))
    (out : List WChar) (n : BitVec 64) (getnameinfo : NameLookup) (pSockaddr : Memory)
    (sockaddrLength flags : BitVec 32)
    (names : Bool → Bool → Except Int (CString × CString))
    (hanswers : getnameinfo.Answers pSockaddr sockaddrLength flags names)
    (node service : Option (List WChar)) (n₁ n₂ : BitVec 32) :
    (NtopAlike (inetNtopA libc family pAddr n) out n.toNat (inetNtopW libc family pAddr out n) ↔
      ∀ f, Family.ofNat? family.toNat = some f → (text f).length < n.toNat % 2 ^ 32) ∧
    (NamesAlike
        (getNameInfoA getnameinfo pSockaddr sockaddrLength (node.map (fun _ => n₁))
          (service.map (fun _ => n₂)) flags)
        node service n₁.toNat n₂.toNat
        (getNameInfoW getnameinfo pSockaddr sockaddrLength node n₁ service n₂ flags) ↔
      ∀ host serv, names node.isSome service.isSome = .ok (host, serv) →
        ((Fits (node.map (fun _ => n₁.toNat)) host ∧ Fits (service.map (fun _ => n₂.toNat)) serv) ↔
          (Fits (node.map (fun _ => 1025)) host ∧ Fits (service.map (fun _ => 32)) serv))) := by
  refine ⟨?_, namesAlike_iff hanswers node service n₁ n₂⟩
  rw [ntopAlike_iff out n text hprints, BitVec.toNat_setWidth]

/-- A `getnameinfo` that knows one node and one service, `a` and `b`. -/
def oneName : NameLookup := fun _ _ node service _ =>
  if Fits node [97] ∧ Fits service [98] then .ok ([97], [98]) else .error EAI_OVERFLOW

theorem oneName_answers (pSockaddr : Memory) (sockaddrLength flags : BitVec 32) :
    oneName.Answers pSockaddr sockaddrLength flags (fun _ _ => .ok ([97], [98])) where
  call _ _ := rfl
  error _ _ _ h := nomatch h
  ascii _ _ host serv h := by
    obtain ⟨rfl, rfl⟩ := Prod.mk.inj (Except.ok.inj h)
    simp [Ascii]

/-- The 16 bytes of `::1`. -/
def loopbackBytes : Memory := fun i => (List.replicate 15 0 ++ [1]).getD i 0

theorem loopbackBytes_prints : ∀ f, Family.ofNat? (10 : BitVec 32).toNat = some f →
    loopbackLibc.Prints f (loopbackBytes.loadBytes 0 f.addrSize) [58, 58, 49] := by
  intro f hf
  have hsix : Family.ofNat? (10 : BitVec 32).toNat = some .inet6 := by rfl
  obtain rfl := Option.some.inj (hsix.symm.trans hf)
  have haddr : loopbackBytes.loadBytes 0 Family.inet6.addrSize = List.replicate 15 0 ++ [1] := by
    decide
  constructor
  · intro size
    simp only [loopbackLibc, haddr, true_and, List.length_cons, List.length_nil]
  · decide
  · simp [Ascii]

/-- With room for four characters, `::1` arrives; with room for two, `a` and `b` do. -/
theorem widening_fits :
    NtopAlike (inetNtopA loopbackLibc 10 loopbackBytes 4) (List.replicate 4 255) 4
        (inetNtopW loopbackLibc 10 loopbackBytes (List.replicate 4 255) 4) ∧
      NamesAlike (getNameInfoA oneName loopbackAddress 28 (some 2) (some 2) 0)
        (some [255, 255]) (some [255, 255]) 2 2
        (getNameInfoW oneName loopbackAddress 28 (some [255, 255]) 2 (some [255, 255]) 2 0) := by
  have hboth := widening_iff loopbackLibc 10 loopbackBytes (fun _ => [58, 58, 49])
    loopbackBytes_prints (List.replicate 4 255) 4 oneName loopbackAddress 28 0
    (fun _ _ => .ok ([97], [98])) (oneName_answers _ _ _) (some [255, 255]) (some [255, 255]) 2 2
  refine ⟨hboth.1.mpr (fun f _ => by decide), hboth.2.mpr (fun host serv heq => ?_)⟩
  obtain ⟨rfl, rfl⟩ := Prod.mk.inj (Except.ok.inj heq)
  decide

/-- With room for three, `InetNtopA` returns `NULL`, and `InetNtopW` three characters that nothing
    ends. -/
theorem widening_cut :
    inetNtopW loopbackLibc 10 loopbackBytes [255, 255, 255] 3 = ⟨true, none, [58, 58, 49]⟩ ∧
    ¬ NtopAlike (inetNtopA loopbackLibc 10 loopbackBytes 3) [255, 255, 255] 3
      (inetNtopW loopbackLibc 10 loopbackBytes [255, 255, 255] 3) := by
  refine ⟨rfl, fun halike => ?_⟩
  have hfound : (inetNtopA loopbackLibc 10 loopbackBytes 3).isSome = true := halike.1.mp rfl
  exact absurd hfound (by decide)

end LinuxWinsock.Addr
