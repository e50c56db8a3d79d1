import LinuxWinsock.Api
import LinuxWinsock.Lib.Memory
import Mathlib.Data.Set.Lattice
import Mathlib.Order.CompletePartialOrder
import Mathlib.Order.Interval.Set.Disjoint

namespace LinuxWinsock.Ext

open Memory

/-!
# The buffer of `AcceptEx`

`AcceptEx` and `GetAcceptExSockaddrs` of `ms_extensions.c` over the memory of the process.  What
the kernel answers, and what the stack holds, are parameters.

* `acceptEx`, `getAcceptExSockaddrs` — the two functions;
* `acceptEx_layout` — the pointers that the second returns point to what the first has stored.
-/

/-! ### The functions -/

/-- `struct sockaddr_storage` -/
structure SockaddrStorage where
  bytes : List Byte
  size : bytes.length = 128

/-- The kernel stores an address, cut to the size of the structure; the bytes behind it stay. -/
def SockaddrStorage.fill (s : SockaddrStorage) (address : List Byte) : SockaddrStorage where
  bytes := address.take 128 ++ s.bytes.drop address.length
  size := by
    have hsize := s.size
    simp only [List.length_append, List.length_take, List.length_drop]
    omega

/-- What the kernel answers to the calls, and what the stack holds before. -/
structure Answers where
  /-- The new descriptor and the address of the peer; `none` if `accept` fails. -/
  accept : Option (Fd × List Byte)
  dup2 : Bool
  /-- The bytes received; `none` if `recv` fails. -/
  recv : Option (List Byte)
  /-- The address of the socket; `none` if `getsockname` fails, which is not looked at. -/
  getsockname : Option (List Byte)
  addr : SockaddrStorage
  localAddr : SockaddrStorage

/-- The calls made to the kernel. -/
inductive Syscall where
  | accept (s : SOCKET)
  | dup2 (oldfd newfd : Fd)
  | close (fd : Fd)
  | recv (s : SOCKET) (len : BitVec 32)
  | getsockname (s : SOCKET)

/-- What `AcceptEx` leaves behind: its result, the last error, `*lpdwBytesReceived`, the memory
    and the calls it has made. -/
structure Accepted where
  ret : Bool
  lastError : Int
  bytesReceived : Option (BitVec 32)
  mem : Memory
  calls : List Syscall

/-- The initial data, behind the two addresses, and its length; `none` if `recv` fails. -/
def receiveData (k : Answers) (lpOutputBuffer : Option Nat) (dwReceiveDataLength
    dwLocalAddressLength dwRemoteAddressLength : BitVec 32) (mem : Memory) :
    Option (Memory × Nat) :=
  match lpOutputBuffer with
  | some p =>
    if 0 < dwReceiveDataLength then
      k.recv.map (fun data =>
        (mem.storeBytes (p + dwLocalAddressLength.toNat + dwRemoteAddressLength.toNat) data,
          data.length))
    else some (mem, 0)
  | none => some (mem, 0)

/-- The two addresses; `none` if an address is longer than `struct sockaddr_storage`. -/
def storeAddresses (k : Answers) (addr : SockaddrStorage) (lpOutputBuffer : Option Nat)
    (dwLocalAddressLength dwRemoteAddressLength : BitVec 32) (mem : Memory) : Option Memory :=
  match lpOutputBuffer with
  | some p => do
    let localAddr := (k.getsockname.map k.localAddr.fill).getD k.localAddr
    let mem ← mem.memcpy p localAddr.bytes dwLocalAddressLength.toNat
    mem.memcpy (p + dwLocalAddressLength.toNat) addr.bytes dwRemoteAddressLength.toNat
  | none => some mem

/-- `none` where the behaviour is undefined. -/
def acceptEx (k : Answers) (sListenSocket sAcceptSocket : SOCKET) (lpOutputBuffer : Option Nat)
    (dwReceiveDataLength dwLocalAddressLength dwRemoteAddressLength : BitVec 32)
    (lpdwBytesReceived : Option (BitVec 32)) (mem : Memory) : Option Accepted :=
  match k.accept with
  | none => some ⟨false, WSAECONNREFUSED, lpdwBytesReceived, mem, [.accept sListenSocket]⟩
  | some (result, peer) =>
    let accepted := [.accept sListenSocket, .dup2 result sAcceptSocket, .close result]
    if !k.dup2 then some ⟨false, WSAEINVAL, lpdwBytesReceived, mem, accepted⟩
    else
      -- the data is stored first, although it stands behind the addresses
      let receives := lpOutputBuffer.isSome && decide (0 < dwReceiveDataLength)
      let received := accepted ++
        if receives then [.recv sAcceptSocket dwReceiveDataLength] else []
      match receiveData k lpOutputBuffer dwReceiveDataLength dwLocalAddressLength
          dwRemoteAddressLength mem with
      | none => some ⟨false, WSAECONNRESET, lpdwBytesReceived, mem, received⟩
      | some (filled, n) =>
        (storeAddresses k (k.addr.fill peer) lpOutputBuffer dwLocalAddressLength
            dwRemoteAddressLength filled).map (fun stored =>
          ⟨true, 0, lpdwBytesReceived.map (fun _ => BitVec.ofNat 32 n), stored,
            received ++ if lpOutputBuffer.isSome then [.getsockname sAcceptSocket] else []⟩)

/-- The pointers and the lengths; `hasLocal` and `hasRemote` tell whether both places for one of
    them are not `NULL`. -/
def getAcceptExSockaddrs (lpOutputBuffer : Nat) (_dwReceiveDataLength dwLocalAddressLength
    dwRemoteAddressLength : BitVec 32) (hasLocal hasRemote : Bool) :
    Option (Nat × Int) × Option (Nat × Int) :=
  (if hasLocal then some (lpOutputBuffer, dwLocalAddressLength.toInt) else none,
    if hasRemote then
      some (lpOutputBuffer + dwLocalAddressLength.toNat, dwRemoteAddressLength.toInt)
    else none)

/-! ### The layout -/

/-- The bytes from `p` on. -/
def region (p n : Nat) : Set Nat := Set.Ico p (p + n)

/-- What a successful call leaves in the buffer at `base`, as found through the two pointers. -/
structure HasLayout (o : Accepted) (mem : Memory) (base : Nat) (dwReceiveDataLength
    dwLocalAddressLength dwRemoteAddressLength : BitVec 32) (localAddr peer data : List Byte)
    (localPtr remotePtr : Nat) : Prop where
  localAddress : o.mem.loadBytes localPtr (min dwLocalAddressLength.toNat localAddr.length) =
    localAddr.take dwLocalAddressLength.toNat
  remoteAddress : o.mem.loadBytes remotePtr (min dwRemoteAddressLength.toNat peer.length) =
    peer.take dwRemoteAddressLength.toNat
  received : o.mem.loadBytes (base + dwLocalAddressLength.toNat + dwRemoteAddressLength.toNat)
    data.length = data
  local_remote : Disjoint (region localPtr dwLocalAddressLength.toNat)
    (region remotePtr dwRemoteAddressLength.toNat)
  local_received : Disjoint (region localPtr dwLocalAddressLength.toNat)
    (region (base + dwLocalAddressLength.toNat + dwRemoteAddressLength.toNat)
      dwReceiveDataLength.toNat)
  remote_received : Disjoint (region remotePtr dwRemoteAddressLength.toNat)
    (region (base + dwLocalAddressLength.toNat + dwRemoteAddressLength.toNat)
      dwReceiveDataLength.toNat)
  /-- Nothing is written outside the buffer. -/
  outside : ∀ i, i ∉ region base (dwLocalAddressLength.toNat + dwRemoteAddressLength.toNat +
    dwReceiveDataLength.toNat) → o.mem i = mem i

/-- The data that is received: none if none is asked for. -/
def receivedData (k : Answers) (dwReceiveDataLength : BitVec 32) : Option (List Byte) :=
  if 0 < dwReceiveDataLength then k.recv else some []

variable {k : Answers} {sListenSocket sAcceptSocket : SOCKET} {base : Nat} {D L R : BitVec 32}
  {mem : Memory} {localAddr peer data : List Byte}

/-- The data stands behind the addresses. -/
theorem receiveData_eq (k : Answers) (base : Nat) (D L R : BitVec 32) (mem : Memory) :
    receiveData k (some base) D L R mem = (receivedData k D).map (fun data =>
      (mem.storeBytes (base + L.toNat + R.toNat) data, data.length)) := by
  simp only [receiveData, receivedData]
  split
  · rfl
  · have hnone : mem.storeBytes (base + L.toNat + R.toNat) [] = mem := by
      funext i
      simp [storeBytes]
    rw [Option.map_some, hnone]
    rfl

theorem SockaddrStorage.length_take (s : SockaddrStorage) {n : Nat} (h : n ≤ 128) :
    (s.bytes.take n).length = n := by
  rw [List.length_take, s.size]
  omega

/-- The first bytes of a filled structure are those of the address. -/
theorem SockaddrStorage.take_fill (s : SockaddrStorage) (address : List Byte) {n : Nat}
    (h : n ≤ 128) :
    ((s.fill address).bytes.take n).take (min n address.length) = address.take n := by
  have hle : min (min n address.length) n ≤ (address.take 128).length := by
    rw [List.length_take]
    omega
  unfold fill
  rw [List.take_take, List.take_append_of_le_length hle, List.take_take]
  by_cases hlen : n ≤ address.length
  · congr 1
    omega
  · rw [List.take_of_length_le (by omega), List.take_of_length_le (by omega)]

@[simp] theorem SockaddrStorage.fill_nil (s : SockaddrStorage) : s.fill [] = s := by
  simp [fill]

/-- The address of the socket, as far as the kernel gives it. -/
def Answers.localAddress (k : Answers) : List Byte := k.getsockname.getD []

/-- The addresses are stored exactly if both fit in `struct sockaddr_storage`. -/
theorem storeAddresses_eq_some {addr : SockaddrStorage} {out : Memory} :
    storeAddresses k addr (some base) L R mem = some out ↔
    (L.toNat ≤ 128 ∧ R.toNat ≤ 128) ∧
      out = (mem.storeBytes base ((k.localAddr.fill k.localAddress).bytes.take L.toNat)).storeBytes
        (base + L.toNat) (addr.bytes.take R.toNat) := by
  have hlocal : (k.getsockname.map k.localAddr.fill).getD k.localAddr =
      k.localAddr.fill k.localAddress := by
    unfold Answers.localAddress
    cases k.getsockname <;> simp
  simp only [storeAddresses, hlocal, Option.bind_eq_bind, Option.bind_eq_some_iff, memcpy_eq_some,
    SockaddrStorage.size]
  constructor
  · rintro ⟨_, ⟨hL, rfl⟩, hR, rfl⟩
    exact ⟨⟨hL, hR⟩, rfl⟩
  · rintro ⟨⟨hL, hR⟩, rfl⟩
    exact ⟨_, ⟨hL, rfl⟩, hR, rfl⟩

/-- The buffer after the three stores. -/
theorem storeAddresses_eq (k : Answers) (addr : SockaddrStorage) (mem : Memory)
    (hlocal : k.getsockname = some localAddr) (hL : L.toNat ≤ 128) (hR : R.toNat ≤ 128) :
    storeAddresses k addr (some base) L R mem =
      some ((mem.storeBytes base ((k.localAddr.fill localAddr).bytes.take L.toNat)).storeBytes
        (base + L.toNat) (addr.bytes.take R.toNat)) := by
  have haddress : k.localAddress = localAddr := by
    rw [Answers.localAddress, hlocal, Option.getD_some]
  rw [storeAddresses_eq_some, haddress]
  exact ⟨⟨hL, hR⟩, rfl⟩

/-- A copy of a filled structure is read back from its start. -/
theorem loadBytes_fill (s : SockaddrStorage) (address : List Byte) (mem : Memory) (o : Nat)
    {n : Nat} (h : n ≤ 128) :
    (mem.storeBytes o ((s.fill address).bytes.take n)).loadBytes o (min n address.length) =
      address.take n := by
  rw [loadBytes_storeBytes_take, SockaddrStorage.take_fill s address h]
  rw [(s.fill address).length_take h]
  exact min_le_left _ _

/-- The three stores lay the buffer out: none overwrites another. -/
theorem hasLayout_of_stores (s s' : SockaddrStorage) (o : Accepted) (hL : L.toNat ≤ 128)
    (hR : R.toNat ≤ 128) (hdata : data.length ≤ D.toNat)
    (ho : o.mem = (((mem.storeBytes (base + L.toNat + R.toNat) data).storeBytes base
      ((s.fill localAddr).bytes.take L.toNat)).storeBytes (base + L.toNat)
      ((s'.fill peer).bytes.take R.toNat))) :
    HasLayout o mem base D L R localAddr peer data base (base + L.toNat) := by
  have hl := (s.fill localAddr).length_take hL
  have hr := (s'.fill peer).length_take hR
  constructor
  case localAddress =>
    -- the last store is behind the local address
    rw [ho, loadBytes_storeBytes_of_disjoint (.inl (by omega)), loadBytes_fill s localAddr _ _ hL]
  case remoteAddress =>
    rw [ho, loadBytes_fill s' peer _ _ hR]
  case received =>
    rw [ho, loadBytes_storeBytes_of_disjoint (.inr (by omega)),
      loadBytes_storeBytes_of_disjoint (.inr (by omega)), loadBytes_storeBytes]
  case local_remote =>
    exact Set.Ico_disjoint_Ico_same
  case local_received =>
    refine Set.Ico_disjoint_Ico.mpr ?_
    omega
  case remote_received =>
    exact Set.Ico_disjoint_Ico_same
  case outside =>
    intro i hi
    have hout : i < base ∨ base + (L.toNat + R.toNat + D.toNat) ≤ i := by
      simp only [region, Set.mem_Ico, not_and, not_lt] at hi
      omega
    rw [ho]
    rcases hout with hlow | hhigh
    · rw [storeBytes_of_lt (by omega), storeBytes_of_lt hlow, storeBytes_of_lt (by omega)]
    · rw [storeBytes_of_le (by omega), storeBytes_of_le (by omega), storeBytes_of_le (by omega)]

/-- The successful call: the connection is accepted and duplicated, and the data is received. -/
theorem acceptEx_success {fd : Fd} (haccept : k.accept = some (fd, peer)) (hdup : k.dup2 = true)
    (hreceived : receivedData k D = some data) (hlocal : k.getsockname = some localAddr)
    (hL : L.toNat ≤ 128) (hR : R.toNat ≤ 128) (sListenSocket sAcceptSocket : SOCKET) (base : Nat)
    (lpdwBytesReceived : Option (BitVec 32)) (mem : Memory) :
    ∃ o, acceptEx k sListenSocket sAcceptSocket (some base) D L R lpdwBytesReceived mem = some o ∧
      o.ret = true ∧
      o.bytesReceived = lpdwBytesReceived.map (fun _ => BitVec.ofNat 32 data.length) ∧
      o.mem = (((mem.storeBytes (base + L.toNat + R.toNat) data).storeBytes base
        ((k.localAddr.fill localAddr).bytes.take L.toNat)).storeBytes (base + L.toNat)
        ((k.addr.fill peer).bytes.take R.toNat)) := by
  unfold acceptEx
  simp only [haccept, hdup, Bool.not_true, Bool.false_eq_true, if_false, receiveData_eq, hreceived,
    Option.map_some, storeAddresses_eq k _ _ hlocal hL hR]
  exact ⟨_, rfl, rfl, rfl, rfl⟩

/-- **The layout of the buffer.**  For addresses of at most the size of `struct
    sockaddr_storage` the call is defined, and if it succeeds, the pointers that
    `GetAcceptExSockaddrs` returns point to the two addresses, the data stands behind them, and
    nothing else is written. -/
theorem acceptEx_layout (k : Answers) (sListenSocket sAcceptSocket : SOCKET) (base : Nat)
    (D L R : BitVec 32) (lpdwBytesReceived : Option (BitVec 32)) (mem : Memory)
    (localAddr : List Byte) (hlocal : k.getsockname = some localAddr)
    (hrecv : ∀ data, k.recv = some data → data.length ≤ D.toNat)
    (hL : L.toNat ≤ 128) (hR : R.toNat ≤ 128) :
    ∃ o, acceptEx k sListenSocket sAcceptSocket (some base) D L R lpdwBytesReceived mem = some o ∧
      (o.ret = true → ∃ fd peer data localPtr remotePtr,
        k.accept = some (fd, peer) ∧ receivedData k D = some data ∧
        o.bytesReceived = lpdwBytesReceived.map (fun _ => BitVec.ofNat 32 data.length) ∧
        getAcceptExSockaddrs base D L R true true =
          (some (localPtr, L.toInt), some (remotePtr, R.toInt)) ∧
        HasLayout o mem base D L R localAddr peer data localPtr remotePtr) := by
  cases haccept : k.accept with
  | none =>
    simp only [acceptEx, haccept]
    exact ⟨_, rfl, fun hret => by cases hret⟩
  | some accepted =>
    obtain ⟨fd, peer⟩ := accepted
    cases hdup : k.dup2 with
    | false =>
      simp only [acceptEx, haccept, hdup]
      exact ⟨_, rfl, fun hret => by cases hret⟩
    | true =>
      cases hreceived : receivedData k D with
      | none =>
        simp only [acceptEx, haccept, hdup, receiveData_eq, hreceived]
        exact ⟨_, rfl, fun hret => by cases hret⟩
      | some data =>
        -- no more is received than there is room for
        have hdata : data.length ≤ D.toNat := by
          unfold receivedData at hreceived
          split at hreceived
          · exact hrecv data hreceived
          · obtain rfl := Option.some.inj hreceived
            exact Nat.zero_le _
        obtain ⟨o, ho, -, hcount, hmem⟩ := acceptEx_success haccept hdup hreceived hlocal hL hR
          sListenSocket sAcceptSocket base lpdwBytesReceived mem
        refine ⟨o, ho, fun _ => ⟨fd, peer, data, base, base + L.toNat, rfl, rfl, hcount, rfl, ?_⟩⟩
        exact hasLayout_of_stores _ _ _ hL hR hdata hmem

/-- A `sockaddr_in` of the loopback with the port 51201. -/
def loopbackPeer : List Byte := [2, 0, 200, 1, 127, 0, 0, 1, 0, 0, 0, 0, 0, 0, 0, 0]

/-- A `sockaddr_in` of the loopback with the port 80. -/
def loopbackServer : List Byte := [2, 0, 0, 80, 127, 0, 0, 1, 0, 0, 0, 0, 0, 0, 0, 0]

/-- A listener on the loopback, a peer there too, and three bytes of data. -/
def loopbackAnswers : Answers where
  accept := some (5, loopbackPeer)
  dup2 := true
  recv := some [104, 105, 33]
  getsockname := some loopbackServer
  addr := ⟨List.replicate 128 255, rfl⟩
  localAddr := ⟨List.replicate 128 254, rfl⟩

/-- The client asks for 16 bytes for each of the addresses: they and the data are found where they
    belong. -/
theorem acceptEx_layout_loopback :
    ∃ o, acceptEx loopbackAnswers 3 4 (some 4096) 64 16 16 (some 0) (fun _ => 0) = some o ∧
      o.ret = true ∧ o.bytesReceived = some 3 ∧ o.mem.loadBytes 4128 3 = [104, 105, 33] := by
  have hrecv : ∀ data, loopbackAnswers.recv = some data → data.length ≤ (64 : BitVec 32).toNat := by
    intro data hdata
    obtain rfl : [104, 105, 33] = data := Option.some.inj hdata
    decide
  obtain ⟨o, ho, hlayout⟩ := acceptEx_layout loopbackAnswers 3 4 4096 64 16 16 (some 0)
    (fun _ => 0) loopbackServer rfl hrecv (by decide) (by decide)
  obtain ⟨o', ho', hret, -⟩ := acceptEx_success (k := loopbackAnswers) (D := 64) (L := 16) (R := 16)
    rfl rfl rfl rfl (by decide) (by decide) 3 4 4096 (some 0) (fun _ => 0)
  obtain rfl : o = o' := Option.some.inj (ho.symm.trans ho')
  obtain ⟨_, _, data, _, _, _, hdata, hcount, _, hlayout⟩ := hlayout hret
  obtain rfl : [104, 105, 33] = data := Option.some.inj hdata
  exact ⟨o, ho, hret, hcount, by simpa using hlayout.received⟩

end LinuxWinsock.Ext
