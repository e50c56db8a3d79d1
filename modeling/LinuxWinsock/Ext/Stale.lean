import LinuxWinsock.Ext.AcceptEx

namespace LinuxWinsock.Ext

open Memory

/-!
# What `AcceptEx` copies from the stack

The two addresses are copied from local variables, with the lengths of the caller: two runs that
differ in what the stack has held before are compared.

* `take_fill_const_iff` — when a copy of a filled structure does not depend on what it has held;
* `outputDetermined_iff` — when the buffer does not.
-/

/-! ### A filled structure -/

/-- Every byte is `b`. -/
def SockaddrStorage.const (b : Byte) : SockaddrStorage := ⟨List.replicate 128 b, by simp⟩

@[simp] theorem SockaddrStorage.getElem?_const {b : Byte} {i : Nat} (h : i < 128) :
    (const b).bytes[i]? = some b := by
  rw [const, List.getElem?_replicate, if_pos h]

variable {s : SockaddrStorage} {address : List Byte} {n : Nat}

theorem SockaddrStorage.take_fill_of_le (h : n ≤ address.length) (hsize : n ≤ 128) :
    (s.fill address).bytes.take n = address.take n := by
  have hle : n ≤ (address.take 128).length := by
    rw [List.length_take]
    omega
  unfold fill
  rw [List.take_append_of_le_length hle, List.take_take, min_eq_left hsize]

/-- Behind the address the bytes stay. -/
theorem SockaddrStorage.getElem?_fill (s : SockaddrStorage) (h : address.length < 128) :
    (s.fill address).bytes[address.length]? = s.bytes[address.length]? := by
  have htake : address.take 128 = address := List.take_of_length_le h.le
  simp only [fill, htake, List.getElem?_append_right (le_refl _), List.getElem?_drop]
  congr 1
  omega

/-- **Stale bytes.**  The first bytes of a filled structure do not depend on what it has held
    exactly if the address has as many. -/
theorem SockaddrStorage.take_fill_const_iff (hsize : n ≤ 128) :
    (∀ s s' : SockaddrStorage, (s.fill address).bytes.take n = (s'.fill address).bytes.take n) ↔
      n ≤ address.length := by
  constructor
  · intro h
    by_contra hlt
    -- two structures that differ in the first byte behind the address
    have hlt : address.length < n := not_le.mp hlt
    have heq := congrArg (fun l => l[address.length]?) (h (.const 0) (.const 1))
    simp only [List.getElem?_take_of_lt hlt] at heq
    have hlen : address.length < 128 := by omega
    rw [getElem?_fill _ hlen, getElem?_fill _ hlen, getElem?_const hlen, getElem?_const hlen] at heq
    exact absurd heq (by decide)
  · intro h s s'
    rw [take_fill_of_le h hsize, take_fill_of_le h hsize]

/-! ### The buffer -/

/-- The same answers, with other contents of the stack. -/
def Answers.onStack (k : Answers) (addr localAddr : SockaddrStorage) : Answers :=
  { k with addr := addr, localAddr := localAddr }

variable {k : Answers} {addr : SockaddrStorage} {base : Nat} {D L R : BitVec 32}
  {mem out : Memory}

/-- The two addresses are read back from the buffer. -/
theorem loadBytes_stores {xs ys : List Byte} {l r : Nat} (hl : xs.length = l) (hr : ys.length = r) :
    ((mem.storeBytes base xs).storeBytes (base + l) ys).loadBytes base l = xs ∧
      ((mem.storeBytes base xs).storeBytes (base + l) ys).loadBytes (base + l) r = ys := by
  subst hl hr
  constructor
  · rw [loadBytes_storeBytes_of_disjoint (.inl (le_refl _)), loadBytes_storeBytes]
  · exact loadBytes_storeBytes _ _ _

/-- The call comes to its copies: the connection is accepted and duplicated, and the data that is
    asked for is received. -/
structure Answers.Copies (k : Answers) (D : BitVec 32) (fd : Fd) (peer data : List Byte) :
    Prop where
  accept : k.accept = some (fd, peer)
  dup2 : k.dup2 = true
  received : receivedData k D = some data

/-- Every run leaves the same memory, whatever the stack has held. -/
def OutputDetermined (k : Answers) (sListenSocket sAcceptSocket : SOCKET)
    (lpOutputBuffer : Option Nat) (dwReceiveDataLength dwLocalAddressLength
    dwRemoteAddressLength : BitVec 32) (lpdwBytesReceived : Option (BitVec 32)) (mem : Memory) :
    Prop :=
  ∃ out : Memory, ∀ addr localAddr, ∃ o,
    acceptEx (k.onStack addr localAddr) sListenSocket sAcceptSocket lpOutputBuffer
      dwReceiveDataLength dwLocalAddressLength dwRemoteAddressLength lpdwBytesReceived mem =
        some o ∧ o.mem = out

variable {sListenSocket sAcceptSocket : SOCKET} {lpOutputBuffer : Option Nat}
  {lpdwBytesReceived : Option (BitVec 32)} {fd : Fd} {peer data : List Byte}

/-- What the call leaves in the buffer. -/
theorem acceptEx_of_copies (h : k.Copies D fd peer data) :
    (∃ o, acceptEx k sListenSocket sAcceptSocket (some base) D L R lpdwBytesReceived mem = some o ∧
      o.mem = out) ↔
    storeAddresses k (k.addr.fill peer) (some base) L R
      (mem.storeBytes (base + L.toNat + R.toNat) data) = some out := by
  simp only [acceptEx, h.accept, h.dup2, Bool.not_true, Bool.false_eq_true, if_false,
    receiveData_eq, h.received, Option.map_some, Option.map_eq_some_iff]
  constructor
  · rintro ⟨o, ⟨stored, hstored, rfl⟩, rfl⟩
    exact hstored
  · intro hstored
    exact ⟨_, ⟨out, hstored, rfl⟩, rfl⟩

/-- Without a buffer, or if it fails, the call leaves the same memory on every stack. -/
theorem outputDetermined_of_not_copies
    (h : lpOutputBuffer = none ∨ ∀ fd peer data, ¬ k.Copies D fd peer data) :
    OutputDetermined k sListenSocket sAcceptSocket lpOutputBuffer D L R lpdwBytesReceived mem := by
  refine ⟨mem, fun addr localAddr => ?_⟩
  cases haccept : k.accept with
  | none =>
    simp only [acceptEx, Answers.onStack, haccept]
    exact ⟨_, rfl, rfl⟩
  | some accepted =>
    obtain ⟨fd, peer⟩ := accepted
    cases hdup : k.dup2 with
    | false =>
      simp only [acceptEx, Answers.onStack, haccept, hdup]
      exact ⟨_, rfl, rfl⟩
    | true =>
      cases lpOutputBuffer with
      | none =>
        simp only [acceptEx, Answers.onStack, haccept, hdup]
        exact ⟨_, rfl, rfl⟩
      | some base =>
        have hnot := h.resolve_left (by simp)
        cases hreceived : receivedData k D with
        | none =>
          have hdata : receivedData (k.onStack addr localAddr) D = none := hreceived
          simp only [acceptEx, receiveData_eq, hdata]
          simp only [Answers.onStack, haccept, hdup]
          exact ⟨_, rfl, rfl⟩
        | some data => exact absurd ⟨haccept, hdup, hreceived⟩ (hnot fd peer data)

/-- The memory that a call leaves on a stack. -/
theorem acceptEx_onStack (h : k.Copies D fd peer data) (addr localAddr : SockaddrStorage) :
    (∃ o, acceptEx (k.onStack addr localAddr) sListenSocket sAcceptSocket (some base) D L R
      lpdwBytesReceived mem = some o ∧ o.mem = out) ↔
    (L.toNat ≤ 128 ∧ R.toNat ≤ 128) ∧
      out = ((mem.storeBytes (base + L.toNat + R.toNat) data).storeBytes base
        ((localAddr.fill k.localAddress).bytes.take L.toNat)).storeBytes (base + L.toNat)
        ((addr.fill peer).bytes.take R.toNat) := by
  have hcopies : (k.onStack addr localAddr).Copies D fd peer data := ⟨h.accept, h.dup2, h.received⟩
  exact (acceptEx_of_copies hcopies).trans storeAddresses_eq_some

/-- If the call comes to its copies, the buffer does not depend on the stack exactly if the lengths
    are at most those of the addresses, and of `struct sockaddr_storage`. -/
theorem outputDetermined_of_copies (h : k.Copies D fd peer data) :
    OutputDetermined k sListenSocket sAcceptSocket (some base) D L R lpdwBytesReceived mem ↔
      R.toNat ≤ min peer.length 128 ∧ L.toNat ≤ min k.localAddress.length 128 := by
  constructor
  · rintro ⟨out, hall⟩
    obtain ⟨⟨hL, hR⟩, -⟩ := (acceptEx_onStack h (.const 0) (.const 0)).mp (hall _ _)
    -- the two addresses are read from what every run leaves
    have hread : ∀ addr localAddr : SockaddrStorage,
        out.loadBytes base L.toNat = (localAddr.fill k.localAddress).bytes.take L.toNat ∧
          out.loadBytes (base + L.toNat) R.toNat = (addr.fill peer).bytes.take R.toNat := by
      intro addr localAddr
      obtain ⟨-, hout⟩ := (acceptEx_onStack h addr localAddr).mp (hall _ _)
      rw [hout]
      exact loadBytes_stores (SockaddrStorage.length_take _ hL) (SockaddrStorage.length_take _ hR)
    have hremote := (SockaddrStorage.take_fill_const_iff hR).mp
      (fun s s' => (hread s s).2.symm.trans (hread s' s).2)
    have hlocal := (SockaddrStorage.take_fill_const_iff hL).mp
      (fun s s' => (hread s s).1.symm.trans (hread s s').1)
    exact ⟨le_min hremote hR, le_min hlocal hL⟩
  · rintro ⟨hremote, hlocal⟩
    obtain ⟨hremote, hR⟩ := le_min_iff.mp hremote
    obtain ⟨hlocal, hL⟩ := le_min_iff.mp hlocal
    refine ⟨((mem.storeBytes (base + L.toNat + R.toNat) data).storeBytes base
      (k.localAddress.take L.toNat)).storeBytes (base + L.toNat) (peer.take R.toNat), ?_⟩
    intro addr localAddr
    refine (acceptEx_onStack h addr localAddr).mpr ⟨⟨hL, hR⟩, ?_⟩
    rw [SockaddrStorage.take_fill_of_le hlocal hL, SockaddrStorage.take_fill_of_le hremote hR]

/-- **Stale bytes.**  What `AcceptEx` leaves in the buffer does not depend on what the stack has held
    exactly if there is no buffer, the call fails, or it asks for at most as many bytes of each
    address as the kernel has given. -/
theorem outputDetermined_iff (k : Answers) (sListenSocket sAcceptSocket : SOCKET)
    (lpOutputBuffer : Option Nat) (D L R : BitVec 32) (lpdwBytesReceived : Option (BitVec 32))
    (mem : Memory) :
    OutputDetermined k sListenSocket sAcceptSocket lpOutputBuffer D L R lpdwBytesReceived mem ↔
      lpOutputBuffer ≠ none → ∀ fd peer data, k.Copies D fd peer data →
        R.toNat ≤ min peer.length 128 ∧ L.toNat ≤ min k.localAddress.length 128 := by
  constructor
  · intro hdet hbuffer fd peer data hcopies
    obtain ⟨base, rfl⟩ := Option.ne_none_iff_exists'.mp hbuffer
    exact (outputDetermined_of_copies hcopies).mp hdet
  · intro hcond
    by_cases hbuffer : lpOutputBuffer = none
    · exact outputDetermined_of_not_copies (.inl hbuffer)
    by_cases hcopies : ∃ fd peer data, k.Copies D fd peer data
    · obtain ⟨fd, peer, data, hcopies⟩ := hcopies
      obtain ⟨base, rfl⟩ := Option.ne_none_iff_exists'.mp hbuffer
      exact (outputDetermined_of_copies hcopies).mpr (hcond hbuffer fd peer data hcopies)
    · exact outputDetermined_of_not_copies
        (.inr (fun fd peer data h => hcopies ⟨fd, peer, data, h⟩))

/-- The usual lengths, sixteen bytes more than an address: the bytes behind it are the stack's. -/
theorem stale_copied : ¬ OutputDetermined loopbackAnswers 3 4 (some 4096) 64 24 24 (some 0)
    (fun _ => 0) := by
  intro h
  have hcopies : loopbackAnswers.Copies 64 5 loopbackPeer [104, 105, 33] :=
    ⟨rfl, rfl, rfl⟩
  exact absurd ((outputDetermined_of_copies hcopies).mp h) (by decide)

end LinuxWinsock.Ext
