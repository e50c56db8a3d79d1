import LinuxWinsock.Ext.AcceptEx
import LinuxWinsock.Lib.Descriptors

namespace LinuxWinsock.Ext

open Memory

/-!
# The descriptors after `AcceptEx`

The calls that `AcceptEx` makes, with what they do to the descriptors of the process.

* `opened_acceptEx` — no descriptor is leaked, on any path;
* `tableKept_iff` — when a failed call leaves the descriptors as they were.
-/

/-! ### The calls -/

/-- What a call does to the descriptors. -/
def Answers.perform (k : Answers) (t : Descriptors Fd) : Syscall → Descriptors Fd
  | .accept _ =>
    match k.accept with
    | some (fd, _) => t.openAt fd
    | none => t
  | .dup2 oldfd newfd => if k.dup2 then t.dup2 oldfd newfd else t
  | .close fd => t.close fd
  | .recv _ _ => t
  | .getsockname _ => t

/-- What the calls do, one after the other. -/
def Answers.performAll (k : Answers) (t : Descriptors Fd) (calls : List Syscall) :
    Descriptors Fd :=
  calls.foldl k.perform t

/-- The descriptor of the new connection was free. -/
def Answers.Fresh (k : Answers) (t : Descriptors Fd) : Prop :=
  ∀ fd peer, k.accept = some (fd, peer) → fd ∉ t.opened

variable {k : Answers} {t : Descriptors Fd} {sListenSocket sAcceptSocket : SOCKET}
  {lpOutputBuffer : Option Nat} {D L R : BitVec 32} {lpdwBytesReceived : Option (BitVec 32)}
  {mem : Memory} {o : Accepted} {fd : Fd} {peer : List Byte}

@[simp] theorem performAll_append (k : Answers) (t : Descriptors Fd) (xs ys : List Syscall) :
    k.performAll t (xs ++ ys) = k.performAll (k.performAll t xs) ys :=
  List.foldl_append

theorem performAll_ite {c : Syscall} (h : k.perform t c = t) (b : Bool) :
    k.performAll t (if b then [c] else []) = t := by
  cases b with
  | true => exact h
  | false => rfl

/-- The calls with which the new connection replaces the caller's socket. -/
theorem performAll_replace (haccept : k.accept = some (fd, peer)) (hdup : k.dup2 = true)
    (t : Descriptors Fd) :
    k.performAll t [.accept sListenSocket, .dup2 fd sAcceptSocket, .close fd] =
      ((t.openAt fd).dup2 fd sAcceptSocket).close fd := by
  simp [Answers.performAll, Answers.perform, haccept, hdup]

/-- The call receives data. -/
def Receives (lpOutputBuffer : Option Nat) (D : BitVec 32) : Prop :=
  lpOutputBuffer ≠ none ∧ 0 < D

/-- The call fails behind the replacement of the caller's socket: the connection is accepted and
    duplicated, and no data can be received. -/
structure FailsLate (k : Answers) (lpOutputBuffer : Option Nat) (D : BitVec 32) : Prop where
  accept : k.accept ≠ none
  dup2 : k.dup2 = true
  receives : Receives lpOutputBuffer D
  recv : k.recv = none

/-- The data is not received exactly if it is asked for and `recv` fails. -/
theorem receiveData_eq_none : receiveData k lpOutputBuffer D L R mem = none ↔
    Receives lpOutputBuffer D ∧ k.recv = none := by
  cases lpOutputBuffer with
  | none => simp [receiveData, Receives]
  | some p =>
    rw [receiveData_eq, Option.map_eq_none_iff, receivedData]
    by_cases hD : 0 < D
    · simp only [hD, if_true, Receives, ne_eq, reduceCtorEq, not_false_eq_true, and_true, true_and]
    · simp only [hD, if_false, Receives, reduceCtorEq, and_false, false_and]

/-! ### The three ways through the function -/

/-- **The calls.**  Either `accept` fails, or `dup2` fails and the new descriptor is closed, or the
    caller's socket is replaced, and the call succeeds unless no data can be received. -/
theorem acceptEx_cases (h : acceptEx k sListenSocket sAcceptSocket lpOutputBuffer D L R
      lpdwBytesReceived mem = some o) (t : Descriptors Fd) :
    (k.accept = none ∧ o.ret = false ∧ k.performAll t o.calls = t) ∨
    (∃ fd peer, k.accept = some (fd, peer) ∧ k.dup2 = false ∧ o.ret = false ∧
      k.performAll t o.calls = (t.openAt fd).close fd) ∨
    (∃ fd peer, k.accept = some (fd, peer) ∧ k.dup2 = true ∧
      (o.ret = false ↔ Receives lpOutputBuffer D ∧ k.recv = none) ∧
      k.performAll t o.calls = ((t.openAt fd).dup2 fd sAcceptSocket).close fd) := by
  unfold acceptEx at h
  cases haccept : k.accept with
  | none =>
    rw [haccept] at h
    obtain rfl := Option.some.inj h
    refine .inl ⟨rfl, rfl, ?_⟩
    simp [Answers.performAll, Answers.perform, haccept]
  | some accepted =>
    obtain ⟨fd, peer⟩ := accepted
    simp only [haccept] at h
    cases hdup : k.dup2 with
    | false =>
      simp only [hdup, Bool.not_false, if_true] at h
      obtain rfl := Option.some.inj h
      refine .inr (.inl ⟨fd, peer, rfl, rfl, rfl, ?_⟩)
      simp [Answers.performAll, Answers.perform, haccept, hdup]
    | true =>
      simp only [hdup, Bool.not_true, Bool.false_eq_true, if_false] at h
      refine .inr (.inr ⟨fd, peer, rfl, rfl, ?_⟩)
      cases hreceive : receiveData k lpOutputBuffer D L R mem with
      | none =>
        have hnone := receiveData_eq_none.mp hreceive
        simp only [hreceive] at h
        obtain rfl := Option.some.inj h
        refine ⟨iff_of_true rfl hnone, ?_⟩
        rw [performAll_append, performAll_replace haccept hdup, performAll_ite rfl]
      | some received =>
        obtain ⟨filled, n⟩ := received
        simp only [hreceive] at h
        obtain ⟨stored, -, rfl⟩ := Option.map_eq_some_iff.mp h
        refine ⟨iff_of_false (by simp) (fun hnone => ?_), ?_⟩
        · rw [receiveData_eq_none.mpr hnone] at hreceive
          cases hreceive
        · rw [performAll_append, performAll_append, performAll_replace haccept hdup,
            performAll_ite rfl, performAll_ite rfl]

/-! ### What becomes of the descriptors -/

/-- The open descriptors stay open, and no others are; if the call succeeds, the caller's socket
    refers to the new connection, and nothing else is changed; if it fails, nothing is. -/
structure Kept (t t' : Descriptors Fd) (sAcceptSocket : SOCKET) (ret : Bool) : Prop where
  opened : t'.opened = t.opened
  accepted : ret = true → t'.file = Function.update t.file sAcceptSocket (some t.next)
  failed : ret = false → t'.file = t.file

/-- Whatever the call does, the descriptors are kept. -/
def TableKept (k : Answers) (t : Descriptors Fd) (sListenSocket sAcceptSocket : SOCKET)
    (lpOutputBuffer : Option Nat) (dwReceiveDataLength dwLocalAddressLength
    dwRemoteAddressLength : BitVec 32) (lpdwBytesReceived : Option (BitVec 32)) (mem : Memory) :
    Prop :=
  ∀ o, acceptEx k sListenSocket sAcceptSocket lpOutputBuffer dwReceiveDataLength
    dwLocalAddressLength dwRemoteAddressLength lpdwBytesReceived mem = some o →
    Kept t (k.performAll t o.calls) sAcceptSocket o.ret

/-- The new connection replaces the caller's socket. -/
theorem file_replace (hopen : sAcceptSocket ∈ t.opened) (hfresh : k.Fresh t)
    (haccept : k.accept = some (fd, peer)) :
    (((t.openAt fd).dup2 fd sAcceptSocket).close fd).file =
      Function.update t.file sAcceptSocket (some t.next) := by
  have hfree := hfresh fd peer haccept
  apply Descriptors.openAt_dup2_close hfree
  rintro rfl
  exact hfree hopen

/-- **No leak.**  The same descriptors are open as before. -/
theorem opened_acceptEx (hopen : sAcceptSocket ∈ t.opened) (hfresh : k.Fresh t)
    (h : acceptEx k sListenSocket sAcceptSocket lpOutputBuffer D L R lpdwBytesReceived mem =
      some o) : (k.performAll t o.calls).opened = t.opened := by
  rcases acceptEx_cases h t with ⟨-, -, ht⟩ | ⟨fd, peer, haccept, -, -, ht⟩ |
    ⟨fd, peer, haccept, -, -, ht⟩
  · rw [ht]
  · rw [ht]
    exact Descriptors.opened_congr (Descriptors.openAt_close (hfresh fd peer haccept))
  · rw [ht]
    exact Descriptors.opened_of_update (file_replace hopen hfresh haccept) hopen

/-- A call that fails late is defined, and returns FALSE. -/
theorem acceptEx_of_failsLate (h : FailsLate k lpOutputBuffer D) :
    ∃ o, acceptEx k sListenSocket sAcceptSocket lpOutputBuffer D L R lpdwBytesReceived mem =
      some o ∧ o.ret = false := by
  obtain ⟨⟨fd, peer⟩, haccept⟩ := Option.ne_none_iff_exists'.mp h.accept
  have hnone : receiveData k lpOutputBuffer D L R mem = none :=
    receiveData_eq_none.mpr ⟨h.receives, h.recv⟩
  simp only [acceptEx, haccept, h.dup2, hnone]
  exact ⟨_, rfl, rfl⟩

/-- **Failures.**  The descriptors are kept exactly if the call does not fail behind the
    replacement of the caller's socket. -/
theorem tableKept_iff (k : Answers) (t : Descriptors Fd) (sListenSocket sAcceptSocket : SOCKET)
    (lpOutputBuffer : Option Nat) (D L R : BitVec 32) (lpdwBytesReceived : Option (BitVec 32))
    (mem : Memory) (hopen : sAcceptSocket ∈ t.opened) (hfresh : k.Fresh t) :
    TableKept k t sListenSocket sAcceptSocket lpOutputBuffer D L R lpdwBytesReceived mem ↔
      ¬ FailsLate k lpOutputBuffer D := by
  constructor
  · intro hkept hlate
    obtain ⟨o, ho, hret⟩ := acceptEx_of_failsLate hlate
    have hfailed := (hkept o ho).failed hret
    rcases acceptEx_cases ho t with ⟨hnone, -⟩ | ⟨fd, peer, -, hdup, -⟩ |
      ⟨fd, peer, haccept, -, -, ht⟩
    · exact hlate.accept hnone
    · rw [hlate.dup2] at hdup
      cases hdup
    · -- the caller's socket refers to the new connection
      rw [ht, file_replace hopen hfresh haccept] at hfailed
      have hsocket := congrFun hfailed sAcceptSocket
      rw [Function.update_self] at hsocket
      exact t.file_ne_next sAcceptSocket hsocket.symm
  · intro hnot o ho
    refine ⟨opened_acceptEx hopen hfresh ho, fun hret => ?_, fun hret => ?_⟩
    · rcases acceptEx_cases ho t with ⟨-, hfalse, -⟩ | ⟨fd, peer, -, -, hfalse, -⟩ |
        ⟨fd, peer, haccept, -, -, ht⟩
      · rw [hret] at hfalse
        cases hfalse
      · rw [hret] at hfalse
        cases hfalse
      · rw [ht, file_replace hopen hfresh haccept]
    · rcases acceptEx_cases ho t with ⟨-, -, ht⟩ | ⟨fd, peer, haccept, -, -, ht⟩ |
        ⟨fd, peer, haccept, hdup, hfalse, -⟩
      · rw [ht]
      · rw [ht, Descriptors.openAt_close (hfresh fd peer haccept)]
      · obtain ⟨hreceives, hrecv⟩ := hfalse.mp hret
        exact absurd ⟨by simp [haccept], hdup, hreceives, hrecv⟩ hnot

/-- A listener and the socket that the caller has made. -/
def twoSockets : Descriptors Fd where
  file fd := if fd = 3 then some 0 else if fd = 4 then some 1 else none
  next := 2
  fresh := by
    intro fd f h
    split_ifs at h
    · obtain rfl := Option.some.inj h
      decide
    · obtain rfl := Option.some.inj h
      decide

/-- The connection of the loopback is accepted. -/
theorem tableKept_loopback :
    TableKept loopbackAnswers twoSockets 3 4 (some 4096) 64 16 16 (some 0) (fun _ => 0) := by
  have hopen : (4 : Fd) ∈ twoSockets.opened := by simp [Descriptors.opened, twoSockets]
  have hfresh : loopbackAnswers.Fresh twoSockets := by
    intro fd peer haccept
    obtain ⟨rfl, -⟩ := Prod.mk.inj (Option.some.inj haccept)
    simp [Descriptors.opened, twoSockets]
  exact (tableKept_iff loopbackAnswers twoSockets 3 4 (some 4096) 64 16 16 (some 0) (fun _ => 0)
    hopen hfresh).mpr (fun hlate => absurd hlate.recv (by decide))

/-- No data can be received: the call fails, and the caller's socket is the new connection. -/
theorem not_tableKept_recv : ¬ TableKept { loopbackAnswers with recv := none } twoSockets 3 4
    (some 4096) 64 16 16 (some 0) (fun _ => 0) := by
  intro hkept
  have hsocket := congrFun ((hkept _ rfl).failed rfl) 4
  exact absurd hsocket (by decide)

end LinuxWinsock.Ext
