import LinuxWinsock.Msg.Connection

namespace LinuxWinsock.Msg

open TransitionSystem

/-!
# A kernel of connected sockets

An executable kernel that does what is documented of stream sockets.

* `Pipe`, `Verdict`, `Happening` — its state, and what is decided outside it;
* `Pipe.connections`, `Pipe.documented` — the kernel, and that it keeps to the documentation.
-/

/-- What the kernel decides in a call: it refuses it, or moves at most so many bytes more than
    one. -/
inductive Verdict where
  | refuse (errno : Int)
  | move (most : Nat)

/-- The bytes that are on their way to a socket, whether a socket has ended its stream, whether the
    stream to it was cut off, and what the kernel decides in the next call. -/
structure Pipe where
  queue : Endpoint → List Byte
  shut : Endpoint → Bool
  reset : Endpoint → Bool
  verdict : Verdict

/-- What happens between the calls. -/
inductive Happening where
  | decide (verdict : Verdict)
  /-- A socket ends its stream. -/
  | shutdown (e : Endpoint)
  /-- The stream to a socket is cut off; so many bytes have arrived before. -/
  | reset (e : Endpoint) (arrived : Nat)

def EPIPE : Int := 32

/-- No call moves more bytes. -/
def MAX_RW_COUNT : Nat := 0x7ffff000

/-- The error of a request for too many buffers, or for a negative number of them. -/
def Request.tooMany : Request → Option Int
  | .readv _ _ iovcnt => if 0 ≤ iovcnt ∧ iovcnt ≤ IOV_MAX then none else some EINVAL
  | .writev _ _ iovcnt => if 0 ≤ iovcnt ∧ iovcnt ≤ IOV_MAX then none else some EINVAL
  | .recvmsg _ msg _ => if msg.msg_iovlen ≤ IOV_MAX then none else some EMSGSIZE
  | .sendmsg _ msg _ => if msg.msg_iovlen ≤ IOV_MAX then none else some EMSGSIZE

namespace Pipe

def refused (errno : Int) : Answer := ⟨-1, errno, 0, 0, 0⟩

/-- Streams have no names and no control data. -/
def moved (n : Nat) : Answer := ⟨n, 0, 0, 0, 0⟩

variable (net : Wiring)

/-- A call at `e` that receives: nothing is received at the end of the stream only, or where it was
    cut off. -/
def recv (w : World Pipe) (e : Endpoint) (most : Nat) (r : Request) : Answer × World Pipe :=
  let queue := w.os.queue e
  let bs := queue.take (min (most + 1) (min (room r.iov) MAX_RW_COUNT))
  if queue = [] ∧ room r.iov ≠ 0 ∧ w.os.shut (net.peer e) = false ∧ w.os.reset e = false then
    (refused EWOULDBLOCK, w)
  else
    (moved bs.length,
      { memory := Function.update w.memory e.1 (scatter (w.memory e.1) r.iov bs)
        os :=
          if r.peeks then w.os
          else { w.os with queue := Function.update w.os.queue e (queue.drop bs.length) } })

/-- A call at `e` that sends. -/
def send (w : World Pipe) (e : Endpoint) (most : Nat) (r : Request) : Answer × World Pipe :=
  let queue := w.os.queue (net.peer e)
  let bs := (gather (w.memory e.1) r.iov).take (min (most + 1) MAX_RW_COUNT)
  if w.os.shut e ∨ w.os.reset (net.peer e) then (refused EPIPE, w)
  else
    (moved bs.length,
      { w with
        os := { w.os with queue := Function.update w.os.queue (net.peer e) (queue ++ bs) } })

/-- The kernel, as the process `pid` meets it. -/
def kernel (pid : Nat) : Kernel (World Pipe) where
  call w r :=
    match w.os.verdict with
    | .refuse errno => (refused errno, w)
    | .move most =>
      match r.tooMany with
      | some errno => (refused errno, w)
      | none => if r.receives then recv net w (pid, r.socket) most r
          else send net w (pid, r.socket) most r

def happens (os : Pipe) : Happening → Pipe
  | .decide verdict => { os with verdict := verdict }
  | .shutdown e => { os with shut := Function.update os.shut e true }
  | .reset e arrived =>
    { os with
      queue := Function.update os.queue e ((os.queue e).take arrived)
      reset := Function.update os.reset e true }

def connections : Connections Pipe Happening where
  kernel := kernel net
  happens ev os := some (os.happens ev)
  pending := Pipe.queue
  ended os e := os.shut e = true
  broken os e := os.reset e = true
  deaf _ _ := False

/-! ### What the kernel does -/

variable {net} {w : World Pipe} {e : Endpoint} {pid most : Nat} {r : Request}

/-- All that a request can do. -/
inductive Effect (net : Wiring) (w : World Pipe) (pid : Nat) (r : Request)
    (a : Answer × World Pipe) : Prop
  | refused (hresult : a.1.result = -1) (hstate : a.2 = w)
  | received (most : Nat) (hreceives : r.receives = true)
      (hlive : ¬ (w.os.queue (pid, r.socket) = [] ∧ room r.iov ≠ 0 ∧
        w.os.shut (net.peer (pid, r.socket)) = false ∧ w.os.reset (pid, r.socket) = false))
      (ha : a = recv net w (pid, r.socket) most r)
  | sent (most : Nat) (hreceives : r.receives = false)
      (hlive : ¬ (w.os.shut (pid, r.socket) ∨ w.os.reset (net.peer (pid, r.socket))))
      (ha : a = send net w (pid, r.socket) most r)

theorem effect_of_request (net : Wiring) (w : World Pipe) (pid : Nat) (r : Request) :
    Effect net w pid r ((kernel net pid).call w r) := by
  show Effect net w pid r (match w.os.verdict with
    | .refuse errno => (Pipe.refused errno, w)
    | .move most =>
      match r.tooMany with
      | some errno => (Pipe.refused errno, w)
      | none => if r.receives then recv net w (pid, r.socket) most r
          else send net w (pid, r.socket) most r)
  cases w.os.verdict with
  | refuse errno => exact .refused rfl rfl
  | move most =>
    cases htoo : r.tooMany with
    | some errno => exact .refused rfl rfl
    | none =>
      dsimp only
      split
      next hreceives =>
        by_cases hwait : w.os.queue (pid, r.socket) = [] ∧ room r.iov ≠ 0 ∧
            w.os.shut (net.peer (pid, r.socket)) = false ∧ w.os.reset (pid, r.socket) = false
        · rw [recv, if_pos hwait]
          exact .refused rfl rfl
        · exact .received most hreceives hwait rfl
      next hreceives =>
        by_cases hdead : w.os.shut (pid, r.socket) ∨ w.os.reset (net.peer (pid, r.socket))
        · rw [send, if_pos hdead]
          exact .refused rfl rfl
        · exact .sent most (Bool.not_eq_true _ ▸ hreceives) hdead rfl

/-- What is moved in one call. -/
theorem length_moved_lt (bs : List Byte) {n : Nat} (h : n ≤ MAX_RW_COUNT) :
    (moved (bs.take n).length).result < 2 ^ 32 := by
  show ((List.length _ : Nat) : Int) < 2 ^ 32
  rw [List.length_take]
  unfold MAX_RW_COUNT at h
  omega

/-- What is received was first in the queue. -/
theorem takes_recv (net : Wiring) (w : World Pipe) (pid most : Nat) (r : Request)
    (hlive : ¬ (w.os.queue (pid, r.socket) = [] ∧ room r.iov ≠ 0 ∧
      w.os.shut (net.peer (pid, r.socket)) = false ∧ w.os.reset (pid, r.socket) = false)) :
    ∃ bs : List Byte, (recv net w (pid, r.socket) most r).1.result = (bs.length : Int) ∧
      (connections net).Takes w (pid, r.socket) r.areas r.iov r.peeks bs
        (recv net w (pid, r.socket) most r).2 := by
  rw [recv, if_neg hlive]
  refine ⟨_, rfl, fun hapart => ?_, fun g => ?_⟩
  · show List.take _ (gather (Function.update w.memory pid _ pid) r.iov) = _
    rw [Function.update_self]
    apply take_gather_scatter (List.pairwise_append.mp hapart).2.1
    rw [List.length_take]
    omega
  · by_cases hpeeks : r.peeks = true
    · rw [if_pos hpeeks, if_neg (fun h => by simp [hpeeks] at h)]
      exact Carries.refl _ _
    · rw [if_neg hpeeks]
      by_cases hg : g = (pid, r.socket)
      · subst hg
        rw [if_pos ⟨rfl, Bool.not_eq_true _ ▸ hpeeks⟩]
        apply Carries.take
        show w.os.queue (pid, r.socket) =
          _ ++ Function.update w.os.queue (pid, r.socket) _ (pid, r.socket)
        rw [Function.update_self]
        exact (List.prefix_iff_eq_append.mp (List.take_prefix _ _)).symm
      · rw [if_neg (fun h => hg h.1)]
        apply Carries.take
        exact (Function.update_of_ne hg _ _).symm

/-- What is sent comes last in the queue of the peer. -/
theorem puts_send (net : Wiring) (w : World Pipe) (pid most : Nat) (r : Request)
    (hlive : ¬ (w.os.shut (pid, r.socket) ∨ w.os.reset (net.peer (pid, r.socket)))) :
    0 ≤ (send net w (pid, r.socket) most r).1.result ∧
      (connections net).Puts net w (pid, r.socket) r.iov
        (send net w (pid, r.socket) most r).1.result.toNat
        (send net w (pid, r.socket) most r).2 := by
  rw [send, if_neg hlive]
  refine ⟨Int.natCast_nonneg _, fun g => ?_⟩
  show (connections net).Moves g w.os (if _ then (gather _ _).take (List.length _) else []) [] _
  rw [← List.prefix_iff_eq_take.mp (List.take_prefix _ _)]
  by_cases hg : net.peer (pid, r.socket) = g
  · subst hg
    rw [if_pos rfl]
    apply Carries.of_eq (fun hreset => hlive (.inr hreset))
    show w.os.queue (net.peer (pid, r.socket)) ++ _ =
      Function.update w.os.queue (net.peer (pid, r.socket)) _ (net.peer (pid, r.socket))
    rw [Function.update_self]
  · rw [if_neg hg]
    apply Carries.take
    exact (Function.update_of_ne (Ne.symm hg) _ _).symm

/-- The kernel keeps to what is documented. -/
theorem documented (net : Wiring) : (connections net).Documented net where
  result_lt pid w r := by
    show ((kernel net pid).call w r).1.result < 2 ^ 32
    cases effect_of_request net w pid r with
    | refused hresult _ => omega
    | received most _ hlive ha =>
      rw [ha, recv, if_neg hlive]
      exact length_moved_lt _ ((Nat.min_le_right _ _).trans (Nat.min_le_right _ _))
    | sent most _ hlive ha =>
      rw [ha, send, if_neg hlive]
      exact length_moved_lt _ (Nat.min_le_right _ _)
  refused pid w r hneg e := by
    change ((kernel net pid).call w r).1.result < 0 at hneg
    show (connections net).Moves e w.os [] [] ((kernel net pid).call w r).2.os
    cases effect_of_request net w pid r with
    | refused _ hstate =>
      rw [hstate]
      exact Carries.refl _ _
    | received most _ hlive ha =>
      obtain ⟨bs, hlen, -⟩ := takes_recv net w pid most r hlive
      rw [ha] at hneg
      omega
    | sent most _ hlive ha =>
      have hpos := (puts_send net w pid most r hlive).1
      rw [ha] at hneg
      omega
  received pid w r _ _ hreceives hpos := by
    change 0 ≤ ((kernel net pid).call w r).1.result at hpos
    show ∃ bs : List Byte, ((kernel net pid).call w r).1.result = (bs.length : Int) ∧
      (connections net).Takes w (pid, r.socket) r.areas r.iov r.peeks bs
        ((kernel net pid).call w r).2
    cases effect_of_request net w pid r with
    | refused hresult _ => omega
    | received most _ hlive ha =>
      rw [ha]
      exact takes_recv net w pid most r hlive
    | sent most hsends _ _ => exact absurd (hsends.symm.trans hreceives) (by decide)
  sent pid w r _ _ hsends hpos := by
    change 0 ≤ ((kernel net pid).call w r).1.result at hpos
    show (connections net).Puts net w (pid, r.socket) r.iov
      ((kernel net pid).call w r).1.result.toNat ((kernel net pid).call w r).2
    cases effect_of_request net w pid r with
    | refused hresult _ => omega
    | received most hreceives _ _ => exact absurd (hsends.symm.trans hreceives) (by decide)
    | sent most _ hlive ha =>
      rw [ha]
      exact (puts_send net w pid most r hlive).2
  happened ev os os' h e := by
    obtain rfl := Option.some.inj h
    cases ev with
    | decide verdict => exact Carries.refl _ _
    | shutdown e' => exact Carries.refl _ _
    | reset e' arrived =>
      show Carries (os.reset e = true) (Function.update os.reset e' true e = true) (os.queue e) []
        [] (Function.update os.queue e' ((os.queue e').take arrived) e)
      by_cases he : e = e'
      · subst he
        rw [Function.update_self, Function.update_self]
        exact ⟨fun _ => rfl, fun h => absurd rfl h,
          (List.append_nil _).symm ▸ List.take_prefix _ _, fun _ => List.take_prefix _ _⟩
      · rw [Function.update_of_ne he, Function.update_of_ne he]
        exact Carries.refl _ _
  ended_after pid w r e h := by
    show ((kernel net pid).call w r).2.os.shut e = true
    have hshut : ((kernel net pid).call w r).2.os.shut = w.os.shut := by
      cases effect_of_request net w pid r with
      | refused _ hstate => rw [hstate]
      | received most _ hlive ha =>
        rw [ha, recv, if_neg hlive]
        show (if _ then w.os else _).shut = _
        split <;> rfl
      | sent most _ hlive ha => rw [ha, send, if_neg hlive]
    rw [hshut]
    exact h
  ended_happens ev os os' e h hshut := by
    obtain rfl := Option.some.inj h
    cases ev with
    | decide verdict => exact hshut
    | shutdown e' =>
      show Function.update os.shut e' true e = true
      rw [Function.update_apply, show os.shut e = true from hshut, ite_self]
    | reset e' arrived => exact hshut
  ended_sends pid w r hsends hshut := by
    show ((kernel net pid).call w r).1.result ≤ 0
    cases effect_of_request net w pid r with
    | refused hresult _ => omega
    | received most hreceives _ _ => exact absurd (hsends.symm.trans hreceives) (by decide)
    | sent most _ hlive _ => exact absurd (.inl hshut) hlive
  finished pid w r _ _ hreceives hroom hzero hwhole _ := by
    change ((kernel net pid).call w r).1.result = 0 at hzero
    show w.os.queue (pid, r.socket) = [] ∧ w.os.shut (net.peer (pid, r.socket)) = true
    cases effect_of_request net w pid r with
    | refused hresult _ => omega
    | sent most hsends _ _ => exact absurd (hsends.symm.trans hreceives) (by decide)
    | received most _ hlive ha =>
      rw [ha, recv, if_neg hlive] at hzero
      have hnil := List.length_eq_zero_iff.mp (Int.natCast_eq_zero.mp hzero)
      have hqueue : w.os.queue (pid, r.socket) = [] := by
        rcases List.take_eq_nil_iff.mp hnil with hmost | hqueue
        · unfold MAX_RW_COUNT at hmost
          omega
        · exact hqueue
      refine ⟨hqueue, ?_⟩
      rw [← Bool.not_eq_false]
      exact fun halive => hlive ⟨hqueue, hroom, halive, Bool.not_eq_true _ ▸ hwhole⟩

end Pipe

end LinuxWinsock.Msg
