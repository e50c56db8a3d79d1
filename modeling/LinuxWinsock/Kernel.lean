import LinuxWinsock.Api
import Mathlib.Tactic.Common

namespace LinuxWinsock

/-!
# The kernel: descriptors, `epoll` sets and `eventfd` counters

The part of the kernel the library's event code rests on: a table of open descriptors,
each a socket, an `epoll` instance or an `eventfd`, with the documented behaviour of the
calls made on them.  Every open file has an identity of its own, so that a descriptor
number that is closed and handed out again can be told apart from the file it named
before.

The table is read through views (`interest`, `counter`, `objectId`, `nonblock`, …), and
each call comes with the lemmas that say what it does to them.
-/

/-- What a descriptor is open on. -/
inductive FileKind where
  /-- A socket: the conditions that hold for it, and its pending `SO_ERROR`. -/
  | socket (ready : BitVec 32) (error : Int)
  /-- An `epoll` instance: the interest mask held for each watched descriptor. -/
  | epoll (interest : Fd → Option (BitVec 32))
  /-- An `eventfd` in counter (not semaphore) mode. -/
  | eventfd (counter : Nat)

/-- An open file: its identity, its `O_NONBLOCK` flag and what it is. -/
structure OpenFile where
  id : Nat
  nonblock : Bool
  kind : FileKind

namespace OpenFile

/-- The interest mask held for `f`, if the file is an `epoll` instance. -/
def maskFor (f : Fd) (o : OpenFile) : Option (BitVec 32) :=
  match o.kind with
  | .epoll I => I f
  | _ => none

/-- The counter, if the file is an `eventfd`. -/
def count (o : OpenFile) : Option Nat :=
  match o.kind with
  | .eventfd c => some c
  | _ => none

/-- The conditions and the pending error, if the file is a socket. -/
def socketState (o : OpenFile) : Option (BitVec 32 × Int) :=
  match o.kind with
  | .socket r err => some (r, err)
  | _ => none

/-- The file is an `epoll` instance. -/
def isEpoll (o : OpenFile) : Bool :=
  match o.kind with
  | .epoll _ => true
  | _ => false

/-- Drop `fd` from the interest set of an `epoll` instance. -/
def forget (fd : Fd) (o : OpenFile) : OpenFile :=
  match o.kind with
  | .epoll I => { o with kind := .epoll (fun g => if g = fd then none else I g) }
  | _ => o

@[simp] theorem forget_id (fd : Fd) (o : OpenFile) : (o.forget fd).id = o.id := by
  unfold forget; split <;> rfl

@[simp] theorem forget_nonblock (fd : Fd) (o : OpenFile) :
    (o.forget fd).nonblock = o.nonblock := by
  unfold forget; split <;> rfl

@[simp] theorem forget_isEpoll (fd : Fd) (o : OpenFile) : (o.forget fd).isEpoll = o.isEpoll := by
  obtain ⟨_, _, kind⟩ := o
  cases kind <;> rfl

@[simp] theorem forget_count (fd : Fd) (o : OpenFile) : (o.forget fd).count = o.count := by
  obtain ⟨_, _, kind⟩ := o
  cases kind <;> rfl

theorem forget_maskFor (fd f : Fd) (o : OpenFile) :
    (o.forget fd).maskFor f = if f = fd then none else o.maskFor f := by
  obtain ⟨_, _, kind⟩ := o
  cases kind <;> simp [forget, maskFor]

/-- Dropping a descriptor that is not watched changes nothing. -/
theorem forget_of_maskFor_eq_none {fd : Fd} {o : OpenFile} (h : o.maskFor fd = none) :
    o.forget fd = o := by
  obtain ⟨id, nb, kind⟩ := o
  cases kind with
  | socket r err => rfl
  | eventfd c => rfl
  | epoll I =>
    have hI : (fun g => if g = fd then none else I g) = I := by
      funext g
      by_cases hg : g = fd
      · subst hg; rw [if_pos rfl]; exact h.symm
      · rw [if_neg hg]
    simp only [forget, hI]

end OpenFile

/-- The descriptor table of the process. -/
structure Kernel where
  file : Fd → Option OpenFile
  nextId : Nat

namespace Kernel

/-! ### Views -/

/-- The interest mask the `epoll` instance `e` holds for `f`. -/
def interest (k : Kernel) (e f : Fd) : Option (BitVec 32) := (k.file e).bind (·.maskFor f)

/-- `e` is open on an `epoll` instance. -/
def isEpoll (k : Kernel) (e : Fd) : Bool := (k.file e).any (·.isEpoll)

/-- The counter of the `eventfd` open at `fd`. -/
def counter (k : Kernel) (fd : Fd) : Option Nat := (k.file fd).bind (·.count)

/-- The conditions and the pending error of the socket open at `fd`. -/
def socketAt (k : Kernel) (fd : Fd) : Option (BitVec 32 × Int) :=
  (k.file fd).bind (·.socketState)

/-- The identity of the file open at `fd`. -/
def objectId (k : Kernel) (fd : Fd) : Option Nat := (k.file fd).map (·.id)

/-- `O_NONBLOCK` is set on the file open at `fd`. -/
def nonblock (k : Kernel) (fd : Fd) : Bool := (k.file fd).any (·.nonblock)

/-- What `epoll_wait` on `e` reports for `f`: the conditions of the interest mask, and the
    two that are always watched, that hold for the socket. -/
def revents (k : Kernel) (e f : Fd) : BitVec 32 :=
  match k.interest e f, k.socketAt f with
  | some mask, some (r, _) => r &&& (mask ||| EPOLLERR ||| EPOLLHUP)
  | _, _ => 0

/-- `select` sees an `eventfd` readable exactly while its counter is not 0. -/
def readable (k : Kernel) (fd : Fd) : Bool := (k.counter fd).any (· ≠ 0)

/-! ### Calls -/

/-- The table with descriptor `fd` changed to `o`. -/
def set (k : Kernel) (fd : Fd) (o : OpenFile) : Kernel :=
  { k with file := fun g => if g = fd then some o else k.file g }

/-- A new file at the free descriptor `fd`. -/
def openAt (k : Kernel) (fd : Fd) (nonblock : Bool) (kind : FileKind) : Kernel :=
  { k.set fd ⟨k.nextId, nonblock, kind⟩ with nextId := k.nextId + 1 }

/-- `close`: the descriptor is freed, and as it was the file's last one, the file leaves
    every `epoll` set. -/
def close (k : Kernel) (fd : Fd) : Kernel :=
  { k with file := fun g => if g = fd then none else (k.file g).map (·.forget fd) }

/-- `epoll_ctl(epfd, EPOLL_CTL_ADD, fd, mask)`: refused for a descriptor that is not open
    (EBADF), for `epfd` itself (EINVAL) and for one already in the set (EEXIST). -/
def epollCtlAdd (k : Kernel) (epfd fd : Fd) (mask : BitVec 32) : Option Kernel :=
  match k.file epfd with
  | some ⟨id, nb, .epoll I⟩ =>
    -- a regular file (EPERM) is not refused: the table has none
    if fd = epfd ∨ k.file fd = none ∨ I fd ≠ none then none
    else some (k.set epfd ⟨id, nb, .epoll (fun g => if g = fd then some mask else I g)⟩)
  | _ => none

/-- `fcntl(fd, F_SETFL, flags | O_NONBLOCK)`, with no effect on a closed descriptor. -/
def setNonblock (k : Kernel) (fd : Fd) : Kernel :=
  match k.file fd with
  | some o => k.set fd { o with nonblock := true }
  | none => k

/-- The largest value an `eventfd` counter holds. -/
def eventfdMax : Nat := 2 ^ 64 - 2

/-- `write` to an `eventfd` adds to the counter, or fails with EAGAIN if that overflows. -/
def eventfdWrite (k : Kernel) (fd : Fd) (val : Nat) : Option Kernel :=
  match k.file fd with
  | some ⟨id, nb, .eventfd c⟩ =>
    if c + val ≤ eventfdMax then some (k.set fd ⟨id, nb, .eventfd (c + val)⟩) else none
  | _ => none

/-- `read` from an `eventfd` returns and clears the counter, or fails with EAGAIN on 0. -/
def eventfdRead (k : Kernel) (fd : Fd) : Option (Nat × Kernel) :=
  match k.file fd with
  | some ⟨id, nb, .eventfd c⟩ =>
    if c = 0 then none else some (c, k.set fd ⟨id, nb, .eventfd 0⟩)
  | _ => none

/-- `getsockopt(fd, SOL_SOCKET, SO_ERROR)` returns the pending error and clears it; it
    fails on a descriptor that is not an open socket. -/
def takeError (k : Kernel) (fd : Fd) : Option (Int × Kernel) :=
  match k.file fd with
  | some ⟨id, nb, .socket r err⟩ => some (err, k.set fd ⟨id, nb, .socket r 0⟩)
  | _ => none

/-- The network changes what holds for the socket at `fd`. -/
def setSocket (k : Kernel) (fd : Fd) (r : BitVec 32) (err : Int) : Option Kernel :=
  match k.file fd with
  | some ⟨id, nb, .socket _ _⟩ => some (k.set fd ⟨id, nb, .socket r err⟩)
  | _ => none

/-! ### The views after a change of one descriptor -/

section Views

variable (k : Kernel) (fd : Fd) (o : OpenFile)

theorem set_file (g : Fd) : (k.set fd o).file g = if g = fd then some o else k.file g := rfl

@[simp] theorem set_file_self : (k.set fd o).file fd = some o := if_pos rfl

theorem openAt_file (nb : Bool) (kind : FileKind) (g : Fd) :
    (k.openAt fd nb kind).file g = if g = fd then some ⟨k.nextId, nb, kind⟩ else k.file g := rfl

theorem close_file (g : Fd) :
    (k.close fd).file g = if g = fd then none else (k.file g).map (·.forget fd) := rfl

/-- A closed file is in no `epoll` set, and neither is anything in its own. -/
theorem close_interest (e f : Fd) :
    (k.close fd).interest e f = if e = fd ∨ f = fd then none else k.interest e f := by
  unfold interest
  rw [close_file]
  by_cases he : e = fd
  · simp [he]
  · cases h : k.file e with
    | none => simp [he]
    | some o => by_cases hf : f = fd <;> simp [he, hf, OpenFile.forget_maskFor]

theorem close_isEpoll (g : Fd) :
    (k.close fd).isEpoll g = if g = fd then false else k.isEpoll g := by
  unfold isEpoll
  rw [close_file]
  split
  · rfl
  · cases k.file g <;> simp

theorem close_counter (g : Fd) :
    (k.close fd).counter g = if g = fd then none else k.counter g := by
  unfold counter
  rw [close_file]
  split
  · rfl
  · cases k.file g <;> simp

theorem close_objectId (g : Fd) :
    (k.close fd).objectId g = if g = fd then none else k.objectId g := by
  unfold objectId
  rw [close_file]
  split
  · rfl
  · cases k.file g <;> simp

theorem close_nonblock (g : Fd) :
    (k.close fd).nonblock g = if g = fd then false else k.nonblock g := by
  unfold nonblock
  rw [close_file]
  split
  · rfl
  · cases k.file g <;> simp

end Views

/-- A view of the table is kept by a change that keeps it for the changed file. -/
theorem set_view {β : Type} (F : Option OpenFile → β) {k : Kernel} {fd : Fd} {o : OpenFile}
    (o' : OpenFile) (ho : k.file fd = some o) (hF : F (some o') = F (some o)) (g : Fd) :
    F ((k.set fd o').file g) = F (k.file g) := by
  rw [set_file]
  by_cases hg : g = fd
  · rw [if_pos hg, hF, hg, ho]
  · rw [if_neg hg]

/-- The same files are open, with the same flags and the same `epoll` sets: what a call on
    an `eventfd` or a socket's state leaves alone. -/
structure SameWatch (k k' : Kernel) : Prop where
  interest : ∀ e f, k'.interest e f = k.interest e f
  isEpoll : ∀ e, k'.isEpoll e = k.isEpoll e
  objectId : ∀ g, k'.objectId g = k.objectId g
  nonblock : ∀ g, k'.nonblock g = k.nonblock g
  nextId : k.nextId ≤ k'.nextId

/-- Every view is a function of the table. -/
theorem sameWatch_of_file_eq {k k' : Kernel} (hfile : k'.file = k.file)
    (hid : k.nextId ≤ k'.nextId) : SameWatch k k' where
  interest e f := by rw [interest, interest, hfile]
  isEpoll e := by rw [isEpoll, isEpoll, hfile]
  objectId g := by rw [objectId, objectId, hfile]
  nonblock g := by rw [nonblock, nonblock, hfile]
  nextId := hid

theorem SameWatch.refl (k : Kernel) : SameWatch k k := sameWatch_of_file_eq rfl (le_refl _)

theorem SameWatch.trans {k k' k'' : Kernel} (h : SameWatch k k') (h' : SameWatch k' k'') :
    SameWatch k k'' where
  interest e f := (h'.interest e f).trans (h.interest e f)
  isEpoll e := (h'.isEpoll e).trans (h.isEpoll e)
  objectId g := (h'.objectId g).trans (h.objectId g)
  nonblock g := (h'.nonblock g).trans (h.nonblock g)
  nextId := h.nextId.trans h'.nextId

theorem objectId_eq_none {k : Kernel} {g : Fd} : k.objectId g = none ↔ k.file g = none := by
  simp [objectId]

theorem SameWatch.closed {k k' : Kernel} (h : SameWatch k k') {g : Fd} :
    k'.file g = none ↔ k.file g = none := by
  rw [← objectId_eq_none, ← objectId_eq_none, h.objectId]

theorem sameWatch_set {k : Kernel} {fd : Fd} {o o' : OpenFile} (ho : k.file fd = some o)
    (hmask : ∀ f, o'.maskFor f = o.maskFor f) (hep : o'.isEpoll = o.isEpoll)
    (hid : o'.id = o.id) (hnb : o'.nonblock = o.nonblock) : SameWatch k (k.set fd o') where
  interest e f := set_view (fun x => x.bind (OpenFile.maskFor f)) o' ho (hmask f) e
  isEpoll := set_view (fun x => x.any OpenFile.isEpoll) o' ho hep
  objectId := set_view (fun x => x.map OpenFile.id) o' ho (congrArg some hid)
  nonblock := set_view (fun x => x.any OpenFile.nonblock) o' ho hnb
  nextId := le_refl _

/-! ### What each call does to the views -/

theorem counter_eq_some {k : Kernel} {fd : Fd} {c : Nat} :
    k.counter fd = some c ↔ ∃ id nb, k.file fd = some ⟨id, nb, .eventfd c⟩ := by
  unfold counter
  cases h : k.file fd with
  | none => simp
  | some o =>
    obtain ⟨id, nb, kind⟩ := o
    cases kind <;> simp [OpenFile.count]

theorem set_counter {k : Kernel} {fd : Fd} {id c : Nat} {nb : Bool} (g : Fd) :
    (k.set fd ⟨id, nb, .eventfd c⟩).counter g = if g = fd then some c else k.counter g := by
  unfold counter
  rw [set_file]
  split <;> rfl

/-- A write that fits adds to the counter and does nothing else. -/
theorem eventfdWrite_spec {k : Kernel} {fd : Fd} {c : Nat} (val : Nat) (hc : k.counter fd = some c)
    (hfit : c + val ≤ eventfdMax) :
    ∃ k', k.eventfdWrite fd val = some k' ∧ SameWatch k k' ∧
      ∀ g, k'.counter g = if g = fd then some (c + val) else k.counter g := by
  obtain ⟨id, nb, hf⟩ := counter_eq_some.mp hc
  refine ⟨k.set fd ⟨id, nb, .eventfd (c + val)⟩, ?_, ?_, set_counter⟩
  · simp only [eventfdWrite, hf, if_pos hfit]
  · exact sameWatch_set hf (fun _ => rfl) rfl rfl rfl

/-- A read of a counter that is not 0 clears it and does nothing else. -/
theorem eventfdRead_spec {k : Kernel} {fd : Fd} {c : Nat} (hc : k.counter fd = some c)
    (hpos : c ≠ 0) :
    ∃ k', k.eventfdRead fd = some (c, k') ∧ SameWatch k k' ∧
      ∀ g, k'.counter g = if g = fd then some 0 else k.counter g := by
  obtain ⟨id, nb, hf⟩ := counter_eq_some.mp hc
  refine ⟨k.set fd ⟨id, nb, .eventfd 0⟩, ?_, ?_, set_counter⟩
  · simp only [eventfdRead, hf, if_neg hpos]
  · exact sameWatch_set hf (fun _ => rfl) rfl rfl rfl

/-- A read of a counter that is 0 fails. -/
theorem eventfdRead_zero {k : Kernel} {fd : Fd} (hc : k.counter fd = some 0) :
    k.eventfdRead fd = none := by
  obtain ⟨id, nb, hf⟩ := counter_eq_some.mp hc
  simp [eventfdRead, hf]

/-- What happens to a socket's state is seen by no `epoll` set and no counter. -/
theorem set_socket_spec {k : Kernel} {fd : Fd} {id : Nat} {nb : Bool} {r r' : BitVec 32}
    {err err' : Int} (hf : k.file fd = some ⟨id, nb, .socket r err⟩) :
    SameWatch k (k.set fd ⟨id, nb, .socket r' err'⟩) ∧
      ∀ g, (k.set fd ⟨id, nb, .socket r' err'⟩).counter g = k.counter g := by
  refine ⟨sameWatch_set hf (fun _ => rfl) rfl rfl rfl, fun g => ?_⟩
  exact set_view (fun x => x.bind OpenFile.count) ⟨id, nb, .socket r' err'⟩ hf rfl g

theorem takeError_spec {k k' : Kernel} {fd : Fd} {err : Int} (h : k.takeError fd = some (err, k')) :
    SameWatch k k' ∧ ∀ g, k'.counter g = k.counter g := by
  unfold takeError at h
  split at h
  · rename_i hf
    obtain ⟨_, rfl⟩ := Prod.mk.inj (Option.some.inj h)
    exact set_socket_spec hf
  · cases h

theorem setSocket_spec {k k' : Kernel} {fd : Fd} {r : BitVec 32} {err : Int}
    (h : k.setSocket fd r err = some k') :
    SameWatch k k' ∧ ∀ g, k'.counter g = k.counter g := by
  unfold setSocket at h
  split at h
  · rename_i hf
    obtain rfl := Option.some.inj h
    exact set_socket_spec hf
  · cases h

/-- What an `EPOLL_CTL_ADD` that succeeds does: it needs an open descriptor other than the
    instance itself, and puts it into the set. -/
theorem epollCtlAdd_eq_some {k k' : Kernel} {epfd fd : Fd} {mask : BitVec 32}
    (h : k.epollCtlAdd epfd fd mask = some k') :
    fd ≠ epfd ∧ k.file fd ≠ none ∧ ∃ id nb I, k.file epfd = some ⟨id, nb, .epoll I⟩ ∧
      k' = k.set epfd ⟨id, nb, .epoll (fun g => if g = fd then some mask else I g)⟩ := by
  unfold epollCtlAdd at h
  split at h
  · rename_i id nb I hf
    split at h
    · cases h
    · rename_i hne
      push Not at hne
      exact ⟨hne.1, hne.2.1, id, nb, I, hf, (Option.some.inj h).symm⟩
  · cases h

theorem setNonblock_file (k : Kernel) (fd g : Fd) :
    (k.setNonblock fd).file g =
      if g = fd then (k.file fd).map ({ · with nonblock := true }) else k.file g := by
  unfold setNonblock
  cases h : k.file fd with
  | some o => rfl
  | none =>
    by_cases hg : g = fd
    · simp [hg, h]
    · simp [hg]

theorem setNonblock_nextId (k : Kernel) (fd : Fd) : (k.setNonblock fd).nextId = k.nextId := by
  unfold setNonblock
  split <;> rfl

/-- A view that does not read `O_NONBLOCK` does not see `setNonblock`. -/
theorem setNonblock_view {β : Type} (F : Option OpenFile → β) (k : Kernel) (fd : Fd)
    (hF : ∀ o : OpenFile, F (some { o with nonblock := true }) = F (some o)) (g : Fd) :
    F ((k.setNonblock fd).file g) = F (k.file g) := by
  rw [setNonblock_file]
  by_cases hg : g = fd
  · rw [if_pos hg, hg]
    cases k.file fd with
    | none => rfl
    | some o => exact hF o
  · rw [if_neg hg]

/-! `setNonblock` changes one view only, and only from `false` to `true`. -/

section Nonblock

variable (k : Kernel) (fd g : Fd)

theorem setNonblock_interest (f : Fd) : (k.setNonblock fd).interest g f = k.interest g f :=
  setNonblock_view (fun x => x.bind (OpenFile.maskFor f)) k fd (fun _ => rfl) g

theorem setNonblock_isEpoll : (k.setNonblock fd).isEpoll g = k.isEpoll g :=
  setNonblock_view (fun x => x.any OpenFile.isEpoll) k fd (fun _ => rfl) g

theorem setNonblock_counter : (k.setNonblock fd).counter g = k.counter g :=
  setNonblock_view (fun x => x.bind OpenFile.count) k fd (fun _ => rfl) g

theorem setNonblock_objectId : (k.setNonblock fd).objectId g = k.objectId g :=
  setNonblock_view (fun x => x.map OpenFile.id) k fd (fun _ => rfl) g

theorem setNonblock_nonblock :
    (k.setNonblock fd).nonblock g = (k.nonblock g || (decide (g = fd) && (k.file g).isSome)) := by
  unfold nonblock
  rw [setNonblock_file]
  by_cases hg : g = fd
  · rw [if_pos hg, hg]
    cases k.file fd <;> simp
  · simp [hg]

end Nonblock

/-! ### Tables that calls can produce -/

/-- Only open files are in `epoll` sets. -/
def Clean (k : Kernel) : Prop := ∀ e f, k.file f = none → k.interest e f = none

/-- The identities handed out so far are below `nextId`. -/
def Fresh (k : Kernel) : Prop := ∀ g id, k.objectId g = some id → id < k.nextId

/-- Closing a descriptor that was just opened restores the table. -/
theorem close_openAt_file {k : Kernel} (hk : k.Clean) {fd : Fd} (hfd : k.file fd = none)
    (nb : Bool) (kind : FileKind) : ((k.openAt fd nb kind).close fd).file = k.file := by
  funext g
  rw [close_file]
  by_cases hg : g = fd
  · rw [if_pos hg, hg, hfd]
  · rw [if_neg hg, openAt_file, if_neg hg]
    cases ho : k.file g with
    | none => rfl
    | some o =>
      have hmask : o.maskFor fd = none := by
        have h := hk g fd hfd
        rwa [interest, ho] at h
      simp [OpenFile.forget_of_maskFor_eq_none hmask]

theorem Clean.of_sameWatch {k k' : Kernel} (hk : k.Clean) (h : SameWatch k k') : k'.Clean := by
  intro e f hf
  rw [h.interest]
  exact hk e f (h.closed.mp hf)

theorem Fresh.of_sameWatch {k k' : Kernel} (hk : k.Fresh) (h : SameWatch k k') : k'.Fresh := by
  intro g id hg
  rw [h.objectId] at hg
  have hlt := hk g id hg
  have hle := h.nextId
  omega

theorem Clean.close {k : Kernel} (hk : k.Clean) (fd : Fd) : (k.close fd).Clean := by
  intro e f hf
  rw [close_interest]
  by_cases hor : e = fd ∨ f = fd
  · rw [if_pos hor]
  · rw [if_neg hor]
    rw [close_file, if_neg (fun h => hor (.inr h)), Option.map_eq_none_iff] at hf
    exact hk e f hf

theorem Fresh.close {k : Kernel} (hk : k.Fresh) (fd : Fd) : (k.close fd).Fresh := by
  intro g id hg
  rw [close_objectId] at hg
  split at hg
  · cases hg
  · exact hk g id hg

/-- The `epoll` sets after a socket or an `eventfd` was opened. -/
theorem openAt_interest {k : Kernel} {fd : Fd} {nb : Bool} {kind : FileKind}
    (hplain : ∀ I, kind ≠ .epoll I) (hfd : k.file fd = none) (e f : Fd) :
    (k.openAt fd nb kind).interest e f = k.interest e f := by
  unfold interest
  rw [openAt_file]
  by_cases he : e = fd
  · rw [if_pos he, he, hfd]
    cases kind with
    | epoll I => exact absurd rfl (hplain I)
    | socket r err => rfl
    | eventfd c => rfl
  · rw [if_neg he]

theorem openAt_isEpoll {k : Kernel} {fd : Fd} {nb : Bool} {kind : FileKind}
    (hfd : k.file fd = none) {e : Fd} (he : k.isEpoll e = true) :
    (k.openAt fd nb kind).isEpoll e = true := by
  have hne : e ≠ fd := by
    rintro rfl
    rw [isEpoll, hfd] at he
    cases he
  rw [isEpoll, openAt_file, if_neg hne]
  exact he

theorem openAt_counter (k : Kernel) (fd : Fd) (nb : Bool) (kind : FileKind) (g : Fd) :
    (k.openAt fd nb kind).counter g =
      if g = fd then OpenFile.count ⟨k.nextId, nb, kind⟩ else k.counter g := by
  unfold counter
  rw [openAt_file]
  split <;> rfl

theorem counter_eq_none_of_isEpoll {k : Kernel} {e : Fd} (he : k.isEpoll e = true) :
    k.counter e = none := by
  unfold isEpoll at he
  unfold counter
  cases hf : k.file e with
  | none => rfl
  | some o =>
    obtain ⟨id, nb, kind⟩ := o
    rw [hf] at he
    cases kind with
    | epoll I => rfl
    | socket r err => cases he
    | eventfd c => cases he

/-- What has a counter is no `epoll` instance. -/
theorem isEpoll_eq_false_of_counter {k : Kernel} {e : Fd} (h : k.counter e ≠ none) :
    k.isEpoll e = false := by
  cases hep : k.isEpoll e with
  | false => rfl
  | true => exact absurd (counter_eq_none_of_isEpoll hep) h

/-- Nor is a socket. -/
theorem isEpoll_eq_false_of_socket {k : Kernel} {s : Fd}
    (h : ∃ id nb r err, k.file s = some ⟨id, nb, .socket r err⟩) : k.isEpoll s = false := by
  obtain ⟨id, nb, r, err, hs⟩ := h
  rw [isEpoll, hs]
  rfl

theorem Clean.openAt {k : Kernel} (hk : k.Clean) {fd : Fd} {nb : Bool} {kind : FileKind}
    (hplain : ∀ I, kind ≠ .epoll I) (hfd : k.file fd = none) : (k.openAt fd nb kind).Clean := by
  intro e f hf
  rw [openAt_interest hplain hfd]
  rw [openAt_file] at hf
  split at hf
  · cases hf
  · exact hk e f hf

theorem openAt_objectId (k : Kernel) (fd : Fd) (nb : Bool) (kind : FileKind) (g : Fd) :
    (k.openAt fd nb kind).objectId g = if g = fd then some k.nextId else k.objectId g := by
  unfold objectId
  rw [openAt_file]
  split <;> rfl

theorem Fresh.openAt {k : Kernel} (hk : k.Fresh) (fd : Fd) (nb : Bool) (kind : FileKind) :
    (k.openAt fd nb kind).Fresh := by
  intro g id hg
  show id < k.nextId + 1
  rw [openAt_objectId] at hg
  split at hg
  · have heq := Option.some.inj hg
    omega
  · have hlt := hk g id hg
    omega

end Kernel

end LinuxWinsock
