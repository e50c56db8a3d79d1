import LinuxWinsock.Events.Mapping

namespace LinuxWinsock

open Kernel LinkedList TransitionSystem

/-!
# Descriptor numbers that are used again

A mapping names its socket by the descriptor number, while the kernel's `epoll` sets hold
open files.  `owner` is the file a mapping was made for.

* `owner_of_run` — as long as the owner is open under the mapping's number, the mapping's
  `epoll` instance watches it and it is non-blocking; a file opened there later has
  another identity;
* `registration_survives_iff` — neither `closesocket` nor `DisconnectEx` removes a mapping,
  so every mapping belongs to an open socket, and every successful registration has an
  effect, throughout a run exactly if no step closes a socket that has a mapping.
-/

variable {w w' : World} {l : Label} {tr : Trace}

/-- The file open at the socket number of a call that returns 0, if `p` is free before it. -/
def madeFor (p : Addr) (w : World) (l : Label) : Option Nat :=
  if w.maps.cell p = none then (registers w l).bind (fun r => w.kernel.objectId r.1) else none

/-- The identity of the file the mapping at `p` was made for: the one open at the socket
    number of the last call that returned 0 while `p` was free.  (A record is not freed
    once the call that made it has returned 0.) -/
def owner (p : Addr) : Trace → Option Nat := latest (madeFor p)

/-- A mapping that exists keeps its owner. -/
theorem owner_of_live {p : Addr} {m : SocketEventMap} (hp : w.maps.cell p = some m) :
    owner p ((w, l) :: tr) = owner p tr := by
  have hnone : madeFor p w l = none := by
    unfold madeFor
    rw [hp]
    exact if_neg (Option.some_ne_none m)
  exact latest_cons_none hnone tr

/-- A mapping that the step makes belongs to the file open at its socket number. -/
theorem owner_of_registers {p : Addr} {s : SOCKET} {r : WSAEVENT × BitVec 64} {id : Nat}
    (hp : w.maps.cell p = none) (hreg : registers w l = some (s, r))
    (hid : w.kernel.objectId s = some id) : owner p ((w, l) :: tr) = some id := by
  have hsome : madeFor p w l = some id := by
    unfold madeFor
    rw [if_pos hp, hreg]
    exact hid
  exact latest_cons_some hsome tr

/-- A new mapping belongs to the file that was open at its socket number. -/
theorem owner_of_created (tr : Trace) {s : SOCKET} {h : WSAEVENT} {mask : BitVec 64}
    {map : Addr} {epollFd : Fd} (hreg : registers w l = some (s, h, mask))
    (hc : Created w w' map epollFd s h mask) :
    ∃ id, w.kernel.objectId s = some id ∧ owner map ((w, l) :: tr) = some id := by
  obtain ⟨id, hid⟩ := Option.ne_none_iff_exists'.mp
    (fun hnone => hc.isOpen (objectId_eq_none.mp hnone))
  exact ⟨id, hid, owner_of_registers hc.fresh hreg hid⟩

/-- The owner of a mapping is an earlier file than any still to be opened.  While it is open
    under the mapping's number, it is watched and non-blocking. -/
def OwnerInv (tr : Trace) (w : World) : Prop :=
  ∀ p m, w.maps.cell p = some m → ∃ id, owner p tr = some id ∧ id < w.kernel.nextId ∧
    (w.kernel.objectId m.sock = some id →
      w.kernel.interest m.epollFd m.sock ≠ none ∧ w.kernel.nonblock m.sock = true)

/-- Every mapping belongs to a file that is still open under the mapping's number. -/
def OwnersOpen (tr : Trace) (w : World) : Prop :=
  ∃ L, w.MapList L ∧ ∀ p ∈ L, ∀ m, w.maps.cell p = some m →
    ∃ id, owner p tr = some id ∧ w.kernel.objectId m.sock = some id

/-- If the latest step was a call of `WSAEventSelect` that returned 0, the file open at its
    socket number is watched by the `epoll` instance of the socket's mapping and is
    non-blocking. -/
def SelectWorks : Trace → World → Prop
  | [], _ => True
  | (w₀, l) :: _, w => ∀ s h mask, registers w₀ l = some (s, h, mask) →
      w.kernel.file s ≠ none ∧ w.kernel.nonblock s = true ∧
        ∃ p m, w.maps.cell p = some m ∧ m.sock = s ∧ w.kernel.interest m.epollFd s ≠ none

/-- The step closes no socket that has a mapping. -/
def ClosesUnmapped (w : World) (l : Label) : Prop :=
  ∀ s, closes w l = some s → ∀ p m, w.maps.cell p = some m → m.sock ≠ s

/-! ### The owner of a mapping -/

/-- A step that closes a file the library does not wait on keeps `OwnerInv`. -/
theorem OwnerInv.closed (h : OwnerInv tr w) (hi : Inv w) (hf : Frame w l w') {fd : Fd}
    (hep : w.kernel.isEpoll fd = false) (hkernel : w'.kernel = w.kernel.close fd) :
    OwnerInv ((w, l) :: tr) w' := by
  obtain ⟨L, hL⟩ := hi.maps
  intro p m hp
  rw [hf.maps] at hp
  obtain ⟨id, hown, hlt, hopen⟩ := h p m hp
  refine ⟨id, by rw [owner_of_live hp, hown], by rw [hkernel]; exact hlt, fun hid => ?_⟩
  rw [hkernel, close_objectId] at hid
  have hs : m.sock ≠ fd := by
    intro heq
    rw [if_pos heq] at hid
    cases hid
  have he : m.epollFd ≠ fd := by
    intro heq
    have hopen := hL.epoll p m hp
    rw [heq, hep] at hopen
    cases hopen
  rw [if_neg hs] at hid
  have hboth : ¬ (m.epollFd = fd ∨ m.sock = fd) := by
    rintro (heq | heq)
    · exact he heq
    · exact hs heq
  rw [hkernel, close_interest, close_nonblock, if_neg hboth, if_neg hs]
  exact hopen hid

/-- A step that opens a file keeps `OwnerInv`: the file is not the owner of any mapping. -/
theorem OwnerInv.opened (h : OwnerInv tr w) (hf : Frame w l w') {fd : Fd} {nb : Bool}
    {kind : FileKind} (hplain : ∀ I, kind ≠ .epoll I) (hfree : w.kernel.file fd = none)
    (hkernel : w'.kernel = w.kernel.openAt fd nb kind) : OwnerInv ((w, l) :: tr) w' := by
  intro p m hp
  rw [hf.maps] at hp
  obtain ⟨id, hown, hlt, hopen⟩ := h p m hp
  have hnext : w'.kernel.nextId = w.kernel.nextId + 1 := by rw [hkernel]; rfl
  refine ⟨id, by rw [owner_of_live hp, hown], by omega, fun hid => ?_⟩
  rw [hkernel, openAt_objectId] at hid
  have hs : m.sock ≠ fd := by
    intro heq
    rw [if_pos heq] at hid
    have hnew := Option.some.inj hid
    omega
  rw [if_neg hs] at hid
  have hnb : w'.kernel.nonblock m.sock = w.kernel.nonblock m.sock := by
    rw [hkernel, Kernel.nonblock, openAt_file, if_neg hs]
    rfl
  rw [hkernel, openAt_interest hplain hfree, ← hkernel, hnb]
  exact hopen hid

/-- A step that only touches an `eventfd` or a socket's state keeps `OwnerInv`. -/
theorem OwnerInv.of_sameWatch (h : OwnerInv tr w) (hf : Frame w l w')
    (hw : SameWatch w.kernel w'.kernel) : OwnerInv ((w, l) :: tr) w' := by
  intro p m hp
  rw [hf.maps] at hp
  obtain ⟨id, hown, hlt, hopen⟩ := h p m hp
  refine ⟨id, by rw [owner_of_live hp, hown], lt_of_lt_of_le hlt hw.nextId, fun hid => ?_⟩
  rw [hw.objectId] at hid
  rw [hw.interest, hw.nonblock]
  exact hopen hid

theorem OwnerInv.step (h : OwnerInv tr w) (hi : Inv w) (he : Effect w l w') :
    OwnerInv ((w, l) :: tr) w' := by
  cases he with
  | quiet _ frame watch => exact h.of_sameWatch frame watch
  | signalled _ _ _ _ frame _ watch => exact h.of_sameWatch frame watch
  | eventCreated _ _ _ frame _ free kernel =>
    have hplain : ∀ I, FileKind.eventfd 0 ≠ .epoll I := nofun
    exact h.opened frame hplain free kernel
  | socketOpened _ _ _ frame free kernel =>
    have hplain : ∀ I, FileKind.socket 0 0 ≠ .epoll I := nofun
    exact h.opened frame hplain free kernel
  | eventClosed p event _ frame _ live kernel =>
    exact h.closed hi frame (isEpoll_eq_false_of_counter (hi.events.counter_ne_none live)) kernel
  | socketClosed s _ frame isSocket kernel =>
    exact h.closed hi frame (isEpoll_eq_false_of_socket isSocket) kernel
  | updated s hEvent mask p m marks live _ kernel _ maps =>
    intro q n hq
    rw [maps] at hq
    obtain ⟨n₀, hq₀, hns, hne⟩ := cell_of_updated live hq
    obtain ⟨id, hown, hrest⟩ := h q n₀ hq₀
    refine ⟨id, by rw [owner_of_live hq₀, hown], ?_⟩
    rw [kernel, ← hns, ← hne]
    exact hrest
  | created s hEvent mask map epollFd marks unmapped created =>
    intro q n hq
    rw [created.maps] at hq
    rcases Heap.cell_of_put hq with ⟨rfl, rfl⟩ | ⟨_, hq⟩
    · obtain ⟨id, hid, hown⟩ := owner_of_created tr marks.registers created
      have hlt := hi.fresh s id hid
      refine ⟨id, hown, by rw [created.nextId]; omega, fun _ => ⟨?_, created.nonblock⟩⟩
      rw [created.interest, if_pos rfl, if_pos rfl]
      exact Option.some_ne_none _
    · obtain ⟨id, hown, hlt, hopen⟩ := h q n hq
      obtain ⟨L, hL⟩ := hi.maps
      refine ⟨id, by rw [owner_of_live hq, hown], by rw [created.nextId]; omega, fun hid => ?_⟩
      -- the file of an older owner is not the new instance, which has a new number
      have hs : n.sock ≠ epollFd := by
        intro heq
        rw [heq, created.objectId_self] at hid
        have hnew := Option.some.inj hid
        omega
      rw [created.objectId _ hs] at hid
      obtain ⟨hint, hnb⟩ := hopen hid
      rw [created.interest, if_neg (hL.epollFd_ne created hq)]
      exact ⟨hint, created.nonblock_mono _ hnb⟩

/-- In every reachable state, the owner of a mapping is watched and non-blocking as long as
    it is open under the mapping's number. -/
theorem owner_of_run (h : system.Run tr w) : OwnerInv tr w := by
  refine h.invariant (P := OwnerInv) ?_ ?_
  · intro s hs p m hp
    obtain rfl : s = World.start := hs
    cases hp
  · intro tr s l t hrun ih hstep
    obtain ⟨hi, he⟩ := effect_of_run hrun hstep
    exact ih.step hi he

/-! ### What closing a socket does to its mapping -/

/-- The sockets of the mappings are those that the mappings were made for. -/
def SockOwned (tr : Trace) (w : World) : Prop :=
  ∀ p m, w.maps.cell p = some m → w.kernel.objectId m.sock = owner p tr

/-- The records of the list are the records that are allocated. -/
theorem ownersOpen_iff (hi : Inv w) (ho : OwnerInv tr w) : OwnersOpen tr w ↔ SockOwned tr w := by
  obtain ⟨L, hL⟩ := hi.maps
  constructor
  · rintro ⟨L', hL', hall⟩ p m hm
    have hp : p ∈ L' := hi.mem_of_mapList hL' hm
    obtain ⟨id, hown, hid⟩ := hall p hp m hm
    rw [hid, hown]
  · intro hall
    refine ⟨L, hL.list, fun p _ m hm => ?_⟩
    obtain ⟨id, hown, _⟩ := ho p m hm
    exact ⟨id, hown, by rw [hall p m hm, hown]⟩

/-- Where every mapping belongs to an open file, a successful registration has its effect. -/
theorem selectWorks_of_ownersOpen (hi : Inv w) (he : Effect w l w')
    (ho : OwnerInv ((w, l) :: tr) w') (hopen : OwnersOpen ((w, l) :: tr) w') :
    SelectWorks ((w, l) :: tr) w' := by
  intro s h mask hreg
  have hregd : Registered w' s (h, mask) := by
    rw [registered_step hi he, hreg]
    dsimp only
    rw [if_pos rfl]
  obtain ⟨p, m, hm, hms, _⟩ := hregd
  obtain ⟨id, hown, _, hwatch⟩ := ho p m hm
  have hid : w'.kernel.objectId m.sock = some id := by
    rw [(ownersOpen_iff (inv_of_effect hi he) ho).mp hopen p m hm, hown]
  obtain ⟨hint, hnb⟩ := hwatch hid
  subst hms
  refine ⟨fun hnone => ?_, hnb, p, m, hm, rfl, hint⟩
  rw [objectId_eq_none.mpr hnone] at hid
  cases hid

theorem SockOwned.objectId_ne_none (hP : SockOwned tr w) (ho : OwnerInv tr w) {p : Addr}
    {m : SocketEventMap} (hm : w.maps.cell p = some m) : w.kernel.objectId m.sock ≠ none := by
  intro hnone
  obtain ⟨id, hown, _⟩ := ho p m hm
  rw [hP p m hm, hown] at hnone
  cases hnone

/-- A step that leaves the mappings alone and closes nothing. -/
theorem SockOwned.kept (hP : SockOwned tr w) (ho : OwnerInv tr w) (hf : Frame w l w')
    (hobj : ∀ g, w.kernel.objectId g ≠ none → w'.kernel.objectId g = w.kernel.objectId g) :
    SockOwned ((w, l) :: tr) w' := by
  intro p m hm
  rw [hf.maps] at hm
  rw [owner_of_live hm, hobj _ (hP.objectId_ne_none ho hm)]
  exact hP p m hm

/-- A step that leaves the mappings alone and closes `fd`. -/
theorem SockOwned.closed_iff (hP : SockOwned tr w) (ho : OwnerInv tr w) {fd : Fd}
    (hf : Frame w l w') (hcl : closes w l = some fd) (hkernel : w'.kernel = w.kernel.close fd) :
    SockOwned ((w, l) :: tr) w' ↔ ClosesUnmapped w l := by
  constructor
  · intro hall s hs p m hm heq
    obtain rfl := Option.some.inj (hcl.symm.trans hs)
    obtain ⟨id, hown, _⟩ := ho p m hm
    have hid := hall p m (by rw [hf.maps]; exact hm)
    rw [hkernel, close_objectId, if_pos heq, owner_of_live hm, hown] at hid
    cases hid
  · intro hun p m hm
    rw [hf.maps] at hm
    rw [hkernel, close_objectId, if_neg (hun fd hcl p m hm), owner_of_live hm]
    exact hP p m hm

theorem closesUnmapped_of_none (h : closes w l = none) : ClosesUnmapped w l := by
  intro s hs
  rw [h] at hs
  cases hs

/-- One step: where every mapping belongs to an open file, it still does after the step
    exactly if the step closes no socket that has a mapping. -/
theorem ownersOpen_step (hi : Inv w) (he : Effect w l w') (ho : OwnerInv tr w)
    (hP : OwnersOpen tr w) : OwnersOpen ((w, l) :: tr) w' ↔ ClosesUnmapped w l := by
  rw [ownersOpen_iff (inv_of_effect hi he) (ho.step hi he)]
  have hP : SockOwned tr w := (ownersOpen_iff hi ho).mp hP
  -- opening a free number moves no open file
  have hopened : ∀ fd nb kind, w.kernel.file fd = none →
      w'.kernel = w.kernel.openAt fd nb kind →
      ∀ g, w.kernel.objectId g ≠ none → w'.kernel.objectId g = w.kernel.objectId g := by
    intro fd nb kind hfree hkernel g hg
    have hne : g ≠ fd := fun heq => hg (objectId_eq_none.mpr (heq ▸ hfree))
    rw [hkernel, openAt_objectId, if_neg hne]
  cases he with
  | quiet marks frame watch =>
    exact iff_of_true (hP.kept ho frame (fun g _ => watch.objectId g))
      (closesUnmapped_of_none marks.closes)
  | signalled _ _ _ marks frame _ watch =>
    exact iff_of_true (hP.kept ho frame (fun g _ => watch.objectId g))
      (closesUnmapped_of_none marks.closes)
  | eventCreated _ efd marks frame _ free kernel =>
    exact iff_of_true (hP.kept ho frame (hopened _ _ _ free kernel))
      (closesUnmapped_of_none marks.closes)
  | socketOpened fd nb marks frame free kernel =>
    exact iff_of_true (hP.kept ho frame (hopened _ _ _ free kernel))
      (closesUnmapped_of_none marks.closes)
  | eventClosed _ event marks frame _ _ kernel => exact hP.closed_iff ho frame marks.closes kernel
  | socketClosed s marks frame _ kernel => exact hP.closed_iff ho frame marks.closes kernel
  | updated s h mask p m marks live _ kernel _ maps =>
    refine iff_of_true (fun q n hq => ?_) (closesUnmapped_of_none marks.closes)
    rw [maps] at hq
    obtain ⟨n₀, hq₀, hns, _⟩ := cell_of_updated live hq
    rw [kernel, owner_of_live hq₀, ← hns]
    exact hP q n₀ hq₀
  | created s h mask map epollFd marks unmapped created =>
    refine iff_of_true (fun q n hq => ?_) (closesUnmapped_of_none marks.closes)
    rw [created.maps] at hq
    rcases Heap.cell_of_put hq with ⟨rfl, rfl⟩ | ⟨_, hq⟩
    · have hne : s ≠ epollFd := fun heq => created.isOpen (heq ▸ created.free)
      -- the new mapping: its owner is the file open at the socket now
      obtain ⟨id, hid, hown⟩ := owner_of_created tr marks.registers created
      rw [created.objectId s hne, hown]
      exact hid
    · have hne : n.sock ≠ epollFd := by
        intro heq
        refine hP.objectId_ne_none ho hq ?_
        rw [heq]
        exact objectId_eq_none.mpr created.free
      rw [created.objectId _ hne, owner_of_live hq]
      exact hP q n hq

/-- **Registrations and closed sockets.**  Throughout a run, every registration that
    returns 0 has its effect and every mapping belongs to an open socket, exactly if no step
    of the run closes a socket that has a mapping. -/
theorem registration_survives_iff (h : system.Run tr w) :
    Always (fun tr w => SelectWorks tr w ∧ OwnersOpen tr w) tr w ↔
      AllSteps (fun _ w l => ClosesUnmapped w l) tr := by
  refine h.always_iff_allSteps ?_ ?_ (AllSteps.trivial tr)
  · intro s hs
    obtain rfl : s = World.start := hs
    exact ⟨trivial, [], .nil, nofun⟩
  · rintro tr s l t hrun ⟨_, hP⟩ _ hstep
    obtain ⟨hi, he⟩ := effect_of_run hrun hstep
    have ho := owner_of_run hrun
    rw [← ownersOpen_step hi he ho hP]
    exact ⟨fun hboth => hboth.2,
      fun hopen => ⟨selectWorks_of_ownersOpen hi he (ho.step hi he) hopen, hopen⟩⟩

/-- A socket without a mapping may be closed, and its number used and registered again. -/
theorem registration_survives_reuse : ∃ tr w, system.Run tr w ∧
    Always (fun tr w => SelectWorks tr w ∧ OwnersOpen tr w) tr w ∧
    lastSelect 5 tr = some (some 200, FD_READ) ∧ ∃ w₀, (w₀, .closesocket 5) ∈ tr := by
  have hrun := run_of_exec_isSome World.start next
    [.socket 5 false, .closesocket 5, .socket 5 false,
      .eventSelect ⟨some 100, some 6, true, true⟩ 5 (some 200) FD_READ] rfl
  refine ⟨_, _, hrun, (registration_survives_iff hrun).mpr ?_, by decide, _,
    List.mem_cons_of_mem _ (List.mem_cons_of_mem _ List.mem_cons_self)⟩
  show ClosesUnmapped _ _ ∧ ClosesUnmapped _ _ ∧ ClosesUnmapped _ _ ∧ ClosesUnmapped _ _ ∧ True
  refine ⟨nofun, nofun, fun s _ p m hm => ?_, nofun, trivial⟩
  cases (show (none : Option SocketEventMap) = some m from hm)

/-- `closesocket` leaves the mapping in the list, so a socket that gets the number of a
    closed one is taken for it: `WSAEventSelect` returns 0, and nothing watches the socket. -/
theorem registration_lost : ∃ tr w, system.Run tr w ∧ ¬ SelectWorks tr w ∧ ¬ OwnersOpen tr w := by
  have hrun := run_of_exec_isSome World.start next
    [.socket 5 false, .eventSelect ⟨some 100, some 6, true, true⟩ 5 (some 200) FD_READ,
      .closesocket 5, .socket 5 false,
      .eventSelect ⟨none, none, false, false⟩ 5 (some 201) FD_READ] rfl
  refine ⟨_, _, hrun, fun hworks => ?_, fun hopen => ?_⟩
  · obtain ⟨_, hnb, _⟩ := hworks 5 (some 201) FD_READ (by decide)
    cases (show false = true from hnb)
  · have hid := (ownersOpen_iff (inv_of_run hrun) (owner_of_run hrun)).mp hopen 100 _ rfl
    exact absurd (show some 2 = some 0 from hid) (by decide)

end LinuxWinsock
