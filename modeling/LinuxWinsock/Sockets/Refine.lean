import LinuxWinsock.Lib.Simulation
import LinuxWinsock.Sockets.Threads

namespace LinuxWinsock.Files

open Function Ext Sockets TransitionSystem

/-!
# The calls are atomic

Threads that leave the sockets of an `AcceptEx` in progress alone see calls that happen one after
the other, on sockets of which each has its own flags.

* `Call`, `atomic` — the calls as their callers see them;
* `Temp`, `Target` — the descriptors that an `AcceptEx` works with: that of the new connection, and
  the caller's;
* `Inv` — what holds in every state;
* `calls_refine` — every run of the threads is a run of the calls, each at one of its steps;
* `one_descriptor` — a socket has one descriptor, except inside `AcceptEx`.
-/

/-! ### The calls -/

/-- What a call does, as its caller sees it. -/
inductive Call where
  | create (fd : Fd) (d : Descriptor)
  | createPair (fd fd' : Fd) (d : Descriptor)
  /-- The socket is replaced by a new connection. -/
  | acceptEx (sAcceptSocket : SOCKET)
  | close (s : SOCKET)
  | setNonblock (s : SOCKET) (b : Bool)
  | setCloexec (s : SOCKET) (b : Bool)

namespace Call

/-- The descriptors after the call: those of `AcceptEx` have neither flag. -/
def apply (t : Table) : Call → Table
  | create fd d => update t fd (some d)
  | createPair fd fd' d => update (update t fd (some d)) fd' (some d)
  | acceptEx s => update t s (some ⟨false, false⟩)
  | close s => update t s none
  | setNonblock s b => update t s ((t s).map (fun d => { d with nonblock := b }))
  | setCloexec s b => update t s ((t s).map (fun d => { d with cloexec := b }))

/-- New descriptors are free, and the others are open. -/
def Possible (t : Table) : Call → Prop
  | create fd _ => t fd = none
  | createPair fd fd' _ => fd ≠ fd' ∧ t fd = none ∧ t fd' = none
  | acceptEx s => t s ≠ none
  | close s => t s ≠ none
  | setNonblock s _ => t s ≠ none
  | setCloexec s _ => t s ≠ none

end Call

/-- The system of the calls. -/
def atomic : TransitionSystem Table Call where
  init t := t = fun _ => none
  step t c t' := c.Possible t ∧ t' = c.apply t

/-- What `ioctlsocket` does to an open socket. -/
def ioctlCall (s : SOCKET) (cmd argp : BitVec 64) : Option Call :=
  if cmd = FIONBIO then some (.setNonblock s (decide (argp.setWidth 32 ≠ 0)))
  else if cmd = FIOCLEX then some (.setCloexec s true)
  else if cmd = FIONCLEX then some (.setCloexec s false)
  else none

/-- What is seen of a system call of `AcceptEx`. -/
def seenOf (answers : Answers) : Syscall → Option Call
  | .dup2 _ s => if answers.dup2 then some (.acceptEx s) else none
  | _ => none

/-- The call that is made by a step; `none` if nothing is seen of the step. -/
def view (w : World) : Label → Option Call
  | .wsaSocketA _ _ type _ dwFlags (.ok fd) =>
    some (.create fd (typeFlags (type ||| sockFlags dwFlags)))
  | .wsaSocketW _ _ type _ dwFlags (.ok fd) =>
    some (.create fd (typeFlags (type ||| sockFlags dwFlags)))
  | .wsaAccept _ _ _ (.ok (fd, _)) => some (.create fd ⟨false, false⟩)
  | .wsaSocketPair _ _ type _ _ (.ok (fd, fd')) => some (.createPair fd fd' (typeFlags type))
  | .closesocket _ s => (w.files.table.file s).map (fun _ => .close s)
  | .ioctlsocket _ s cmd argp none => (w.files.table.file s).bind (fun _ => ioctlCall s cmd argp)
  | .disconnectEx _ s dwFlags true =>
    if dwFlags &&& TF_REUSE_SOCKET = 0 then (w.files.table.file s).map (fun _ => .close s)
    else none
  | .syscall tid =>
    match w.pending tid with
    | some ⟨answers, c :: _⟩ => seenOf answers c
    | _ => none
  | _ => none

/-! ### The descriptors of an `AcceptEx` -/

/-- The descriptor of the new connection, from `accept` until it is closed. -/
def tempOf : List Syscall → Option Fd
  | .dup2 fd _ :: _ => some fd
  | .close fd :: _ => some fd
  | _ => none

/-- The caller's socket, until it is replaced. -/
def targetOf : List Syscall → Option Fd
  | .accept _ :: .dup2 _ s :: _ => some s
  | .dup2 _ s :: _ => some s
  | _ => none

def heldOf (calls : List Syscall) : List Fd := (tempOf calls).toList ++ (targetOf calls).toList

/-- The system calls that the thread has still to make. -/
def World.calls (w : World) (tid : Nat) : List Syscall :=
  ((w.pending tid).map Pending.calls).getD []

/-- A descriptor of a new connection, which no caller knows. -/
def Temp (w : World) (fd : Fd) : Prop := ∃ tid, tempOf (w.calls tid) = some fd

/-- A caller's socket that is going to be replaced. -/
def Target (w : World) (fd : Fd) : Prop := ∃ tid, targetOf (w.calls tid) = some fd

/-- A descriptor of a new connection that is going to be closed. -/
def Closing (w : World) (fd : Fd) : Prop := ∃ tid rest, w.calls tid = .close fd :: rest

/-- A thread leaves the sockets alone that an `AcceptEx` works with, and calls `AcceptEx` with an
    open socket. -/
def Careful (w : World) : Label → Prop
  | .closesocket _ s => ¬ Temp w s ∧ ¬ Target w s
  | .disconnectEx _ s _ _ => ¬ Temp w s ∧ ¬ Target w s
  | .ioctlsocket _ s _ _ _ => ¬ Temp w s
  | .acceptEx _ args =>
    w.files.table.file args.sAcceptSocket ≠ none ∧ ¬ Temp w args.sAcceptSocket ∧
      ¬ Target w args.sAcceptSocket
  | _ => True

open Classical in
/-- The descriptors that callers know. -/
noncomputable def shown (w : World) : Table :=
  fun fd => if Temp w fd then none else w.files.descriptor fd

/-! ### What holds in every state -/

/-- A system call that leaves the descriptors alone. -/
def Harmless : Syscall → Prop
  | .recv _ _ => True
  | .getsockname _ => True
  | _ => False

/-- What is left of an `AcceptEx`. -/
inductive Phase (answers : Answers) : List Syscall → Prop
  | refused {s : SOCKET} (haccept : answers.accept = none) : Phase answers [.accept s]
  | accepting {s t : SOCKET} {fd : Fd} {peer : List Byte} {rest : List Syscall}
      (haccept : answers.accept = some (fd, peer)) (hrest : ∀ c ∈ rest, Harmless c) :
      Phase answers (.accept s :: .dup2 fd t :: .close fd :: rest)
  | replacing {t : SOCKET} {fd : Fd} {rest : List Syscall} (hrest : ∀ c ∈ rest, Harmless c) :
      Phase answers (.dup2 fd t :: .close fd :: rest)
  | closing {fd : Fd} {rest : List Syscall} (hrest : ∀ c ∈ rest, Harmless c) :
      Phase answers (.close fd :: rest)
  | finishing {c : Syscall} {rest : List Syscall} (hc : Harmless c)
      (hrest : ∀ c ∈ rest, Harmless c) : Phase answers (c :: rest)

/-- The threads that are inside `AcceptEx`, and the descriptors they work with. -/
structure Inv (w : World) : Prop where
  phase : ∀ tid p, w.pending tid = some p → Phase p.answers p.calls
  held_open : ∀ tid, ∀ fd ∈ heldOf (w.calls tid), w.files.table.file fd ≠ none
  held_nodup : ∀ tid, (heldOf (w.calls tid)).Nodup
  held_apart : ∀ tid tid' fd, fd ∈ heldOf (w.calls tid) → fd ∈ heldOf (w.calls tid') → tid = tid'
  /-- Two descriptors refer to the same socket only if one of them is going to be closed. -/
  unshared : ∀ fd g f, w.files.table.file fd = some f → w.files.table.file g = some f →
    ¬ Closing w fd → ¬ Closing w g → fd = g
  /-- A new connection blocks. -/
  blocking : ∀ tid fd t rest f, w.calls tid = .dup2 fd t :: rest →
    w.files.table.file fd = some f → w.files.nonblock f = false

variable {w w' : World} {l : Label} {tid : Nat} {fd g : Fd} {d : Descriptor} {b : Bool}

theorem temp_held {calls : List Syscall} (h : tempOf calls = some fd) : fd ∈ heldOf calls := by
  simp [heldOf, h]

theorem target_held {calls : List Syscall} (h : targetOf calls = some fd) : fd ∈ heldOf calls := by
  simp [heldOf, h]

theorem mem_heldOf {calls : List Syscall} :
    fd ∈ heldOf calls ↔ tempOf calls = some fd ∨ targetOf calls = some fd := by
  simp [heldOf]

theorem Closing.temp (h : Closing w fd) : Temp w fd := by
  obtain ⟨tid, rest, hcalls⟩ := h
  exact ⟨tid, by rw [hcalls]; rfl⟩

namespace Inv

theorem temp_open (h : Inv w) (ht : Temp w fd) : w.files.table.file fd ≠ none := by
  obtain ⟨tid, ht⟩ := ht
  exact h.held_open tid fd (temp_held ht)

/-- A descriptor that is not known to callers is not the socket of one. -/
theorem temp_not_target (h : Inv w) (ht : Temp w fd) : ¬ Target w fd := by
  rintro ⟨tid', htarget⟩
  obtain ⟨tid, htemp⟩ := ht
  obtain rfl := h.held_apart tid tid' fd (temp_held htemp) (target_held htarget)
  have hnodup := h.held_nodup tid
  simp [heldOf, htemp, htarget] at hnodup

/-- What is going to be duplicated is not going to be closed yet. -/
theorem replacing_not_closing (h : Inv w) {t : SOCKET} {rest : List Syscall}
    (hcalls : w.calls tid = .dup2 fd t :: rest) : ¬ Closing w fd := by
  rintro ⟨tid', rest', hcalls'⟩
  have hheld : fd ∈ heldOf (w.calls tid) := temp_held (by rw [hcalls]; rfl)
  have hheld' : fd ∈ heldOf (w.calls tid') := temp_held (by rw [hcalls']; rfl)
  obtain rfl := h.held_apart tid tid' fd hheld hheld'
  rw [hcalls] at hcalls'
  cases hcalls'

end Inv

theorem shown_of_temp (h : Temp w fd) : shown w fd = none := if_pos h

theorem shown_of_not_temp (h : ¬ Temp w fd) : shown w fd = w.files.descriptor fd := if_neg h

/-! ### Calls of one step -/

/-- A free descriptor is none of those that an `AcceptEx` works with. -/
theorem Inv.not_temp_of_free (h : Inv w) (hfree : w.files.table.file fd = none) : ¬ Temp w fd :=
  fun ht => h.temp_open ht hfree

/-- **A new socket** at a free descriptor. -/
theorem Inv.openAt (h : Inv w) (hfree : w.files.table.file fd = none) (d : Descriptor) :
    Inv { w with files := w.files.openAt fd d } where
  phase := h.phase
  held_open tid g hg := by
    show update w.files.table.file fd _ g ≠ none
    rw [update_apply]
    split
    · exact Option.some_ne_none _
    · exact h.held_open tid g hg
  held_nodup := h.held_nodup
  held_apart := h.held_apart
  unshared g g' f hg hg' hclosing hclosing' := by
    change update w.files.table.file fd (some w.files.table.next) g = some f at hg
    change update w.files.table.file fd (some w.files.table.next) g' = some f at hg'
    rw [update_apply] at hg hg'
    split at hg
    · split at hg'
      · subst_vars
        rfl
      · obtain rfl := Option.some.inj hg
        exact absurd hg' (w.files.table.file_ne_next g')
    · split at hg'
      · obtain rfl := Option.some.inj hg'
        exact absurd hg (w.files.table.file_ne_next g)
      · exact h.unshared g g' f hg hg' hclosing hclosing'
  blocking tid g t rest f hcalls hg := by
    have hne : g ≠ fd := by
      rintro rfl
      have hheld : g ∈ heldOf (w.calls tid) := temp_held (by
        rw [show w.calls tid = _ from hcalls]
        rfl)
      exact h.held_open tid g hheld hfree
    change update w.files.table.file fd (some w.files.table.next) g = some f at hg
    rw [update_of_ne hne] at hg
    show update w.files.nonblock w.files.table.next d.nonblock f = false
    rw [update_of_ne (w.files.table.fresh g f hg).ne]
    exact h.blocking tid g t rest f hcalls hg

theorem Inv.shown_openAt (h : Inv w) (hfree : w.files.table.file fd = none) (d : Descriptor) :
    shown { w with files := w.files.openAt fd d } = update (shown w) fd (some d) := by
  have hfd := h.not_temp_of_free hfree
  ext1 g
  by_cases hg : g = fd
  · subst hg
    rw [update_self]
    refine (if_neg hfd).trans ?_
    rw [descriptor_openAt, update_self]
  · rw [update_of_ne hg]
    unfold shown
    rw [descriptor_openAt, update_of_ne hg]
    rfl

/-- **A socket is closed** that no `AcceptEx` works with. -/
theorem Inv.close (h : Inv w) (htemp : ¬ Temp w fd) (htarget : ¬ Target w fd) :
    Inv { w with files := w.files.close fd } where
  phase := h.phase
  held_open tid g hg := by
    have hne : g ≠ fd := by
      rintro rfl
      rcases mem_heldOf.mp hg with hg | hg
      · exact htemp ⟨tid, hg⟩
      · exact htarget ⟨tid, hg⟩
    show update w.files.table.file fd none g ≠ none
    rw [update_of_ne hne]
    exact h.held_open tid g hg
  held_nodup := h.held_nodup
  held_apart := h.held_apart
  unshared g g' f hg hg' hclosing hclosing' := by
    change update w.files.table.file fd none g = some f at hg
    change update w.files.table.file fd none g' = some f at hg'
    rw [update_apply] at hg hg'
    split at hg
    · cases hg
    · split at hg'
      · cases hg'
      · exact h.unshared g g' f hg hg' hclosing hclosing'
  blocking tid g t rest f hcalls hg := by
    change update w.files.table.file fd none g = some f at hg
    rw [update_apply] at hg
    split at hg
    · cases hg
    · exact h.blocking tid g t rest f hcalls hg

theorem shown_close (fd : Fd) :
    shown { w with files := w.files.close fd } = update (shown w) fd none := by
  ext1 g
  unfold shown
  rw [descriptor_close]
  by_cases hg : g = fd
  · rw [hg, update_self, update_self, ite_self]
  · rw [update_of_ne hg, update_of_ne hg]
    rfl

/-- **The flags of a socket** that is known to callers. -/
theorem Inv.setNonblock (h : Inv w) (htemp : ¬ Temp w fd) (b : Bool) :
    Inv { w with files := w.files.setNonblock fd b } := by
  unfold OpenFiles.setNonblock
  cases hfile : w.files.table.file fd with
  | none => exact h
  | some f =>
    refine ⟨h.phase, h.held_open, h.held_nodup, h.held_apart, h.unshared, ?_⟩
    intro tid g t rest f' hcalls hg
    have hne : f' ≠ f := by
      rintro rfl
      have hfd : ¬ Closing w fd := fun hclosing => htemp hclosing.temp
      obtain rfl := h.unshared g fd f' hg hfile (h.replacing_not_closing hcalls) hfd
      exact htemp ⟨tid, by rw [show w.calls tid = _ from hcalls]; rfl⟩
    show update w.files.nonblock f b f' = false
    rw [update_of_ne hne]
    exact h.blocking tid g t rest f' hcalls hg

theorem Inv.shown_setNonblock (h : Inv w) (htemp : ¬ Temp w fd) (b : Bool) :
    shown { w with files := w.files.setNonblock fd b } =
      update (shown w) fd ((shown w fd).map (fun d => { d with nonblock := b })) := by
  unfold OpenFiles.setNonblock
  cases hfile : w.files.table.file fd with
  | none =>
    have hnone : shown w fd = none := by
      rw [shown_of_not_temp htemp, OpenFiles.descriptor, hfile, Option.map_none]
    rw [hnone, Option.map_none, ← hnone, update_eq_self]
  | some f =>
    ext1 g
    by_cases hg : g = fd
    · subst hg
      rw [update_self, shown_of_not_temp htemp]
      refine (if_neg htemp).trans ?_
      simp [OpenFiles.descriptor, hfile]
    · rw [update_of_ne hg]
      unfold shown
      by_cases ht : Temp w g
      · exact (if_pos ht).trans (if_pos ht).symm
      · refine (if_neg ht).trans (Eq.trans ?_ (if_neg ht).symm)
        cases hfile' : w.files.table.file g with
        | none => simp [OpenFiles.descriptor, hfile']
        | some f' =>
          -- another descriptor that is known refers to another socket
          have hne : f' ≠ f := by
            rintro rfl
            exact hg (h.unshared g fd f' hfile' hfile (fun hclosing => ht hclosing.temp)
              (fun hclosing => htemp hclosing.temp))
          simp [OpenFiles.descriptor, hfile', update_of_ne hne]

theorem Inv.setCloexec (h : Inv w) (fd : Fd) (b : Bool) :
    Inv { w with files := w.files.setCloexec fd b } :=
  ⟨h.phase, h.held_open, h.held_nodup, h.held_apart, h.unshared, h.blocking⟩

theorem shown_setCloexec (fd : Fd) (b : Bool) :
    shown { w with files := w.files.setCloexec fd b } =
      update (shown w) fd ((shown w fd).map (fun d => { d with cloexec := b })) := by
  ext1 g
  by_cases hg : g = fd
  · subst hg
    rw [update_self]
    unfold shown
    by_cases ht : Temp w g
    · rw [if_pos ht]
      exact if_pos ht
    · rw [if_neg ht]
      refine (if_neg ht).trans ?_
      cases hfile : w.files.table.file g with
      | none => simp [OpenFiles.descriptor, OpenFiles.setCloexec, hfile]
      | some f => simp [OpenFiles.descriptor, OpenFiles.setCloexec, hfile]
  · rw [update_of_ne hg]
    unfold shown
    have hsame : (w.files.setCloexec fd b).descriptor g = w.files.descriptor g := by
      simp [OpenFiles.descriptor, OpenFiles.setCloexec, update_of_ne hg]
    rw [hsame]
    rfl

/-! ### The steps of `AcceptEx` -/

/-- The system calls that `AcceptEx` makes: the last ones leave the descriptors alone. -/
theorem calls_of_run {args : AcceptExArgs} {o : Accepted} (h : args.run = some o) :
    (args.answers.accept = none ∧ o.calls = [.accept args.sListenSocket]) ∨
      ∃ fd peer rest, args.answers.accept = some (fd, peer) ∧ (∀ c ∈ rest, Harmless c) ∧
        o.calls =
          .accept args.sListenSocket :: .dup2 fd args.sAcceptSocket :: .close fd :: rest := by
  unfold AcceptExArgs.run acceptEx at h
  have htail (c : Syscall) (hc : Harmless c) (made : Bool) :
      ∀ c' ∈ (if made then [c] else []), Harmless c' := by
    intro c' hc'
    cases made with
    | true =>
      obtain rfl := List.mem_singleton.mp hc'
      exact hc
    | false => cases hc'
  cases haccept : args.answers.accept with
  | none =>
    rw [haccept] at h
    obtain rfl := Option.some.inj h
    exact .inl ⟨rfl, rfl⟩
  | some accepted =>
    obtain ⟨fd, peer⟩ := accepted
    simp only [haccept] at h
    right
    split at h
    · obtain rfl := Option.some.inj h
      exact ⟨fd, peer, [], rfl, by simp, rfl⟩
    · split at h
      · obtain rfl := Option.some.inj h
        exact ⟨fd, peer, _, rfl, htail (.recv _ _) trivial _, rfl⟩
      · obtain ⟨stored, -, rfl⟩ := Option.map_eq_some_iff.mp h
        refine ⟨fd, peer, _, rfl, ?_, rfl⟩
        intro c hc
        rcases List.mem_append.mp hc with hc | hc
        · exact htail (.recv _ _) trivial _ c hc
        · exact htail (.getsockname _) trivial _ c hc

/-- The process after a step of the thread `tid` inside `AcceptEx`. -/
def World.advance (w : World) (tid : Nat) (k : OpenFiles) (p : Option Pending) : World :=
  ⟨k, update w.pending tid p⟩

variable {k : OpenFiles} {p : Option Pending}

/-- The system calls that are left. -/
def left (p : Option Pending) : List Syscall := (p.map Pending.calls).getD []

@[simp] theorem calls_advance_self : (w.advance tid k p).calls tid = left p := by
  simp [World.calls, World.advance, left]

theorem calls_advance_of_ne {tid' : Nat} (h : tid' ≠ tid) :
    (w.advance tid k p).calls tid' = w.calls tid' := by
  simp [World.calls, World.advance, update_of_ne h]

theorem temp_advance : Temp (w.advance tid k p) g ↔
    tempOf (left p) = some g ∨ ∃ tid' ≠ tid, tempOf (w.calls tid') = some g := by
  constructor
  · rintro ⟨tid', h⟩
    by_cases htid : tid' = tid
    · subst htid
      exact .inl (calls_advance_self ▸ h)
    · exact .inr ⟨tid', htid, calls_advance_of_ne htid ▸ h⟩
  · rintro (h | ⟨tid', htid, h⟩)
    · exact ⟨tid, by rwa [calls_advance_self]⟩
    · exact ⟨tid', by rwa [calls_advance_of_ne htid]⟩

theorem temp_cases (tid : Nat) : Temp w g ↔
    tempOf (w.calls tid) = some g ∨ ∃ tid' ≠ tid, tempOf (w.calls tid') = some g := by
  constructor
  · rintro ⟨tid', h⟩
    by_cases htid : tid' = tid
    · exact .inl (htid ▸ h)
    · exact .inr ⟨tid', htid, h⟩
  · rintro (h | ⟨tid', -, h⟩)
    · exact ⟨tid, h⟩
    · exact ⟨tid', h⟩

/-- Descriptors that are not of this thread are temporary before and after its step alike. -/
theorem temp_advance_iff (k : OpenFiles) (hbefore : tempOf (w.calls tid) ≠ some g)
    (hafter : tempOf (left p) ≠ some g) : Temp (w.advance tid k p) g ↔ Temp w g := by
  rw [temp_advance, temp_cases tid]
  exact ⟨fun h => .inr (h.resolve_left hafter), fun h => .inr (h.resolve_left hbefore)⟩

/-- **A step of `AcceptEx`** keeps what holds, if it leaves the descriptors of other threads
    alone. -/
theorem Inv.advance (h : Inv w) (hphase : ∀ q, p = some q → Phase q.answers q.calls)
    (hheld : ∀ g ∈ heldOf (left p), g ∈ heldOf (w.calls tid) ∨ w.files.table.file g = none ∨
      (∀ tid', g ∉ heldOf (w.calls tid')))
    (hnodup : (heldOf (left p)).Nodup)
    (hopen : ∀ g ∈ heldOf (left p), k.table.file g ≠ none)
    (hothers : ∀ g f, g ∉ heldOf (w.calls tid) → w.files.table.file g = some f →
      k.table.file g = some f ∧ k.nonblock f = w.files.nonblock f)
    (hunshared : ∀ fd g f, k.table.file fd = some f → k.table.file g = some f →
      ¬ Closing (w.advance tid k p) fd → ¬ Closing (w.advance tid k p) g → fd = g)
    (hblocking : ∀ fd t rest f, left p = .dup2 fd t :: rest → k.table.file fd = some f →
      k.nonblock f = false) : Inv (w.advance tid k p) := by
  -- what this thread works with now is not another thread's
  have hnew (tid' : Nat) (htid : tid' ≠ tid) (g : Fd) (hg : g ∈ heldOf (left p)) :
      g ∉ heldOf (w.calls tid') := by
    intro hg'
    rcases hheld g hg with hown | hfree | hnone
    · exact htid (h.held_apart tid' tid g hg' hown)
    · exact h.held_open tid' g hg' hfree
    · exact hnone tid' hg'
  have hkept (tid' : Nat) (htid : tid' ≠ tid) (g : Fd) (hg : g ∈ heldOf (w.calls tid')) :
      g ∉ heldOf (w.calls tid) := fun hown => htid (h.held_apart tid' tid g hg hown)
  constructor
  case phase =>
    intro tid' q hq
    by_cases htid : tid' = tid
    · subst htid
      have hq : p = some q := by simpa [World.advance] using hq
      exact hphase q hq
    · have hq : w.pending tid' = some q := by simpa [World.advance, update_of_ne htid] using hq
      exact h.phase tid' q hq
  case held_open =>
    intro tid' g hg
    by_cases htid : tid' = tid
    · subst htid
      rw [calls_advance_self] at hg
      exact hopen g hg
    · rw [calls_advance_of_ne htid] at hg
      obtain ⟨f, hf⟩ := Option.ne_none_iff_exists'.mp (h.held_open tid' g hg)
      show k.table.file g ≠ none
      rw [(hothers g f (hkept tid' htid g hg) hf).1]
      exact Option.some_ne_none f
  case held_nodup =>
    intro tid'
    by_cases htid : tid' = tid
    · subst htid
      rwa [calls_advance_self]
    · rw [calls_advance_of_ne htid]
      exact h.held_nodup tid'
  case held_apart =>
    intro tid₁ tid₂ g h₁ h₂
    by_cases htid₁ : tid₁ = tid
    · by_cases htid₂ : tid₂ = tid
      · rw [htid₁, htid₂]
      · rw [htid₁, calls_advance_self] at h₁
        rw [calls_advance_of_ne htid₂] at h₂
        exact absurd h₂ (hnew tid₂ htid₂ g h₁)
    · rw [calls_advance_of_ne htid₁] at h₁
      by_cases htid₂ : tid₂ = tid
      · rw [htid₂, calls_advance_self] at h₂
        exact absurd h₁ (hnew tid₁ htid₁ g h₂)
      · rw [calls_advance_of_ne htid₂] at h₂
        exact h.held_apart tid₁ tid₂ g h₁ h₂
  case unshared => exact hunshared
  case blocking =>
    intro tid' fd t rest f hcalls hf
    by_cases htid : tid' = tid
    · subst htid
      rw [calls_advance_self] at hcalls
      exact hblocking fd t rest f hcalls hf
    · rw [calls_advance_of_ne htid] at hcalls
      have hg : fd ∈ heldOf (w.calls tid') := temp_held (by rw [hcalls]; rfl)
      obtain ⟨f₀, hf₀⟩ := Option.ne_none_iff_exists'.mp (h.held_open tid' fd hg)
      obtain ⟨hsame, hnonblock⟩ := hothers fd f₀ (hkept tid' htid fd hg) hf₀
      obtain rfl : f₀ = f := Option.some.inj (hsame.symm.trans hf)
      exact hnonblock.trans (h.blocking tid' fd t rest f₀ hcalls hf₀)

/-- A descriptor that another step is going to close is still so. -/
theorem closing_advance (h : Closing w g) (hhead : ∀ fd rest, w.calls tid ≠ .close fd :: rest) :
    Closing (w.advance tid k p) g := by
  obtain ⟨tid', rest, hcalls⟩ := h
  refine ⟨tid', rest, ?_⟩
  rw [calls_advance_of_ne, hcalls]
  rintro rfl
  exact hhead g rest hcalls

/-- **Steps that leave the descriptors alone**, and the temporary one as it is. -/
theorem Inv.advance_same (h : Inv w) (hphase : ∀ q, p = some q → Phase q.answers q.calls)
    (hheld : ∀ g ∈ heldOf (left p), g ∈ heldOf (w.calls tid) ∨
      w.files.table.file g ≠ none ∧ ∀ tid', g ∉ heldOf (w.calls tid'))
    (hnodup : (heldOf (left p)).Nodup) (htemp : tempOf (left p) = tempOf (w.calls tid))
    (hhead : ∀ fd rest, w.calls tid ≠ .close fd :: rest)
    (hleft : ∀ fd t rest, left p ≠ .dup2 fd t :: rest) :
    Inv (w.advance tid w.files p) ∧ shown (w.advance tid w.files p) = shown w := by
  constructor
  · apply h.advance hphase _ hnodup _ (fun g f _ hf => ⟨hf, rfl⟩)
    · intro fd g f hfd hg hclosing hclosing'
      exact h.unshared fd g f hfd hg (fun hc => hclosing (closing_advance hc hhead))
        (fun hc => hclosing' (closing_advance hc hhead))
    · intro fd t rest f hcalls
      exact absurd hcalls (hleft fd t rest)
    · intro g hg
      rcases hheld g hg with hown | ⟨-, hnone⟩
      · exact .inl hown
      · exact .inr (.inr hnone)
    · intro g hg
      rcases hheld g hg with hown | ⟨hopen, -⟩
      · exact h.held_open tid g hown
      · exact hopen
  · ext1 g
    have hiff : Temp (w.advance tid w.files p) g ↔ Temp w g := by
      rw [temp_advance, temp_cases tid, htemp]
    unfold shown
    by_cases ht : Temp w g
    · rw [if_pos ht, if_pos (hiff.mpr ht)]
    · rw [if_neg ht, if_neg (mt hiff.mp ht)]
      rfl

theorem file_openAt_of_ne {k : OpenFiles} (h : g ≠ fd) :
    (k.openAt fd d).table.file g = k.table.file g := update_of_ne h ..

theorem file_openAt_self {k : OpenFiles} :
    (k.openAt fd d).table.file fd = some k.table.next := update_self ..

variable {answers : Answers} {s t : SOCKET} {rest : List Syscall}

/-- **`accept`**: nothing is seen of the new descriptor. -/
theorem Inv.accepted (h : Inv w)
    (hcalls : w.calls tid = .accept s :: .dup2 fd t :: .close fd :: rest)
    (hfree : w.files.table.file fd = none) (hrest : ∀ c ∈ rest, Harmless c) :
    Inv (w.advance tid (w.files.openAt fd ⟨false, false⟩)
        (some ⟨answers, .dup2 fd t :: .close fd :: rest⟩)) ∧
      shown (w.advance tid (w.files.openAt fd ⟨false, false⟩)
        (some ⟨answers, .dup2 fd t :: .close fd :: rest⟩)) = shown w := by
  have hheld : heldOf (w.calls tid) = [t] := by
    rw [hcalls]
    rfl
  have hmem : t ∈ heldOf (w.calls tid) := by rw [hheld]; exact List.mem_cons_self
  have ht : w.files.table.file t ≠ none := h.held_open tid t hmem
  have hne : fd ≠ t := fun heq => ht (heq ▸ hfree)
  constructor
  · apply h.advance
    · intro q hq
      obtain rfl := Option.some.inj hq
      exact .replacing hrest
    · intro g hg
      rcases mem_heldOf.mp hg with hg | hg
      · obtain rfl : fd = g := Option.some.inj hg
        exact .inr (.inl hfree)
      · obtain rfl : t = g := Option.some.inj hg
        exact .inl (by rw [hheld]; exact List.mem_cons_self)
    · show [fd, t].Nodup
      simpa using hne
    · intro g hg
      by_cases hgfd : g = fd
      · rw [hgfd, file_openAt_self]
        exact Option.some_ne_none _
      · rw [file_openAt_of_ne hgfd]
        rcases mem_heldOf.mp hg with hg | hg
        · exact absurd (Option.some.inj hg).symm hgfd
        · obtain rfl : t = g := Option.some.inj hg
          exact ht
    · intro g f _ hf
      have hgfd : g ≠ fd := fun heq => by
        rw [heq, hfree] at hf
        cases hf
      refine ⟨(file_openAt_of_ne hgfd).trans hf, ?_⟩
      exact update_of_ne (w.files.table.fresh g f hf).ne ..
    · intro g g' f hg hg' hclosing hclosing'
      have hback (x : Fd) (hx : ¬ Closing (w.advance tid (w.files.openAt fd ⟨false, false⟩)
          (some ⟨answers, .dup2 fd t :: .close fd :: rest⟩)) x) : ¬ Closing w x := fun hc =>
        hx (closing_advance hc (fun _ _ heq => by rw [hcalls] at heq; cases heq))
      exact (h.openAt hfree ⟨false, false⟩).unshared g g' f hg hg' (hback g hclosing)
        (hback g' hclosing')
    · intro fd' t' rest' f hleft hf
      obtain rfl : fd = fd' := by
        change Syscall.dup2 fd t :: _ = _ at hleft
        injection hleft with hhead
        injection hhead
      rw [file_openAt_self] at hf
      obtain rfl := Option.some.inj hf
      exact update_self ..
  · ext1 g
    by_cases hg : g = fd
    · subst hg
      have hnone : w.files.descriptor g = none := by
        rw [OpenFiles.descriptor, hfree, Option.map_none]
      rw [shown_of_temp (temp_advance.mpr (.inl rfl)), shown_of_not_temp (h.not_temp_of_free hfree),
        hnone]
    · have hbefore : tempOf (w.calls tid) ≠ some g := by
        rw [hcalls]
        exact (Option.some_ne_none g).symm
      have hafter : tempOf (left (some ⟨answers, .dup2 fd t :: .close fd :: rest⟩)) ≠ some g :=
        fun heq => hg (Option.some.inj heq).symm
      have hiff := temp_advance_iff (w.files.openAt fd ⟨false, false⟩) hbefore hafter
      unfold shown
      by_cases ht : Temp w g
      · rw [if_pos ht, if_pos (hiff.mpr ht)]
      · rw [if_neg ht, if_neg (mt hiff.mp ht)]
        show (w.files.openAt fd ⟨false, false⟩).descriptor g = _
        rw [descriptor_openAt, update_of_ne hg]

theorem descriptor_dup2 {k : OpenFiles} (hne : fd ≠ t) (g : Fd) : (k.dup2 fd t).descriptor g =
    if g = t then (k.table.file fd).map (fun f => ⟨k.nonblock f, false⟩) else k.descriptor g := by
  rw [OpenFiles.dup2, if_neg hne]
  by_cases hg : g = t
  · rw [if_pos hg, hg]
    simp [OpenFiles.descriptor]
  · rw [if_neg hg]
    simp [OpenFiles.descriptor, update_of_ne hg]

/-- **`dup2`**: the caller's socket is replaced by the new connection. -/
theorem Inv.replaced (h : Inv w) (answers : Answers)
    (hcalls : w.calls tid = .dup2 fd t :: .close fd :: rest) (hrest : ∀ c ∈ rest, Harmless c) :
    Inv (w.advance tid (w.files.dup2 fd t) (some ⟨answers, .close fd :: rest⟩)) ∧
      shown (w.advance tid (w.files.dup2 fd t) (some ⟨answers, .close fd :: rest⟩)) =
        update (shown w) t (some ⟨false, false⟩) := by
  have hheld : heldOf (w.calls tid) = [fd, t] := by
    rw [hcalls]
    rfl
  have hnodup := h.held_nodup tid
  rw [hheld] at hnodup
  have hne : fd ≠ t := by simpa using hnodup
  have hopen := h.held_open tid fd (by rw [hheld]; exact List.mem_cons_self)
  obtain ⟨f₀, hf₀⟩ := Option.ne_none_iff_exists'.mp hopen
  have hfile (g : Fd) : (w.files.dup2 fd t).table.file g =
      if g = t then some f₀ else w.files.table.file g := by
    rw [OpenFiles.dup2, if_neg hne]
    show update w.files.table.file t (w.files.table.file fd) g = _
    rw [update_apply, hf₀]
  have hnonblock : (w.files.dup2 fd t).nonblock = w.files.nonblock := by
    rw [OpenFiles.dup2, if_neg hne]
  have hfd : ¬ Closing w fd := h.replacing_not_closing hcalls
  have hclosing : Closing (w.advance tid (w.files.dup2 fd t) (some ⟨answers, .close fd :: rest⟩))
      fd := ⟨tid, rest, calls_advance_self⟩
  have hback (x : Fd) (hx : ¬ Closing (w.advance tid (w.files.dup2 fd t)
      (some ⟨answers, .close fd :: rest⟩)) x) : ¬ Closing w x := fun hc =>
    hx (closing_advance hc (fun _ _ heq => by rw [hcalls] at heq; cases heq))
  constructor
  · apply h.advance
    · intro q hq
      obtain rfl := Option.some.inj hq
      exact .closing hrest
    · intro g hg
      obtain rfl : fd = g := by simpa [heldOf, left, tempOf, targetOf, eq_comm] using hg
      exact .inl (by rw [hheld]; exact List.mem_cons_self)
    · show [fd].Nodup
      exact List.nodup_singleton fd
    · intro g hg
      obtain rfl : fd = g := by simpa [heldOf, left, tempOf, targetOf, eq_comm] using hg
      rw [hfile, if_neg hne]
      exact hopen
    · intro g f hg hf
      have hgt : g ≠ t := by
        rintro rfl
        simp [hheld] at hg
      rw [hfile, if_neg hgt, hnonblock]
      exact ⟨hf, rfl⟩
    · intro g g' f hg hg' hc hc'
      -- only the temporary descriptor shares its socket with the caller's
      have hgfd : g ≠ fd := fun heq => hc (heq ▸ hclosing)
      have hgfd' : g' ≠ fd := fun heq => hc' (heq ▸ hclosing)
      rw [hfile] at hg hg'
      split at hg
      · split at hg'
        · subst_vars
          rfl
        · obtain rfl := Option.some.inj hg
          exact absurd (h.unshared g' fd f₀ hg' hf₀ (hback g' hc') hfd) hgfd'
      · split at hg'
        · obtain rfl := Option.some.inj hg'
          exact absurd (h.unshared g fd f₀ hg hf₀ (hback g hc) hfd) hgfd
        · exact h.unshared g g' f hg hg' (hback g hc) (hback g' hc')
    · intro fd' t' rest' f hleft
      change Syscall.close fd :: _ = _ at hleft
      injection hleft with hhead
      cases hhead
  · have hblock := h.blocking tid fd t _ f₀ hcalls hf₀
    have htarget : ¬ Temp w t := fun ht =>
      h.temp_not_target ht ⟨tid, by rw [hcalls]; rfl⟩
    have hiff (g : Fd) :
        Temp (w.advance tid (w.files.dup2 fd t) (some ⟨answers, .close fd :: rest⟩)) g ↔
          Temp w g := by
      rw [temp_advance, temp_cases tid, hcalls]
      rfl
    ext1 g
    by_cases hg : g = t
    · subst hg
      rw [update_self, shown_of_not_temp (mt (hiff g).mp htarget)]
      show (w.files.dup2 fd g).descriptor g = _
      rw [descriptor_dup2 hne, if_pos rfl, hf₀, Option.map_some, hblock]
    · rw [update_of_ne hg]
      unfold shown
      by_cases ht : Temp w g
      · rw [if_pos ht, if_pos ((hiff g).mpr ht)]
      · rw [if_neg ht, if_neg (mt (hiff g).mp ht)]
        show (w.files.dup2 fd t).descriptor g = _
        rw [descriptor_dup2 hne, if_neg hg]

/-- **`close`**: nothing is seen of it. -/
theorem Inv.closed (h : Inv w) (hcalls : w.calls tid = .close fd :: rest)
    (hphase : ∀ q, p = some q → Phase q.answers q.calls) (htemp : tempOf (left p) = none)
    (htarget : targetOf (left p) = none) :
    Inv (w.advance tid (w.files.close fd) p) ∧
      shown (w.advance tid (w.files.close fd) p) = shown w := by
  have hheld : heldOf (w.calls tid) = [fd] := by
    rw [hcalls]
    rfl
  have hnone : heldOf (left p) = [] := by rw [heldOf, htemp, htarget]; rfl
  have hfile (g : Fd) : (w.files.close fd).table.file g =
      if g = fd then none else w.files.table.file g := update_apply ..
  have hback (g : Fd) (hg : g ≠ fd) (hx : ¬ Closing (w.advance tid (w.files.close fd) p) g) :
      ¬ Closing w g := by
    rintro ⟨tid', rest', hcalls'⟩
    refine hx ⟨tid', rest', ?_⟩
    rw [calls_advance_of_ne, hcalls']
    rintro rfl
    rw [hcalls] at hcalls'
    injection hcalls' with hhead
    injection hhead with heq
    exact hg heq.symm
  constructor
  · apply h.advance hphase
    · simp [hnone]
    · simp [hnone]
    · simp [hnone]
    · intro g f hg hf
      have hgfd : g ≠ fd := by simpa [hheld] using hg
      rw [hfile, if_neg hgfd]
      exact ⟨hf, rfl⟩
    · intro g g' f hg hg' hc hc'
      rw [hfile] at hg hg'
      split at hg
      · cases hg
      · rename_i hgfd
        split at hg'
        · cases hg'
        · rename_i hgfd'
          exact h.unshared g g' f hg hg' (hback g hgfd hc) (hback g' hgfd' hc')
    · intro fd' t' rest' f hleft
      rw [hleft] at htemp
      cases htemp
  · ext1 g
    by_cases hg : g = fd
    · subst hg
      have htemp : Temp w g := ⟨tid, by rw [hcalls]; rfl⟩
      rw [shown_of_temp htemp]
      unfold shown
      split
      · rfl
      · show ((w.files.close g).table.file g).map _ = none
        rw [hfile, if_pos rfl, Option.map_none]
    · have hbefore : tempOf (w.calls tid) ≠ some g := by
        rw [hcalls]
        exact fun heq => hg (Option.some.inj heq).symm
      have hafter : tempOf (left p) ≠ some g := by
        rw [htemp]
        exact (Option.some_ne_none g).symm
      have hiff := temp_advance_iff (w.files.close fd) hbefore hafter
      unfold shown
      by_cases ht : Temp w g
      · rw [if_pos ht, if_pos (hiff.mpr ht)]
      · rw [if_neg ht, if_neg (mt hiff.mp ht)]
        show ((w.files.close fd).table.file g).map _ = _
        rw [hfile, if_neg hg]
        rfl

theorem tempOf_harmless (h : ∀ c ∈ rest, Harmless c) : tempOf rest = none := by
  cases rest with
  | nil => rfl
  | cons c rest =>
    have hc := h c List.mem_cons_self
    cases c <;> first | rfl | exact hc.elim

theorem targetOf_harmless (h : ∀ c ∈ rest, Harmless c) : targetOf rest = none := by
  cases rest with
  | nil => rfl
  | cons c rest =>
    have hc := h c List.mem_cons_self
    cases c <;> first | rfl | exact hc.elim

theorem heldOf_harmless (h : ∀ c ∈ rest, Harmless c) : heldOf rest = [] := by
  rw [heldOf, tempOf_harmless h, targetOf_harmless h]
  rfl

/-- What is left after a system call. -/
theorem left_ite (answers : Answers) (calls : List Syscall) :
    left (if calls = [] then none else some ⟨answers, calls⟩) = calls := by
  by_cases hnil : calls = []
  · rw [if_pos hnil, hnil]
    rfl
  · rw [if_neg hnil]
    rfl

theorem phase_harmless {q : Pending} (h : ∀ c ∈ rest, Harmless c)
    (hq : (if rest = [] then none else some (Pending.mk answers rest)) = some q) :
    Phase q.answers q.calls := by
  cases rest with
  | nil => cases hq
  | cons c rest =>
    obtain rfl := Option.some.inj hq
    exact .finishing (h c List.mem_cons_self) (fun c' hc' => h c' (List.mem_cons_of_mem c hc'))

/-! ### One step -/

/-- What holds is kept, and the callers see the call, or nothing. -/
def Follows (w w' : World) (c : Option Call) : Prop :=
  Inv w' ∧ match c with
    | some c => c.Possible (shown w) ∧ shown w' = c.apply (shown w)
    | none => shown w' = shown w

theorem follows_refl (h : Inv w) : Follows w w none := ⟨h, rfl⟩

theorem shown_of_free (h : w.files.table.file fd = none) : shown w fd = none := by
  unfold shown
  split
  · rfl
  · rw [OpenFiles.descriptor, h, Option.map_none]

theorem shown_of_open (ht : ¬ Temp w fd) (h : w.files.table.file fd ≠ none) :
    shown w fd ≠ none := by
  rw [shown_of_not_temp ht, OpenFiles.descriptor]
  exact fun hnone => h (Option.map_eq_none_iff.mp hnone)

theorem follows_create (h : Inv w) (hfree : w.files.table.file fd = none) (d : Descriptor) :
    Follows w { w with files := w.files.openAt fd d } (some (.create fd d)) :=
  ⟨h.openAt hfree d, shown_of_free hfree, h.shown_openAt hfree d⟩

theorem follows_createPair {fd' : Fd} (h : Inv w) (hne : fd ≠ fd')
    (hfree : w.files.table.file fd = none) (hfree' : w.files.table.file fd' = none)
    (d : Descriptor) :
    Follows w { w with files := (w.files.openAt fd d).openAt fd' d }
      (some (.createPair fd fd' d)) := by
  have hfirst := h.openAt hfree d
  have hsecond : (w.files.openAt fd d).table.file fd' = none :=
    (file_openAt_of_ne hne.symm).trans hfree'
  refine ⟨hfirst.openAt hsecond d, ⟨hne, shown_of_free hfree, shown_of_free hfree'⟩, ?_⟩
  rw [hfirst.shown_openAt hsecond d, h.shown_openAt hfree d]
  rfl

/-- A socket that may be closed already. -/
theorem follows_close (h : Inv w) (htemp : ¬ Temp w s) (htarget : ¬ Target w s) :
    Follows w { w with files := w.files.close s }
      ((w.files.table.file s).map (fun _ => .close s)) := by
  refine ⟨h.close htemp htarget, ?_⟩
  cases hfile : w.files.table.file s with
  | none =>
    show shown _ = shown w
    rw [shown_close, ← shown_of_free hfile, update_eq_self]
  | some f =>
    exact ⟨shown_of_open htemp (by rw [hfile]; exact Option.some_ne_none f), shown_close s⟩

theorem follows_ioctl (h : Inv w) (htemp : ¬ Temp w s) (hopen : w.files.table.file s ≠ none)
    (cmd argp : BitVec 64) :
    Follows w { w with files := w.files.ioctl s cmd argp } (ioctlCall s cmd argp) := by
  have hshown := shown_of_open htemp hopen
  unfold OpenFiles.ioctl ioctlCall
  by_cases hnonblock : cmd = FIONBIO
  · rw [if_pos hnonblock, if_pos hnonblock]
    exact ⟨h.setNonblock htemp _, hshown, h.shown_setNonblock htemp _⟩
  · rw [if_neg hnonblock, if_neg hnonblock]
    by_cases hset : cmd = FIOCLEX
    · rw [if_pos hset, if_pos hset]
      exact ⟨h.setCloexec s true, hshown, shown_setCloexec s true⟩
    · rw [if_neg hset, if_neg hset]
      by_cases hclear : cmd = FIONCLEX
      · rw [if_pos hclear, if_pos hclear]
        exact ⟨h.setCloexec s false, hshown, shown_setCloexec s false⟩
      · rw [if_neg hclear, if_neg hclear]
        exact follows_refl h

theorem free_of_admits {fds : List Fd} (h : w.admits fds = true) :
    fds.Nodup ∧ ∀ fd ∈ fds, w.files.table.file fd = none := by
  simp only [World.admits, Bool.and_eq_true, decide_eq_true_eq, List.all_eq_true,
    Option.isNone_iff_eq_none] at h
  exact ⟨h.1, fun fd hfd => (h.2 fd hfd).2⟩

/-- `AcceptEx` is called with an open socket that no other thread works with. -/
theorem follows_start {args : AcceptExArgs} {o : Accepted} (h : Inv w) (hrun : args.run = some o)
    (hidle : w.pending tid = none) (hopen : w.files.table.file args.sAcceptSocket ≠ none)
    (htemp : ¬ Temp w args.sAcceptSocket) (htarget : ¬ Target w args.sAcceptSocket) :
    Follows w (w.advance tid w.files (some ⟨args.answers, o.calls⟩)) none := by
  have hcalls : w.calls tid = [] := by rw [World.calls, hidle]; rfl
  have hfree (tid' : Nat) : args.sAcceptSocket ∉ heldOf (w.calls tid') := by
    intro hheld
    rcases mem_heldOf.mp hheld with hheld | hheld
    · exact htemp ⟨tid', hheld⟩
    · exact htarget ⟨tid', hheld⟩
  have hhead (fd : Fd) (rest : List Syscall) : w.calls tid ≠ .close fd :: rest := by
    rw [hcalls]
    exact (List.cons_ne_nil _ _).symm
  rcases calls_of_run hrun with ⟨haccept, hleft⟩ | ⟨fd, peer, rest, haccept, hrest, hleft⟩
  · rw [hleft]
    apply h.advance_same
    · intro q hq
      obtain rfl := Option.some.inj hq
      exact .refused haccept
    · intro g hg
      cases hg
    · exact List.nodup_nil
    · rw [hcalls]
      rfl
    · exact hhead
    · intro fd t rest heq
      cases heq
  · rw [hleft]
    apply h.advance_same
    · intro q hq
      obtain rfl := Option.some.inj hq
      exact .accepting haccept hrest
    · intro g hg
      obtain rfl : args.sAcceptSocket = g := by
        simpa [heldOf, left, tempOf, targetOf, eq_comm] using hg
      exact .inr ⟨hopen, hfree⟩
    · exact List.nodup_singleton args.sAcceptSocket
    · rw [hcalls]
      rfl
    · exact hhead
    · intro fd t rest heq
      cases heq

/-- A system call of `AcceptEx`: only the successful `dup2` is seen. -/
theorem follows_syscall {c : Syscall} {calls : List Syscall} (h : Inv w)
    (hpending : w.pending tid = some ⟨answers, c :: calls⟩)
    (hadmits : w.admits (newOf answers c) = true) :
    Follows w (w.advance tid (w.files.perform answers c)
      (if calls = [] then none else some ⟨answers, calls⟩)) (seenOf answers c) := by
  have hcalls : w.calls tid = c :: calls := by rw [World.calls, hpending]; rfl
  have hphase : Phase answers (c :: calls) := h.phase tid _ hpending
  cases hphase with
  | refused haccept =>
    rw [OpenFiles.perform, haccept]
    apply h.advance_same
    · intro q hq
      cases hq
    · intro g hg
      cases hg
    · exact List.nodup_nil
    · rw [hcalls]
      rfl
    · intro fd rest heq
      rw [hcalls] at heq
      cases heq
    · intro fd t rest heq
      cases heq
  | @accepting s t fd peer rest haccept hrest =>
    have hfree : w.files.table.file fd = none := by
      have hfds := free_of_admits hadmits
      simp only [newOf, haccept, Option.map_some, Option.toList_some] at hfds
      exact hfds.2 fd List.mem_cons_self
    rw [OpenFiles.perform, haccept, if_neg (List.cons_ne_nil _ _)]
    exact h.accepted hcalls hfree hrest
  | @replacing t fd rest hrest =>
    rw [OpenFiles.perform, if_neg (List.cons_ne_nil _ _)]
    cases hdup : answers.dup2 with
    | true =>
      rw [if_pos rfl, seenOf, hdup, if_pos rfl]
      obtain ⟨hinv, hshown⟩ := h.replaced answers hcalls hrest
      refine ⟨hinv, ?_, hshown⟩
      have htarget : Target w t := ⟨tid, by rw [hcalls]; rfl⟩
      have hheld : t ∈ heldOf (w.calls tid) := target_held (by rw [hcalls]; rfl)
      exact shown_of_open (fun htemp => h.temp_not_target htemp htarget) (h.held_open tid t hheld)
    | false =>
      rw [if_neg Bool.false_ne_true, seenOf, hdup, if_neg Bool.false_ne_true]
      apply h.advance_same
      · intro q hq
        obtain rfl := Option.some.inj hq
        exact .closing hrest
      · intro g hg
        obtain rfl : fd = g := by simpa [heldOf, left, tempOf, targetOf, eq_comm] using hg
        exact .inl (temp_held (by rw [hcalls]; rfl))
      · exact List.nodup_singleton fd
      · rw [hcalls]
        rfl
      · intro fd' rest' heq
        rw [hcalls] at heq
        cases heq
      · intro fd' t' rest' heq
        cases heq
  | @closing fd rest hrest =>
    apply h.closed hcalls
    · intro q
      exact phase_harmless hrest
    · rw [left_ite]
      exact tempOf_harmless hrest
    · rw [left_ite]
      exact targetOf_harmless hrest
  | finishing hc hrest =>
    have hall : ∀ c' ∈ c :: calls, Harmless c' := by
      intro c' hc'
      rcases List.mem_cons.mp hc' with rfl | hc'
      · exact hc
      · exact hrest c' hc'
    have hsame : w.files.perform answers c = w.files := by
      cases c <;> first | rfl | exact hc.elim
    have hnone : seenOf answers c = none := by
      cases c <;> first | rfl | exact hc.elim
    have hheld : heldOf (left (if calls = [] then none else some ⟨answers, calls⟩)) = [] := by
      rw [left_ite]
      exact heldOf_harmless hrest
    rw [hsame, hnone]
    apply h.advance_same
    · intro q
      exact phase_harmless hrest
    · simp [hheld]
    · simp [hheld]
    · rw [left_ite, hcalls, tempOf_harmless hrest, tempOf_harmless hall]
    · intro fd rest heq
      rw [hcalls] at heq
      obtain rfl := (List.cons_eq_cons.mp heq).1
      exact hc
    · intro fd t rest heq
      rw [left_ite] at heq
      exact hrest (.dup2 fd t) (by rw [heq]; exact List.mem_cons_self)

theorem call_eq_some {α : Type} {fds : List Fd} {o : Outcome α}
    (h : w.call tid fds o = some w') :
    (∀ fd ∈ fds, w.files.table.file fd = none) ∧ fds.Nodup ∧ w' = { w with files := o.files } := by
  unfold World.call at h
  split at h
  · rename_i hguard
    simp only [Bool.and_eq_true] at hguard
    obtain ⟨hnodup, hfree⟩ := free_of_admits hguard.2
    exact ⟨hfree, hnodup, (Option.some.inj h).symm⟩
  · cases h

theorem follows_wsaSocketA (h : Inv w) (tid : Nat) (af type protocol dwFlags : BitVec 32)
    (answer : Except Int Fd) (hfree : ∀ fd ∈ newFd answer, w.files.table.file fd = none) :
    Follows w { w with files := (wsaSocketA w.files af type protocol dwFlags answer).files }
      (view w (.wsaSocketA tid af type protocol dwFlags answer)) := by
  cases answer with
  | error errno => exact follows_refl h
  | ok fd => exact follows_create h (hfree fd List.mem_cons_self) _

/-- **One step** of careful threads. -/
theorem follows_of_next (h : Inv w) (hok : Careful w l) (hn : next w l = some w') :
    Follows w w' (view w l) := by
  cases l with
  | wsaSocketA tid af type protocol dwFlags answer =>
    obtain ⟨hfree, -, rfl⟩ := call_eq_some hn
    exact follows_wsaSocketA h tid af type protocol dwFlags answer hfree
  | wsaSocketW tid af type protocol dwFlags answer =>
    obtain ⟨hfree, -, rfl⟩ := call_eq_some hn
    have hfollows := follows_wsaSocketA h tid af type protocol dwFlags answer hfree
    cases answer with
    | error errno => exact hfollows
    | ok fd => exact hfollows
  | wsaAccept tid s addrlen answer =>
    obtain ⟨hfree, -, rfl⟩ := call_eq_some hn
    cases answer with
    | error errno => exact follows_refl h
    | ok accepted => exact follows_create h (hfree accepted.1 List.mem_cons_self) _
  | wsaSocketPair tid af type protocol socks answer =>
    obtain ⟨hfree, hnodup, rfl⟩ := call_eq_some hn
    cases answer with
    | error errno => exact follows_refl h
    | ok fds =>
      have hne : fds.1 ≠ fds.2 := by simpa using hnodup
      exact follows_createPair h hne (hfree fds.1 (by simp)) (hfree fds.2 (by simp)) _
  | wsaConnect tid s answer =>
    obtain ⟨-, -, rfl⟩ := call_eq_some hn
    cases answer with
    | none => exact follows_refl h
    | some errno => exact follows_refl h
  | closesocket tid s =>
    obtain ⟨-, -, rfl⟩ := call_eq_some hn
    have hfollows := follows_close h hok.1 hok.2
    simp only [closesocket, view]
    cases hfile : w.files.table.file s with
    | none => exact follows_refl h
    | some f =>
      rw [hfile] at hfollows
      exact hfollows
  | ioctlsocket tid s cmd argp answer =>
    obtain ⟨-, -, rfl⟩ := call_eq_some hn
    cases hfile : w.files.table.file s with
    | none =>
      have hview : view w (.ioctlsocket tid s cmd argp answer) = none := by
        cases answer <;> simp [view, hfile]
      rw [hview]
      simp only [ioctlsocket, hfile]
      exact follows_refl h
    | some f =>
      cases answer with
      | some errno =>
        simp only [ioctlsocket, hfile]
        exact follows_refl h
      | none =>
        simp only [ioctlsocket, view, hfile]
        exact follows_ioctl h hok (by rw [hfile]; exact Option.some_ne_none f) cmd argp
  | disconnectEx tid s dwFlags shutdownOk =>
    obtain ⟨-, -, rfl⟩ := call_eq_some hn
    cases shutdownOk with
    | false => exact follows_refl h
    | true =>
      simp only [disconnectEx, view, Bool.not_true, Bool.false_eq_true, if_false]
      by_cases hclose : dwFlags &&& TF_REUSE_SOCKET = 0
      · rw [if_pos hclose, if_pos hclose]
        exact follows_close h hok.1 hok.2
      · rw [if_neg hclose, if_neg hclose]
        exact follows_refl h
  | acceptEx tid args =>
    simp only [next] at hn
    split at hn
    · rename_i hidle
      obtain ⟨o, hrun, rfl⟩ := Option.map_eq_some_iff.mp hn
      exact follows_start h hrun (Option.isNone_iff_eq_none.mp hidle) hok.1 hok.2.1 hok.2.2
    · cases hn
  | syscall tid =>
    simp only [next] at hn
    split at hn
    · rename_i answers c calls hpending
      split at hn
      · rename_i hadmits
        obtain rfl := Option.some.inj hn
        have hview : view w (.syscall tid) = seenOf answers c := by simp only [view, hpending]
        rw [hview]
        exact follows_syscall h hpending hadmits
      · cases hn
    · cases hn

/-! ### Runs -/

theorem inv_start : Inv World.start where
  phase _ _ h := by cases h
  held_open _ _ h := by cases h
  held_nodup _ := List.nodup_nil
  held_apart _ _ _ h := by cases h
  unshared _ _ _ h := by cases h
  blocking _ _ _ _ _ h := by cases h

theorem shown_start : shown World.start = fun _ => none := by
  ext1 fd
  exact shown_of_free rfl

/-- The steps of careful threads are calls. -/
noncomputable def refinement : Simulation system atomic (fun _ w l => Careful w l) where
  rel _ w t := Inv w ∧ t = shown w
  view := view
  init := by
    rintro w rfl
    exact ⟨_, rfl, inv_start, shown_start.symm⟩
  matched := by
    rintro tr w l w' t c - ⟨hinv, rfl⟩ hok hstep hview
    have hfollows := follows_of_next hinv hok hstep
    rw [hview] at hfollows
    exact ⟨_, hfollows.2, hfollows.1, rfl⟩
  hidden := by
    rintro tr w l w' t - ⟨hinv, rfl⟩ hok hstep hview
    have hfollows := follows_of_next hinv hok hstep
    rw [hview] at hfollows
    exact ⟨hfollows.1, hfollows.2.symm⟩

variable {tr : List (World × Label)}

theorem inv_of_run (h : system.Run tr w) (hok : AllSteps (fun _ w l => Careful w l) tr) :
    Inv w := by
  obtain ⟨-, t, -, hrel, -⟩ := refinement.run h hok
  exact hrel.1

/-- Outside `AcceptEx` there is nothing that callers do not know. -/
theorem shown_of_idle (h : ∀ tid, w.pending tid = none) : shown w = w.files.descriptor := by
  ext1 fd
  apply shown_of_not_temp
  rintro ⟨tid, htemp⟩
  rw [World.calls, h tid] at htemp
  cases htemp

/-- **The calls are atomic.**  In every run of threads that leave the sockets of an `AcceptEx` in
    progress alone, what callers know of the descriptors is the outcome of a run of the calls, each
    made at one of the steps, in their order; and when no thread is inside `AcceptEx`, these are the
    descriptors of the process. -/
theorem calls_refine (h : system.Run tr w) (hok : AllSteps (fun _ w l => Careful w l) tr) :
    (∃ tr', atomic.Run tr' (shown w) ∧ tr'.map Prod.snd = seen view tr) ∧
      ((∀ tid, w.pending tid = none) → w.files.descriptor = shown w) := by
  obtain ⟨tr', t, hrun, ⟨-, rfl⟩, hseen⟩ := refinement.run h hok
  exact ⟨⟨tr', hrun, hseen⟩, fun hidle => (shown_of_idle hidle).symm⟩

/-- `AcceptEx` without a buffer, of the listener 3, to the socket 4. -/
def noBuffer : AcceptExArgs := ⟨loopbackAnswers, 3, 4, none, 0, 0, 0, none, fun _ => 0⟩

/-- A thread makes a listener and an overlapped socket, and accepts a connection up to the `dup2`;
    another thread makes a socket in between. -/
def untilDup2 : List Label :=
  [.wsaSocketA 1 AF_INET SOCK_STREAM 0 0 (.ok 3),
    .wsaSocketA 1 AF_INET SOCK_STREAM 0 WSA_FLAG_OVERLAPPED (.ok 4), .acceptEx 1 noBuffer,
    .syscall 1, .wsaSocketA 2 AF_INET SOCK_STREAM 0 0 (.ok 6), .syscall 1]

/-- The thread closes the temporary descriptor. -/
def untilClose : List Label := untilDup2 ++ [.syscall 1]

/-- `AcceptEx` is called with a socket that no thread works with. -/
theorem careful_noBuffer {w : World} (hopen : w.files.table.file 4 ≠ none)
    (hidle : ∀ tid, w.pending tid = none) : Careful w (.acceptEx 1 noBuffer) := by
  have hcalls (tid : Nat) : w.calls tid = [] := by rw [World.calls, hidle tid]; rfl
  refine ⟨hopen, ?_, ?_⟩
  · rintro ⟨tid, htemp⟩
    rw [hcalls tid] at htemp
    cases htemp
  · rintro ⟨tid, htarget⟩
    rw [hcalls tid] at htarget
    cases htarget

/-- After it the socket 4 blocks, and is inherited, and the other thread has its own socket. -/
theorem calls_refine_accepting :
    let ran := (exec next untilClose [] World.start).get rfl
    (∃ tr', atomic.Run tr' (shown ran.2) ∧
      tr'.map Prod.snd = [.acceptEx 4, .create 6 ⟨false, true⟩, .create 4 ⟨true, true⟩,
        .create 3 ⟨false, true⟩]) ∧ shown ran.2 4 = some ⟨false, false⟩ := by
  intro ran
  have hrun : system.Run ran.1 ran.2 := run_of_exec_isSome World.start next untilClose rfl
  have hok : AllSteps (fun _ w l => Careful w l) ran.1 :=
    ⟨trivial, trivial, trivial, trivial, careful_noBuffer (by decide) (fun _ => rfl), trivial,
      trivial, trivial⟩
  obtain ⟨hrefined, hidle⟩ := calls_refine hrun hok
  refine ⟨hrefined, ?_⟩
  rw [← hidle]
  · rfl
  · intro tid
    show update (update (update (update (fun _ => none) 1 _) 1 _) 1 _) 1 none tid = none
    by_cases htid : tid = 1
    · rw [htid, update_self]
    · simp only [update_of_ne htid]

/-- **One descriptor for each socket.**  In every such run, two descriptors refer to the same socket
    only while an `AcceptEx` has still to close one of them; and when a socket is closed, no
    descriptor refers to it any more, but those that an `AcceptEx` is going to close. -/
theorem one_descriptor (h : system.Run tr w) (hok : AllSteps (fun _ w l => Careful w l) tr) :
    (∀ fd g f, w.files.table.file fd = some f → w.files.table.file g = some f →
      fd = g ∨ Closing w fd ∨ Closing w g) ∧
    ∀ tid s f w', Careful w (.closesocket tid s) → next w (.closesocket tid s) = some w' →
      w.files.table.file s = some f → ∀ g, w'.files.table.file g = some f → Closing w' g := by
  have hinv := inv_of_run h hok
  refine ⟨?_, ?_⟩
  · intro fd g f hfd hg
    by_cases hc : Closing w fd
    · exact .inr (.inl hc)
    · by_cases hc' : Closing w g
      · exact .inr (.inr hc')
      · exact .inl (hinv.unshared fd g f hfd hg hc hc')
  · intro tid s f w' hcareful hn hs g hg
    obtain ⟨-, -, rfl⟩ := call_eq_some hn
    simp only [closesocket, hs] at hg
    change update w.files.table.file s none g = some f at hg
    rw [update_apply] at hg
    split at hg
    · cases hg
    · rename_i hne
      by_contra hc
      have hsClosing : ¬ Closing w s := fun hclosing => hcareful.1 hclosing.temp
      exact hne (hinv.unshared g s f hg hs hc hsClosing)

/-- Between `dup2` and `close` the new connection has two descriptors. -/
theorem one_descriptor_untilDup2 :
    let ran := (exec next untilDup2 [] World.start).get rfl
    ran.2.files.table.file 4 = ran.2.files.table.file 5 ∧ (Closing ran.2 4 ∨ Closing ran.2 5) := by
  intro ran
  have hrun : system.Run ran.1 ran.2 := run_of_exec_isSome World.start next untilDup2 rfl
  have hok : AllSteps (fun _ w l => Careful w l) ran.1 :=
    ⟨trivial, trivial, trivial, careful_noBuffer (by decide) (fun _ => rfl), trivial, trivial,
      trivial⟩
  have hone := (one_descriptor hrun hok).1 4 5 2 (by decide) (by decide)
  exact ⟨by decide, hone.resolve_left (by decide)⟩

end LinuxWinsock.Files
