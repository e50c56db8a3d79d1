import LinuxWinsock.Events.Invariant

namespace LinuxWinsock

open Kernel LinkedList TransitionSystem

/-!
# What `g_socket_event_map` holds

The purpose of the list of mappings is a table: for each socket the event and the mask of
its last registration.  `Registered` reads that table off the list, and `lastSelect` off
the history of a run.

* `registered_iff_lastSelect` — in every reachable state the two agree;
* `mapping_representation` — the list represents the table: it ends, has one record a
  socket, and a call that fails leaves no trace;
* `interest_registered_iff` — what the records' `epoll` instances watch.  The update path of
  `WSAEventSelect` does not tell the kernel, so the registered mask is the watched one
  throughout a run exactly if no update asks for other conditions than the mapping has.
-/

variable {w w' : World} {l : Label} {tr : Trace}

/-- The table: the mapping of `s` holds the event and the mask `r`. -/
def Registered (w : World) (s : SOCKET) (r : WSAEVENT × BitVec 64) : Prop :=
  ∃ p m, w.maps.cell p = some m ∧ m.sock = s ∧ (m.event, m.networkEvents) = r

/-- The event and the mask of the last call for `s` that returned 0. -/
def lastSelect (s : SOCKET) : Trace → Option (WSAEVENT × BitVec 64) := latestAt registers s

/-! ### One step -/

/-- A store of the only record for its socket changes the table there and nowhere else. -/
theorem registered_put {p : Addr} {x : SocketEventMap} (hmaps : w'.maps = w.maps.put p x)
    (honly : ∀ q n, w.maps.cell q = some n → (n.sock = x.sock ↔ q = p)) (s : SOCKET)
    (r : WSAEVENT × BitVec 64) :
    Registered w' s r ↔
      if x.sock = s then (x.event, x.networkEvents) = r else Registered w s r := by
  unfold Registered
  rw [hmaps]
  by_cases hs : x.sock = s
  · rw [if_pos hs]
    constructor
    · rintro ⟨q, n, hq, hns, hr⟩
      rcases Heap.cell_of_put hq with ⟨rfl, rfl⟩ | ⟨hqp, hq⟩
      · exact hr
      · -- another record for the socket would be the same record
        exact absurd ((honly q n hq).mp (hns.trans hs.symm)) hqp
    · intro hr
      exact ⟨p, x, Heap.put_cell_self _ _ _, hs, hr⟩
  · rw [if_neg hs]
    constructor
    · rintro ⟨q, n, hq, hns, hr⟩
      rcases Heap.cell_of_put hq with ⟨rfl, rfl⟩ | ⟨_, hq⟩
      · exact absurd hns hs
      · exact ⟨q, n, hq, hns, hr⟩
    · rintro ⟨q, n, hq, hns, hr⟩
      have hqp : q ≠ p := fun heq => hs (((honly q n hq).mpr heq).symm.trans hns)
      exact ⟨q, n, by rw [Heap.put_cell_of_ne _ _ hqp]; exact hq, hns, hr⟩

/-- The table changes only where the step registers something. -/
theorem registered_step (hi : Inv w) (he : Effect w l w') (s : SOCKET)
    (r : WSAEVENT × BitVec 64) :
    Registered w' s r ↔
      match registers w l with
      | some (s', r') => if s' = s then r' = r else Registered w s r
      | none => Registered w s r := by
  -- where the records are the same, so is the table
  have hsame : Marks w l (closes w l) (signals w l) none → w'.maps = w.maps →
      (Registered w' s r ↔
        match registers w l with
        | some (s', r') => if s' = s then r' = r else Registered w s r
        | none => Registered w s r) := by
    intro hmarks hmaps
    rw [hmarks.registers]
    unfold Registered
    rw [hmaps]
  cases he with
  | quiet marks frame => exact hsame ⟨rfl, rfl, marks.registers⟩ frame.maps
  | signalled _ _ _ marks frame => exact hsame ⟨rfl, rfl, marks.registers⟩ frame.maps
  | eventCreated _ _ marks frame => exact hsame ⟨rfl, rfl, marks.registers⟩ frame.maps
  | eventClosed _ _ marks frame => exact hsame ⟨rfl, rfl, marks.registers⟩ frame.maps
  | socketOpened _ _ marks frame => exact hsame ⟨rfl, rfl, marks.registers⟩ frame.maps
  | socketClosed _ marks frame => exact hsame ⟨rfl, rfl, marks.registers⟩ frame.maps
  | updated s' h mask p m marks live sock _ _ maps =>
    obtain ⟨L, hL⟩ := hi.maps
    subst sock
    rw [marks.registers]
    refine registered_put maps (fun q n hq => ⟨fun hns => ?_, ?_⟩) s r
    · exact hL.socks q p n m hq live hns
    · rintro rfl
      obtain rfl := Option.some.inj (live.symm.trans hq)
      rfl
  | created s' h mask map epollFd marks unmapped created =>
    rw [marks.registers]
    refine registered_put created.maps (fun q n hq => ⟨fun hns => ?_, ?_⟩) s r
    · exact absurd hns (unmapped q n hq)
    · rintro rfl
      rw [created.fresh] at hq
      cases hq

/-! ### Every run -/

/-- The table read off the list is the table read off the history. -/
theorem registered_iff_lastSelect (h : system.Run tr w) (s : SOCKET)
    (r : WSAEVENT × BitVec 64) : Registered w s r ↔ lastSelect s tr = some r := by
  refine h.invariant (P := fun tr w => ∀ s r, Registered w s r ↔ lastSelect s tr = some r)
    ?_ ?_ s r
  · intro w hw s r
    obtain rfl : w = World.start := hw
    constructor
    · rintro ⟨p, m, hp, _⟩
      cases hp
    · intro hnone
      cases hnone
  · intro tr w l w' hrun ih hstep s r
    obtain ⟨hi, he⟩ := effect_of_run hrun hstep
    rw [registered_step hi he]
    cases hreg : registers w l with
    | none =>
      show _ ↔ latestAt registers s _ = _
      rw [latestAt_cons_none hreg]
      exact ih s r
    | some q =>
      obtain ⟨s', r'⟩ := q
      show _ ↔ latestAt registers s _ = _
      rw [latestAt_cons_some hreg]
      dsimp only
      by_cases hs : s' = s
      · rw [if_pos hs, if_pos hs, Option.some.injEq]
      · rw [if_neg hs, if_neg hs]
        exact ih s r

/-- **Representation.**  In every reachable state `g_socket_event_map` is a finite acyclic
    list with one record a socket, of the sockets for which a call returned 0, each with
    the event and the mask of the last such call; every record allocated is in the list.
    A call of `WSAEventSelect` made there returns, and if it returns `SOCKET_ERROR` it has
    changed nothing. -/
theorem mapping_representation (h : system.Run tr w) :
    ∃ L, w.MapList L ∧ L.Nodup ∧ (∀ p, p ∈ L ↔ w.maps.cell p ≠ none) ∧
      (∀ p ∈ L, ∀ q ∈ L, ∀ m n, w.maps.cell p = some m → w.maps.cell q = some n →
        m.sock = n.sock → p = q) ∧
      (∀ s, (∃ p ∈ L, ∃ m, w.maps.cell p = some m ∧ m.sock = s) ↔
        ∃ e ∈ tr, ∃ r, registers e.1 e.2 = some (s, r)) ∧
      (∀ p ∈ L, ∀ m, w.maps.cell p = some m →
        lastSelect m.sock tr = some (m.event, m.networkEvents)) ∧
      ∀ a s hEvent mask, a.possible w = true →
        ∃ o, wsaEventSelect a w s hEvent mask = some o ∧ (o.ret = 0 ∨ o.ret = SOCKET_ERROR) ∧
          (o.ret = SOCKET_ERROR → Undone w o.world) := by
  have hi := inv_of_run h
  obtain ⟨L, hL⟩ := hi.maps
  refine ⟨L, hL.list, hL.list.nodup, ?_, ?_, ?_, ?_, ?_⟩
  · intro p
    constructor
    · intro hp
      obtain ⟨m, hm⟩ := hL.list.allocated p hp
      rw [hm]
      exact Option.some_ne_none m
    · intro hp
      obtain ⟨m, hm⟩ := Option.ne_none_iff_exists'.mp hp
      exact hL.listed p m hm
  · intro p _ q _ m n hm hn
    exact hL.socks p q m n hm hn
  · intro s
    -- there is a call that returned 0 exactly if there is a last one
    rw [← latestAt_ne_none]
    constructor
    · rintro ⟨p, _, m, hm, hms⟩
      have hlast := (registered_iff_lastSelect h s (m.event, m.networkEvents)).mp
        ⟨p, m, hm, hms, rfl⟩
      rw [show latestAt registers s tr = some _ from hlast]
      exact Option.some_ne_none _
    · intro hne
      obtain ⟨r, hr⟩ := Option.ne_none_iff_exists'.mp hne
      obtain ⟨p, m, hm, hms, _⟩ := (registered_iff_lastSelect h s r).mpr hr
      exact ⟨p, hL.listed p m hm, m, hm, hms⟩
  · intro p _ m hm
    exact (registered_iff_lastSelect h m.sock _).mp ⟨p, m, hm, rfl, rfl⟩
  · intro a s hEvent mask ha
    obtain ⟨o, ho, hcases⟩ := wsaEventSelect_cases hL.list hi.clean ha s hEvent mask
    refine ⟨o, ho, ?_⟩
    -- two of the three cases return 0, and the third has undone everything
    have hne : (0 : Int) ≠ SOCKET_ERROR := by decide
    rcases hcases with ⟨_, _, _, _, _, rfl⟩ | ⟨_, hret, _⟩ | ⟨_, hret, _, hu⟩
    · exact ⟨.inl rfl, fun hret => absurd hret hne⟩
    · exact ⟨.inl hret, fun herr => absurd (hret.symm.trans herr) hne⟩
    · exact ⟨.inr hret, fun _ => hu⟩

/-- A run with a registration and one that fails after it: the list is the first one's
    record. -/
theorem mapping_representation_after_failure : ∃ tr w, system.Run tr w ∧
    w.gSocketEventMap = some 100 ∧ ∃ L, w.MapList L ∧ L.Nodup ∧
      (∀ p ∈ L, ∀ m, w.maps.cell p = some m →
        lastSelect m.sock tr = some (m.event, m.networkEvents)) := by
  have hrun := run_of_exec_isSome World.start next
    [.socket 5 false, .socket 7 false,
      .eventSelect ⟨some 100, some 6, true, true⟩ 5 (some 200) FD_READ,
      .eventSelect ⟨some 101, some 8, true, false⟩ 7 (some 200) FD_WRITE] rfl
  obtain ⟨L, hL, hnodup, _, _, _, hlast, _⟩ := mapping_representation hrun
  exact ⟨_, _, hrun, rfl, L, hL, hnodup, hlast⟩

/-! ### What the records' `epoll` instances watch -/

/-- For every record of the list, what its `epoll` instance holds for its socket is the
    translation of its mask. -/
def InterestRegistered (w : World) : Prop :=
  ∃ L, w.MapList L ∧ ∀ p ∈ L, ∀ m, w.maps.cell p = some m →
    w.kernel.interest m.epollFd m.sock = some (epollEvents m.networkEvents)

/-- If the step is a call of `WSAEventSelect` for a socket that has a mapping, its mask
    translates to the conditions the mapping's mask translates to. -/
def SameInterest (w : World) : Label → Prop
  | .eventSelect _ s _ mask => ∀ p m, w.maps.cell p = some m → m.sock = s →
      epollEvents mask = epollEvents m.networkEvents
  | _ => True

/-- The records of the list are the records that are allocated. -/
theorem interestRegistered_iff (hi : Inv w) : InterestRegistered w ↔
    ∀ p m, w.maps.cell p = some m →
      w.kernel.interest m.epollFd m.sock = some (epollEvents m.networkEvents) := by
  obtain ⟨L, hL⟩ := hi.maps
  constructor
  · rintro ⟨L', hL', hall⟩ p m hm
    have hp : p ∈ L' := hi.mem_of_mapList hL' hm
    exact hall p hp m hm
  · intro hall
    exact ⟨L, hL.list, fun p _ m hm => hall p m hm⟩

/-- A step that closes and registers nothing keeps all interest sets. -/
theorem interest_of_frame (he : Effect w l w') (hcl : closes w l = none)
    (hreg : registers w l = none) :
    Frame w l w' ∧ ∀ e f, w'.kernel.interest e f = w.kernel.interest e f := by
  cases he with
  | quiet _ frame watch => exact ⟨frame, watch.interest⟩
  | signalled _ _ _ _ frame _ watch => exact ⟨frame, watch.interest⟩
  | eventCreated _ _ _ frame _ free kernel =>
    have hplain : ∀ I, FileKind.eventfd 0 ≠ .epoll I := nofun
    exact ⟨frame, fun e f => by rw [kernel, openAt_interest hplain free]⟩
  | socketOpened _ _ _ frame free kernel =>
    have hplain : ∀ I, FileKind.socket 0 0 ≠ .epoll I := nofun
    exact ⟨frame, fun e f => by rw [kernel, openAt_interest hplain free]⟩
  | eventClosed _ _ marks => rw [marks.closes] at hcl; cases hcl
  | socketClosed _ marks => rw [marks.closes] at hcl; cases hcl
  | updated _ _ _ _ _ marks => rw [marks.registers] at hreg; cases hreg
  | created _ _ _ _ _ marks => rw [marks.registers] at hreg; cases hreg

/-- One step: where the registered masks are the watched ones, they still are after a step
    that closes nothing exactly if an update asks for the same conditions. -/
theorem interestRegistered_step (hi : Inv w) (he : Effect w l w') (hcl : closes w l = none)
    (hP : InterestRegistered w) : InterestRegistered w' ↔ SameInterest w l := by
  have hi' := inv_of_effect hi he
  rw [interestRegistered_iff hi'] at *
  rw [interestRegistered_iff hi] at hP
  cases hreg : registers w l with
  | none =>
    obtain ⟨hframe, hint⟩ := interest_of_frame he hcl hreg
    -- a call that registers nothing was for a socket without a mapping
    have hok : SameInterest w l := by
      cases l with
      | eventSelect a s h mask =>
        intro p m hm hms
        exact absurd hms (hframe.unmapped a s h mask rfl p m hm)
      | _ => trivial
    refine ⟨fun _ => hok, fun _ p m hm => ?_⟩
    rw [hframe.maps] at hm
    rw [hint]
    exact hP p m hm
  | some r =>
    obtain ⟨s, h, mask⟩ := r
    obtain ⟨a, rfl⟩ := label_of_registers hreg
    obtain ⟨L, hL⟩ := hi.maps
    cases he.registration hreg with
    | updated p m live sock kernel _ maps =>
      have hwatch := hP p m live
      constructor
      · intro hall q n hn hns
        -- the socket's only record is the one the call changed
        obtain rfl := hL.socks q p n m hn live (hns.trans sock.symm)
        obtain rfl := Option.some.inj (live.symm.trans hn)
        have hnew := hall q _ (by rw [maps]; exact Heap.put_cell_self _ _ _)
        rw [kernel] at hnew
        exact Option.some.inj (hnew.symm.trans hwatch)
      · intro hsame q n hn
        rw [kernel]
        rw [maps] at hn
        rcases Heap.cell_of_put hn with ⟨rfl, rfl⟩ | ⟨_, hn⟩
        · show w.kernel.interest m.epollFd m.sock = some (epollEvents mask)
          rw [hsame q m live sock]
          exact hwatch
        · exact hP q n hn
    | created map epollFd unmapped created =>
      -- the new record is watched for what it registers, the others are as before
      refine ⟨fun _ p m hm hms => absurd hms (unmapped p m hm), fun _ q n hn => ?_⟩
      rw [created.interest]
      rw [created.maps] at hn
      rcases Heap.cell_of_put hn with ⟨rfl, rfl⟩ | ⟨_, hn⟩
      · rw [if_pos rfl, if_pos rfl]
      · rw [if_neg (hL.epollFd_ne created hn)]
        exact hP q n hn

/-- **Registered and watched.**  In a run that closes nothing, the registered masks are the
    watched ones in every state exactly if every call of `WSAEventSelect` for a socket that
    has a mapping asks for the conditions that mapping asks for. -/
theorem interest_registered_iff (h : system.Run tr w)
    (hopen : AllSteps (fun _ w l => closes w l = none) tr) :
    Always (fun _ w => InterestRegistered w) tr w ↔ AllSteps (fun _ w l => SameInterest w l) tr := by
  refine h.always_iff_allSteps ?_ ?_ hopen
  · intro s hs
    obtain rfl : s = World.start := hs
    exact ⟨[], .nil, nofun⟩
  · intro tr s l t hrun hP hcl hstep
    obtain ⟨hi, he⟩ := effect_of_run hrun hstep
    exact interestRegistered_step hi he hcl hP

/-- Two registrations of one socket for the same conditions. -/
theorem interest_registered_twice : ∃ tr w, system.Run tr w ∧
    Always (fun _ w => InterestRegistered w) tr w ∧
    w.gSocketEventMap = some 100 ∧ lastSelect 5 tr = some (some 201, FD_ACCEPT) := by
  have hrun := run_of_exec_isSome World.start next
    [.socket 5 false, .eventSelect ⟨some 100, some 6, true, true⟩ 5 (some 200) FD_READ,
      .eventSelect ⟨none, none, false, false⟩ 5 (some 201) FD_ACCEPT] rfl
  refine ⟨_, _, hrun, (interest_registered_iff hrun (by decide)).mpr ?_, rfl, by decide⟩
  show SameInterest _ _ ∧ SameInterest _ _ ∧ True ∧ True
  refine ⟨fun p m hm _ => ?_, fun p m hm _ => ?_, trivial, trivial⟩
  · have hcell : (if p = 100 then some _ else if p = 100 then some _ else none) = some m := hm
    split at hcell
    · obtain rfl := Option.some.inj hcell
      decide
    · cases hcell
  · cases (show (none : Option SocketEventMap) = some m from hm)

/-- The update path leaves the `epoll` instance as it is: a socket registered for
    `FD_READ` and then for `FD_WRITE` is still watched for `EPOLLIN` only. -/
theorem interest_not_updated : ¬ ∀ tr w, system.Run tr w →
    AllSteps (fun _ w l => closes w l = none) tr → InterestRegistered w := by
  intro hall
  have hrun := run_of_exec_isSome World.start next
    [.socket 5 false, .eventSelect ⟨some 100, some 6, true, true⟩ 5 (some 200) FD_READ,
      .eventSelect ⟨none, none, false, false⟩ 5 (some 200) FD_WRITE] rfl
  have hreg := (interestRegistered_iff (inv_of_run hrun)).mp (hall _ _ hrun (by decide))
  have hwatched : some EPOLLIN = some (epollEvents FD_WRITE) := hreg 100 _ rfl
  exact absurd hwatched (by decide)

end LinuxWinsock
