import LinuxWinsock.Lib.Progress
import LinuxWinsock.Msg.Pipe

namespace LinuxWinsock.Msg

open TransitionSystem

/-!
# Streams between processes

What is sent on a connected socket arrives once, and in the order of the calls.

* `carries_of_next` — what a step does to the stream to a socket;
* `stream_kept` — what is received is the first part of what is sent;
* `end_is_final` — a call that receives nothing has found the end.
-/

variable {Ω ε : Type} {k : Connections Ω ε} {net : Wiring} {w w' : World Ω} {e : Endpoint}
  {pid : Nat} {c : Call} {mallocOk : Bool} {l : Label ε}

/-! ### What a call adds -/

theorem sentTo_of_ret (h : (outcome k w pid c mallocOk).ret = SOCKET_ERROR) :
    sentTo k net e w (.call pid c mallocOk) = [] := by
  have hret : (outcome k w pid c mallocOk).ret ≠ 0 := h ▸ socketError_ne_zero
  exact if_neg (fun hsent => hret hsent.2.2)

theorem receivedAt_of_ret (h : (outcome k w pid c mallocOk).ret = SOCKET_ERROR) :
    receivedAt k e w (.call pid c mallocOk) = [] := by
  have hret : (outcome k w pid c mallocOk).ret ≠ 0 := h ▸ socketError_ne_zero
  exact if_neg (fun hreceived => hret hreceived.2.2.2)

theorem sentTo_of_receives (h : c.receives = true) :
    sentTo k net e w (.call pid c mallocOk) = [] :=
  if_neg (fun hsent => by simp [h] at hsent)

theorem receivedAt_of_sends (h : c.receives = false) :
    receivedAt k e w (.call pid c mallocOk) = [] :=
  if_neg (fun hreceived => by simp [h] at hreceived)

/-- A call that sends adds the bytes that have been taken from its buffers. -/
theorem sentTo_of_count {n : Nat} (hreceives : c.receives = false)
    (hret : (outcome k w pid c mallocOk).ret = 0)
    (hcount : (outcome k w pid c mallocOk).count = n) :
    sentTo k net e w (.call pid c mallocOk) =
      if net.peer (pid, c.socket) = e then (gather (w.memory pid) c.iov).take n else [] := by
  show (if _ then _ else _) = _
  by_cases he : net.peer (pid, c.socket) = e
  · rw [if_pos he, if_pos ⟨hreceives, he, hret⟩, hcount]
  · rw [if_neg he, if_neg (fun h => he h.2.1)]

/-- A call that receives adds the bytes that have come into its buffers. -/
theorem receivedAt_of_takes {bs : List Byte} (hreceives : c.receives = true)
    (hret : (outcome k w pid c mallocOk).ret = 0)
    (hcount : (outcome k w pid c mallocOk).count = bs.length) (hapart : Apart (c.areas ++ c.iov))
    (htakes : k.Takes w (pid, c.socket) c.areas c.iov c.peeks bs
      (outcome k w pid c mallocOk).state) :
    receivedAt k e w (.call pid c mallocOk) =
      if e = (pid, c.socket) ∧ c.peeks = false then bs else [] := by
  show (if _ then _ else _) = _
  by_cases he : e = (pid, c.socket) ∧ c.peeks = false
  · rw [if_pos he, if_pos ⟨hreceives, he.2, he.1.symm, hret⟩, hcount]
    exact htakes.memory hapart
  · rw [if_neg he, if_neg (fun h => he ⟨h.2.2.1.symm, h.2.1⟩)]

/-! ### What is sent is received -/

/-- **One step** puts what is sent behind the end of the stream, and takes what is received from
    its front. -/
theorem carries_of_next (hk : k.Documented net) (hn : next k w l = some w') (hok : Accountable l)
    (e : Endpoint) : k.Moves e w.os (sentTo k net e w l) (receivedAt k e w l) w'.os := by
  cases l with
  | store pid memory =>
    obtain rfl := Option.some.inj hn
    exact Carries.refl _ _
  | happens ev =>
    obtain ⟨os, hos, rfl⟩ := Option.map_eq_some_iff.mp hn
    exact hk.happened ev w.os os hos e
  | call pid c mallocOk =>
    obtain ⟨hplain, hasked, hapart⟩ := hok
    obtain rfl := Option.some.inj hn
    cases effect_of_call hk w pid mallocOk hplain with
    | failed hret hmoves =>
      rw [sentTo_of_ret hret, receivedAt_of_ret hret]
      exact hmoves e
    | received hreceives hret hcount htakes _ =>
      rw [sentTo_of_receives hreceives,
        receivedAt_of_takes hreceives hret (hcount hasked) (hapart hreceives) htakes]
      exact htakes.moves e
    | sent hreceives hret hcount hputs =>
      rw [receivedAt_of_sends hreceives, sentTo_of_count hreceives hret (hcount hasked)]
      exact hputs e

/-- **No byte is lost, doubled or overtaken.**  In every run, for every socket: the bytes that its
    calls report as received, followed by those that are under way to it, come first among those
    that the calls of its peer report as sent; and they are all of these, unless the stream was cut
    off. -/
theorem stream_kept (hk : k.Documented net) {tr : List (World Ω × Label ε)}
    (h : (system k).Run tr w) (hok : AllSteps (fun _ _ l => Accountable l) tr) (e : Endpoint) :
    given (receivedAt k e) tr ++ k.pending w.os e <+: given (sentTo k net e) tr ∧
      (¬ k.broken w.os e →
        given (sentTo k net e) tr = given (receivedAt k e) tr ++ k.pending w.os e) := by
  apply h.given_prefix (fun w => k.pending w.os e) (fun w => k.broken w.os e) _ _ hok
  · intro s hs
    exact hs e
  · intro _ s l t _ hl hstep
    exact carries_of_next hk hstep hl e

/-- Two processes that are connected through the socket 3 of each. -/
def Wiring.pair : Wiring where
  peer := Equiv.swap (1, 3) (2, 3)
  peer_peer := Equiv.swap_apply_self (1, 3) (2, 3)

def Pipe.start : World Pipe :=
  ⟨fun _ _ => 0, ⟨fun _ => [], fun _ => false, fun _ => false, .move 2⟩⟩

/-- The first process fills its memory and sends four bytes from two buffers, of which the kernel
    takes three; the second process receives them in two calls, the first of which peeks. -/
def threeOfFour : List (Label Happening) :=
  [.store 1 (fun i => i.setWidth 8),
    .call 1 (.send 3 (some fun i => if i = 0 then ⟨2, 16⟩ else ⟨2, 32⟩) 2 (some 0) MSG_OOB) true,
    .happens (.decide (.move 7)),
    .call 2 (.recvFrom 3 (some fun _ => ⟨8, 64⟩) 1 (some 0) (some MSG_PEEK) 0 none) true,
    .call 2 (.recv 3 (some fun _ => ⟨1, 64⟩) 1 (some 0) (some MSG_PEEK)) true]

/-- Labels that can be executed give a run of the two processes. -/
theorem run_pair (ls : List (Label Happening))
    (h : (exec (next (Pipe.connections .pair)) ls [] Pipe.start).isSome) :
    (system (Pipe.connections .pair)).Run
      ((exec (next (Pipe.connections .pair)) ls [] Pipe.start).get h).1
      ((exec (next (Pipe.connections .pair)) ls [] Pipe.start).get h).2 := by
  have hrun := run_of_exec_isSome Pipe.start (next (Pipe.connections .pair)) ls h
  have hinit : (system (Pipe.connections .pair)).Run [] Pipe.start := .init (fun _ => rfl)
  rw [← List.append_nil ((exec _ ls [] Pipe.start).get h).1]
  exact hinit.continue hrun

/-- The name and the control data of a call that asks for neither take no place. -/
theorem apart_of_unnamed (v : Iovec) : Apart ([⟨0, 0⟩, ⟨0, 0⟩] ++ [v]) := by
  have hempty (i : BitVec 64) : ¬ (⟨0, 0⟩ : Iovec).Covers i := Nat.not_lt_zero _
  exact .cons (fun _ _ i hi => absurd hi (hempty i))
    (.cons (fun _ _ i hi => absurd hi (hempty i)) (List.pairwise_singleton _ _))

/-- Three bytes count as sent; one counts as received, although its receiver has asked to peek, and
    two are under way. -/
theorem stream_kept_threeOfFour :
    let k := Pipe.connections .pair
    let ran := (exec (next k) threeOfFour [] Pipe.start).get rfl
    given (sentTo k .pair (2, 3)) ran.1 = [16, 17, 32] ∧
      given (receivedAt k (2, 3)) ran.1 ++ ran.2.os.queue (2, 3) = [16] ++ [17, 32] := by
  intro k ran
  have hok : AllSteps (fun _ _ l => Accountable l) ran.1 :=
    ⟨⟨rfl, Option.some_ne_none 0, fun _ => List.pairwise_singleton _ _⟩,
      ⟨rfl, Option.some_ne_none 0, fun _ => apart_of_unnamed _⟩, True.intro,
      ⟨rfl, Option.some_ne_none 0, fun h => (by cases h)⟩, True.intro, True.intro⟩
  have hkept := stream_kept (Pipe.documented .pair) (run_pair threeOfFour rfl) hok (2, 3)
  have hsent : given (sentTo k .pair (2, 3)) ran.1 = [16, 17, 32] := by decide +kernel
  have hwhole : ¬ k.broken ran.2.os (2, 3) := (by decide : ¬ (false = true))
  exact ⟨hsent, (hkept.2 hwhole).symm.trans hsent⟩

/-! ### The end of a stream -/

/-- A call at `e` has room for bytes, and reports that it has received none. -/
def ReportsEnd (k : Connections Ω ε) (e : Endpoint) (w : World Ω) : Label ε → Prop
  | .call pid c mallocOk =>
    c.receives ∧ c.plain ∧ (pid, c.socket) = e ∧ room c.iov ≠ 0 ∧ c.before.numberOfBytes ≠ none ∧
      (outcome k w pid c mallocOk).ret = 0 ∧ (outcome k w pid c mallocOk).count = 0
  | .store _ _ => False
  | .happens _ => False

/-- Then nothing is under way, and the peer has ended its stream. -/
theorem ended_of_reportsEnd (hk : k.Documented net) (h : ReportsEnd k e w l)
    (hwhole : ¬ k.broken w.os e) (hdeaf : ¬ k.deaf w.os e) :
    k.pending w.os e = [] ∧ k.ended w.os (net.peer e) := by
  cases l with
  | store => exact h.elim
  | happens => exact h.elim
  | call pid c mallocOk =>
    obtain ⟨hreceives, hplain, rfl, hroom, hasked, hret, hzero⟩ := h
    cases effect_of_call hk w pid mallocOk hplain with
    | failed hfailed _ => exact absurd (hfailed.symm.trans hret) socketError_ne_zero
    | @received bs _ _ hcount _ hfinished =>
      have hnil : bs = [] := List.length_eq_zero_iff.mp ((hcount hasked).symm.trans hzero)
      exact hfinished hnil hroom hwhole hdeaf
    | sent hsends _ _ _ => exact absurd (hsends.symm.trans hreceives) (by decide)

/-- Nothing more is sent on a stream that is ended. -/
theorem sentTo_of_ended (hk : k.Documented net) (h : k.ended w.os (net.peer e)) :
    sentTo k net e w (.call pid c mallocOk) = [] := by
  show (if _ then _ else _) = _
  split
  next hsent =>
    -- the sender is the peer
    obtain ⟨hsends, rfl, hret⟩ := hsent
    rw [net.peer_peer] at h
    cases exit_of_call k w pid c mallocOk with
    | refused hfailed _ => exact absurd (hfailed.symm.trans hret) socketError_ne_zero
    | failed _ hfailed _ _ => exact absurd (hfailed.symm.trans hret) socketError_ne_zero
    | @succeeded r hasks _ hpos _ hbytes =>
      have hle : (k.answer pid w r).result ≤ 0 :=
        hk.ended_sends pid w r (hasks.receives.trans hsends) (hasks.socket.symm ▸ h)
      have hzero : (k.answer pid w r).result = (0 : Nat) := le_antisymm hle hpos
      have hcount : (outcome k w pid c mallocOk).count = 0 := by
        by_cases hasked : c.before.numberOfBytes = none
        · rw [Outcome.count, hbytes, hasked]
          rfl
        · exact count_eq hbytes hzero (hk.result_lt pid w r) hasked
      rw [hcount, List.take_zero]
  next => rfl

/-- A stream that is ended stays so, and nothing more is sent. -/
theorem ended_of_next (hk : k.Documented net) (hn : next k w l = some w')
    (h : k.ended w.os (net.peer e)) :
    sentTo k net e w l = [] ∧ k.ended w'.os (net.peer e) := by
  cases l with
  | store pid memory =>
    obtain rfl := Option.some.inj hn
    exact ⟨rfl, h⟩
  | happens ev =>
    obtain ⟨os, hos, rfl⟩ := Option.map_eq_some_iff.mp hn
    exact ⟨rfl, hk.ended_happens ev w.os os _ hos h⟩
  | call pid c mallocOk =>
    obtain rfl := Option.some.inj hn
    refine ⟨sentTo_of_ended hk h, ?_⟩
    cases exit_of_call k w pid c mallocOk with
    | refused _ hstate =>
      rw [hstate]
      exact h
    | @failed r _ _ _ hstate =>
      rw [hstate]
      exact hk.ended_after pid w r _ h
    | @succeeded r _ _ _ hstate _ =>
      rw [hstate]
      exact hk.ended_after pid w r _ h

/-- **The end is final.**  When a call with room for bytes reports that it has received none, and
    the stream was not cut off, then all that was ever sent to the socket, and all that ever will
    be, has been received before. -/
theorem end_is_final (hk : k.Documented net) {tr tr' : List (World Ω × Label ε)} {w₁ : World Ω}
    (h : (system k).Run tr w) (hok : AllSteps (fun _ _ l => Accountable l) tr)
    (hend : ReportsEnd k e w l) (hwhole : ¬ k.broken w.os e) (hdeaf : ¬ k.deaf w.os e)
    (hstep : next k w l = some w₁) (h' : ((system k).startingAt w₁).Run tr' w') :
    given (sentTo k net e) (tr' ++ (w, l) :: tr) = given (receivedAt k e) tr := by
  obtain ⟨hempty, hended⟩ := ended_of_reportsEnd hk hend hwhole hdeaf
  have hkept := (stream_kept hk h hok e).2 hwhole
  rw [hempty, List.append_nil] at hkept
  obtain ⟨hnow, hended₁⟩ := ended_of_next hk hstep hended
  have hlater : given (sentTo k net e) tr' = [] := by
    refine (h'.given_eq_nil (I := fun w => k.ended w.os (net.peer e)) ?_ ?_).1
    · rintro s rfl
      exact hended₁
    · intro s l t hs hst
      exact ended_of_next hk hst hs
  rw [given_append, hlater, given_cons, hnow, List.append_nil, List.append_nil, hkept]

/-- The first process ends its stream, and the second one receives the rest. -/
def untilEnd : List (Label Happening) :=
  threeOfFour ++ [.happens (.shutdown (1, 3)),
    .call 2 (.recv 3 (some fun _ => ⟨8, 64⟩) 1 (some 0) none) true]

/-- The second process receives nothing, and the first one cannot send. -/
def atEnd : Label Happening := .call 2 (.recv 3 (some fun _ => ⟨8, 64⟩) 1 (some 0) none) true

def afterEnd : Label Happening := .call 1 (.send 3 (some fun _ => ⟨2, 16⟩) 1 (some 0) 0) true

theorem end_is_final_untilEnd :
    let k := Pipe.connections .pair
    let ran := (exec (next k) untilEnd [] Pipe.start).get rfl
    let w₁ := (next k ran.2 atEnd).get rfl
    given (sentTo k .pair (2, 3)) ((w₁, afterEnd) :: (ran.2, atEnd) :: ran.1) = [16, 17, 32] := by
  intro k ran w₁
  have hok : AllSteps (fun _ _ l => Accountable l) ran.1 :=
    ⟨⟨rfl, Option.some_ne_none 0, fun _ => List.pairwise_singleton _ _⟩, True.intro,
      ⟨rfl, Option.some_ne_none 0, fun _ => List.pairwise_singleton _ _⟩,
      ⟨rfl, Option.some_ne_none 0, fun _ => apart_of_unnamed _⟩, True.intro,
      ⟨rfl, Option.some_ne_none 0, fun h => (by cases h)⟩, True.intro, True.intro⟩
  have hend : ReportsEnd k (2, 3) ran.2 atEnd :=
    ⟨rfl, rfl, rfl, by decide, Option.some_ne_none 0, by decide +kernel, by decide +kernel⟩
  have hwhole : ¬ k.broken ran.2.os (2, 3) := (by decide : ¬ (false = true))
  have hafter : ((system k).startingAt w₁).Run [(w₁, afterEnd)]
      ((next k w₁ afterEnd).get rfl) := .step (.init rfl) (Option.some_get _).symm
  have hreceived : given (receivedAt k (2, 3)) ran.1 = [16, 17, 32] := by decide +kernel
  exact (end_is_final (Pipe.documented .pair) (run_pair untilEnd rfl) hok hend hwhole not_false
    (Option.some_get _).symm hafter).trans hreceived

end LinuxWinsock.Msg
