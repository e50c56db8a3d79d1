import LinuxWinsock.Errno.Confused
import LinuxWinsock.Events.Mapping

namespace LinuxWinsock

open Kernel LinkedList TransitionSystem

/-!
# What a report of `WSAEnumNetworkEvents` may say

A report should name only events that the socket is registered for, and give its errors as Winsock
codes.  The function looks at neither the mask of the mapping nor `errno_to_wsa_error`.

* `SoundReport` — what a report may say;
* `errnoToWsaError_ne_self` — an error number is never its own code;
* `registered_reportError`, `translated_reportError` — when the two parts are met;
* `sound_iff_allSteps` — the reports of a run are sound exactly if none is asked for while an error
  is pending.
-/

variable {w w' : World} {l : Label} {tr : Trace} {s : SOCKET}

/-! ### Sound reports -/

/-- All that the report names is registered for the socket, and each error that it has is the code
    of the pending one, with its event named. -/
structure SoundReport (w : World) (s : SOCKET) (out : WSANETWORKEVENTS) : Prop where
  registered : ∃ r, Registered w s r ∧
    ∀ i, out.lNetworkEvents.getLsbD i = true → r.2.getLsbD i = true
  translated : ∀ i, out.iErrorCode i ≠ 0 →
    ∃ ready err, w.kernel.socketAt s = some (ready, err) ∧ out.iErrorCode i = errnoToWsaError err
  named : ∀ i, out.iErrorCode i ≠ 0 → out.lNetworkEvents.getLsbD i.val = true

/-- If the latest step was a call of `WSAEnumNetworkEvents` that returned 0, its report is sound. -/
def Sound : Trace → Prop
  | (w, .enumNetworkEvents s h hasOut) :: _ =>
    ∀ r, wsaEnumNetworkEvents w s h hasOut = some r → r.1.ret = 0 → SoundReport w s r.2
  | _ => True

/-- If the step asks for the report of a socket that has a mapping, no error is pending. -/
def NoErrorPending (_ : Trace) (w : World) : Label → Prop
  | .enumNetworkEvents s _ hasOut =>
    hasOut = true → (∃ r, Registered w s r) → ¬ errorPending w.kernel s
  | _ => True

/-! ### One report -/

/-- **Numbers and codes.**  An error number is never its own code. -/
theorem errnoToWsaError_ne_self {err : Int} (h : err ≠ 0) : errnoToWsaError err ≠ err := by
  have hcases : ∀ c ∈ errnoCases, c.1 ≠ 0 → c.2 ≠ c.1 := by decide
  rw [Ne, errnoToWsaError_eq_iff]
  rintro (hlisted | ⟨-, hbase⟩)
  · exact hcases _ hlisted h rfl
  · have hpos : WSABASEERR = 10000 := rfl
    omega

/-- **The report**: the pending error as it is, under `FD_CONNECT`, or nothing. -/
theorem reportError_eq (k : Kernel) (s : SOCKET) :
    (∃ ready err, k.socketAt s = some (ready, err) ∧ err ≠ 0 ∧ (reportError k s).1 =
      ⟨FD_CONNECT, fun i => if i.val = FD_CONNECT_BIT then err else 0⟩) ∨
    (¬ errorPending k s ∧ (reportError k s).1 = WSANETWORKEVENTS.zero) := by
  unfold reportError errorPending socketAt takeError
  cases hf : k.file s with
  | none => exact .inr ⟨by simp, rfl⟩
  | some o =>
    obtain ⟨id, nb, kind⟩ := o
    cases kind with
    | epoll I => exact .inr ⟨by simp [OpenFile.socketState], rfl⟩
    | eventfd c => exact .inr ⟨by simp [OpenFile.socketState], rfl⟩
    | socket ready err =>
      by_cases herr : err = 0
      · exact .inr ⟨by simp [OpenFile.socketState, herr], by simp [herr]⟩
      · exact .inl ⟨ready, err, rfl, herr, by simp [herr, WSANETWORKEVENTS.zero]⟩

/-- `FD_CONNECT` is one bit. -/
theorem getLsbD_FD_CONNECT {i : Nat} : FD_CONNECT.getLsbD i = true ↔ i = FD_CONNECT_BIT := by
  constructor
  · intro h
    have hlt : i < 64 := BitVec.lt_of_getLsbD h
    have hall : ∀ j < 64, FD_CONNECT.getLsbD j = true → j = FD_CONNECT_BIT := by decide
    exact hall i hlt h
  · rintro rfl
    rfl

/-- Only registered events are named exactly if `FD_CONNECT` is one of them, or no error is
    pending. -/
theorem registered_reportError (k : Kernel) (s : SOCKET) (mask : BitVec 64) :
    (∀ i, (reportError k s).1.lNetworkEvents.getLsbD i = true → mask.getLsbD i = true) ↔
      ¬ errorPending k s ∨ mask.getLsbD FD_CONNECT_BIT = true := by
  rcases reportError_eq k s with ⟨ready, err, hsocket, herr, hrep⟩ | ⟨hnone, hrep⟩
  · have hpending : errorPending k s := ⟨ready, err, hsocket, herr⟩
    rw [hrep]
    simp only [getLsbD_FD_CONNECT, forall_eq, hpending, not_true_eq_false, false_or]
  · rw [hrep]
    simp [hnone, WSANETWORKEVENTS.zero]

/-- The errors are translated exactly if there is none. -/
theorem translated_reportError (k : Kernel) (s : SOCKET) :
    (∀ i, (reportError k s).1.iErrorCode i ≠ 0 → ∃ ready err, k.socketAt s = some (ready, err) ∧
      (reportError k s).1.iErrorCode i = errnoToWsaError err) ↔ ¬ errorPending k s := by
  rcases reportError_eq k s with ⟨ready, err, hsocket, herr, hrep⟩ | ⟨hnone, hrep⟩
  · refine iff_of_false (fun hall => ?_) (not_not_intro ⟨ready, err, hsocket, herr⟩)
    -- the error number itself is reported
    have hcode : (reportError k s).1.iErrorCode ⟨FD_CONNECT_BIT, by decide⟩ = err := by
      rw [hrep]
      rfl
    obtain ⟨ready', err', hsocket', heq⟩ := hall ⟨FD_CONNECT_BIT, by decide⟩ (by rwa [hcode])
    rw [hsocket] at hsocket'
    obtain ⟨-, rfl⟩ := Prod.mk.inj (Option.some.inj hsocket')
    exact errnoToWsaError_ne_self herr (heq.symm.trans hcode)
  · refine iff_of_true (fun i hi => ?_) hnone
    rw [hrep] at hi
    exact absurd rfl hi

/-- The event of each error is named. -/
theorem named_reportError (k : Kernel) (s : SOCKET) (i : Fin FD_MAX_EVENTS)
    (h : (reportError k s).1.iErrorCode i ≠ 0) :
    (reportError k s).1.lNetworkEvents.getLsbD i.val = true := by
  rcases reportError_eq k s with ⟨ready, err, -, -, hrep⟩ | ⟨-, hrep⟩
  · rw [hrep] at h ⊢
    by_cases hi : i.val = FD_CONNECT_BIT
    · exact getLsbD_FD_CONNECT.mpr hi
    · exact absurd (if_neg hi) h
  · rw [hrep] at h
    exact absurd rfl h

/-- A report is sound exactly if no error is pending. -/
theorem soundReport_reportError {r : WSAEVENT × BitVec 64} (hr : Registered w s r) :
    SoundReport w s (reportError w.kernel s).1 ↔ ¬ errorPending w.kernel s := by
  constructor
  · intro hsound
    exact (translated_reportError w.kernel s).mp hsound.translated
  · intro hnone
    constructor
    · exact ⟨r, hr, (registered_reportError w.kernel s r.2).mpr (.inl hnone)⟩
    · exact (translated_reportError w.kernel s).mpr hnone
    · exact named_reportError w.kernel s

/-! ### Every run -/

/-- One step: its report is sound exactly under the condition. -/
theorem sound_step (hi : Inv w) (hn : next w l = some w') :
    Sound ((w, l) :: tr) ↔ NoErrorPending tr w l := by
  cases l with
  | enumNetworkEvents s h hasOut =>
    obtain ⟨r, hr, _⟩ := Option.map_eq_some_iff.mp hn
    have hmapped : (∃ r, Registered w s r) ↔ ∃ p m, w.maps.cell p = some m ∧ m.sock = s := by
      simp [Registered]
    show _ ↔ (hasOut = true → (∃ r, Registered w s r) → ¬ errorPending w.kernel s)
    rw [hmapped]
    exact enumReport_iff hi hr
      (fun p m hm hms => soundReport_reportError ⟨p, m, hm, hms, rfl⟩)
  | _ => exact Iff.rfl

/-- **Sound reports.**  Throughout a run, each report of a call of `WSAEnumNetworkEvents` that
    returns 0 is sound, exactly if no such call is made for a socket with a pending error. -/
theorem sound_iff_allSteps (h : system.Run tr w) :
    Always (fun tr _ => Sound tr) tr w ↔ AllSteps NoErrorPending tr := by
  refine h.always_iff_allSteps (fun _ _ => trivial) ?_ (AllSteps.trivial tr)
  intro tr s l t hrun _ _ hstep
  exact sound_step (inv_of_run hrun) hstep

/-- A socket becomes readable, and a report is asked for. -/
theorem sound_without_error : ∃ tr w, system.Run tr w ∧ Always (fun tr _ => Sound tr) tr w ∧
    ∃ w₀ tr₀, tr = (w₀, .enumNetworkEvents 5 (some 200) true) :: tr₀ ∧
      Registered w₀ 5 (some 200, FD_READ) := by
  have hrun := run_of_exec_isSome World.start next
    [.createEvent ⟨some 3, some 200⟩, .socket 5 false,
      .eventSelect ⟨some 100, some 6, true, true⟩ 5 (some 200) FD_READ,
      .network 5 EPOLLIN 0, .enumNetworkEvents 5 (some 200) true] rfl
  refine ⟨_, _, hrun, (sound_iff_allSteps hrun).mpr ?_, _, _, rfl, 100, _, rfl, rfl, rfl⟩
  refine ⟨?_, trivial, trivial, trivial, trivial, trivial⟩
  rintro - - ⟨ready, err, hsocket, herr⟩
  obtain ⟨-, rfl⟩ := Prod.mk.inj (Option.some.inj hsocket)
  exact herr rfl

/-- `ECONNREFUSED` is reported as it is, and for a socket that is registered for `FD_READ` only. -/
theorem unsound_report : ∃ tr w, system.Run tr w ∧ ¬ Sound tr := by
  have hrun := run_of_exec_isSome World.start next
    [.createEvent ⟨some 3, some 200⟩, .socket 5 false,
      .eventSelect ⟨some 100, some 6, true, true⟩ 5 (some 200) FD_READ,
      .network 5 EPOLLERR 111, .enumNetworkEvents 5 (some 200) true] rfl
  refine ⟨_, _, hrun, fun hsound => ?_⟩
  obtain ⟨ready, err, hsocket, hcode⟩ := (hsound _ rfl rfl).translated ⟨4, by decide⟩ (by decide)
  obtain ⟨-, rfl⟩ := Prod.mk.inj (Option.some.inj hsocket)
  exact absurd hcode (by decide)

end LinuxWinsock
