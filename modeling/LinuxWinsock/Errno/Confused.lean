import LinuxWinsock.Errno
import LinuxWinsock.Lib.Switch

namespace LinuxWinsock

/-!
# Error numbers that come out alike

Both copies of `errno_to_wsa_error` have a case for some error numbers, with codes in the order of
BSD's numbers, and add all others, in the order of Linux, to the same base.

* `WsaExtended.errnoToWsaError` — the copy in `wsa_extended.c`;
* `errnoToWsaError_eq_iff` — which error numbers come out as a given code;
* `errno_told_apart_iff` — two error numbers are told apart exactly if the one is not the offset of
  the code of the other.
-/

/-! ### The second copy -/

namespace WsaExtended

/-- The cases of the switch in `wsa_extended.c`. -/
def errnoCases : List (Int × Int) :=
  [(0, 0), (EINTR, WSAEINTR), (EBADF, WSAEBADF), (EACCES, WSAEACCES), (EFAULT, WSAEFAULT),
    (EINVAL, WSAEINVAL), (EMFILE, WSAEMFILE), (EWOULDBLOCK, WSAEWOULDBLOCK),
    (EINPROGRESS, WSAEINPROGRESS), (EALREADY, WSAEALREADY), (ENOTSOCK, WSAENOTSOCK),
    (EDESTADDRREQ, WSAEDESTADDRREQ), (EMSGSIZE, WSAEMSGSIZE), (EPROTOTYPE, WSAEPROTOTYPE),
    (ENOPROTOOPT, WSAENOPROTOOPT), (EPROTONOSUPPORT, WSAEPROTONOSUPPORT),
    (ESOCKTNOSUPPORT, WSAESOCKTNOSUPPORT), (EOPNOTSUPP, WSAEOPNOTSUPP),
    (EPFNOSUPPORT, WSAEPFNOSUPPORT), (EAFNOSUPPORT, WSAEAFNOSUPPORT), (EADDRINUSE, WSAEADDRINUSE),
    (EADDRNOTAVAIL, WSAEADDRNOTAVAIL), (ENETDOWN, WSAENETDOWN), (ENETUNREACH, WSAENETUNREACH),
    (ENETRESET, WSAENETRESET), (ECONNABORTED, WSAECONNABORTED), (ECONNRESET, WSAECONNRESET),
    (ENOBUFS, WSAENOBUFS), (EISCONN, WSAEISCONN), (ENOTCONN, WSAENOTCONN),
    (ESHUTDOWN, WSAESHUTDOWN), (ETOOMANYREFS, WSAETOOMANYREFS), (ETIMEDOUT, WSAETIMEDOUT),
    (ECONNREFUSED, WSAECONNREFUSED), (ELOOP, WSAELOOP), (ENAMETOOLONG, WSAENAMETOOLONG),
    (EHOSTDOWN, WSAEHOSTDOWN), (EHOSTUNREACH, WSAEHOSTUNREACH), (ENOTEMPTY, WSAENOTEMPTY),
    (EUSERS, WSAEUSERS), (EDQUOT, WSAEDQUOT), (ESTALE, WSAESTALE), (EREMOTE, WSAEREMOTE)]

/-- `errno_to_wsa_error` of `wsa_extended.c`. -/
def errnoToWsaError (err : Int) : Int := (errnoCases.lookup err).getD (WSABASEERR + err)

/-- The two copies are the same function. -/
theorem errnoToWsaError_eq (err : Int) :
    errnoToWsaError err = LinuxWinsock.errnoToWsaError err := rfl

end WsaExtended

/-! ### The translation as a switch -/

/-- An error number without a case of its own. -/
def unlisted (err : Int) : Int := WSABASEERR + err

theorem unlisted_injective : Function.Injective unlisted := by
  intro a b h
  unfold unlisted at h
  omega

theorem errnoToWsaError_eq_apply (err : Int) :
    errnoToWsaError err = Switch.apply errnoCases unlisted err := rfl

theorem errnoCases_keys : (errnoCases.map Prod.fst).Nodup := by decide

theorem errnoCases_values : (errnoCases.map Prod.snd).Nodup := by decide

/-- **Codes.**  An error number comes out as `code` by its case, or as the offset of `code` if it
    has none. -/
theorem errnoToWsaError_eq_iff {err code : Int} :
    errnoToWsaError err = code ↔
      (err, code) ∈ errnoCases ∨ (¬ Switch.Listed errnoCases err ∧ WSABASEERR + err = code) :=
  Switch.apply_eq_iff errnoCases_keys

/-! ### Error numbers that are confused -/

/-- The error numbers without a case, each with the one whose code it comes out as. -/
def confused : List (Int × Int) :=
  [(35, EWOULDBLOCK), (37, EALREADY), (38, ENOTSOCK), (41, EPROTOTYPE), (42, ENOPROTOOPT),
    (43, EPROTONOSUPPORT), (44, ESOCKTNOSUPPORT), (45, EOPNOTSUPP), (46, EPFNOSUPPORT),
    (47, EAFNOSUPPORT), (48, EADDRINUSE), (49, EADDRNOTAVAIL), (50, ENETDOWN), (51, ENETUNREACH),
    (52, ENETRESET), (53, ECONNABORTED), (54, ECONNRESET), (55, ENOBUFS), (56, EISCONN),
    (57, ENOTCONN), (58, ESHUTDOWN), (59, ETOOMANYREFS), (60, ETIMEDOUT), (61, ECONNREFUSED),
    (62, ELOOP), (63, ENAMETOOLONG), (64, EHOSTDOWN), (65, EHOSTUNREACH), (68, EUSERS),
    (69, EDQUOT), (70, ESTALE), (71, EREMOTE)]

/-- The two error numbers are listed as confused, in one order or the other. -/
def Confused (a b : Int) : Prop := (a, b) ∈ confused ∨ (b, a) ∈ confused

instance (a b : Int) : Decidable (Confused a b) :=
  inferInstanceAs (Decidable ((a, b) ∈ confused ∨ (b, a) ∈ confused))

/-- The list has all clashes of the switch. -/
theorem clash_iff_confused {a b : Int} (ha : 0 ≤ a) :
    Switch.Clash errnoCases unlisted a b ↔ (a, b) ∈ confused := by
  have hlisted : ∀ p ∈ confused,
      p.1 ∉ errnoCases.map Prod.fst ∧ (p.2, unlisted p.1) ∈ errnoCases := by decide
  have hall : ∀ c ∈ errnoCases, 0 ≤ c.2 - WSABASEERR →
      c.2 - WSABASEERR ∉ errnoCases.map Prod.fst → (c.2 - WSABASEERR, c.1) ∈ confused := by decide
  constructor
  · rintro ⟨hnot, hmem⟩
    have hoffset : unlisted a - WSABASEERR = a := by
      unfold unlisted
      omega
    have hconfused := hall _ hmem
    rw [hoffset] at hconfused
    exact hconfused ha (fun h => hnot (Switch.listed_iff_mem_map.mpr h))
  · intro h
    obtain ⟨hnot, hmem⟩ := hlisted _ h
    exact ⟨fun h => hnot (Switch.listed_iff_mem_map.mp h), hmem⟩

/-- Two error numbers come out alike exactly if they are confused. -/
theorem errnoToWsaError_eq_errnoToWsaError_iff {a b : Int} (ha : 0 ≤ a) (hb : 0 ≤ b)
    (hab : a ≠ b) : errnoToWsaError a = errnoToWsaError b ↔ Confused a b := by
  rw [errnoToWsaError_eq_apply, errnoToWsaError_eq_apply,
    Switch.apply_eq_apply_iff errnoCases_keys errnoCases_values unlisted_injective hab,
    clash_iff_confused ha, clash_iff_confused hb]
  rfl

/-- **Error numbers told apart.**  The two copies agree on every number, and each tells two
    error numbers apart exactly if they are not confused. -/
theorem errno_told_apart_iff (err a b : Int) (ha : 0 ≤ a) (hb : 0 ≤ b) (hab : a ≠ b) :
    WsaExtended.errnoToWsaError err = errnoToWsaError err ∧
      (errnoToWsaError a ≠ errnoToWsaError b ↔ ¬ Confused a b) ∧
      (WsaExtended.errnoToWsaError a ≠ WsaExtended.errnoToWsaError b ↔ ¬ Confused a b) := by
  have hiff := not_congr (errnoToWsaError_eq_errnoToWsaError_iff ha hb hab)
  rw [WsaExtended.errnoToWsaError_eq, WsaExtended.errnoToWsaError_eq, WsaExtended.errnoToWsaError_eq]
  exact ⟨rfl, hiff, hiff⟩

/-- `ECONNRESET` and `ENOENT` are told apart. -/
theorem errno_told_apart_enoent : errnoToWsaError ECONNRESET ≠ errnoToWsaError 2 ∧
    WsaExtended.errnoToWsaError ECONNRESET ≠ WsaExtended.errnoToWsaError 2 := by
  obtain ⟨-, hfirst, hsecond⟩ :=
    errno_told_apart_iff 0 ECONNRESET 2 (by decide) (by decide) (by decide)
  exact ⟨hfirst.mpr (by decide), hsecond.mpr (by decide)⟩

/-- `EDEADLK` comes out as `WSAEWOULDBLOCK`. -/
theorem errno_confused : ¬ ∀ a b : Int, 0 ≤ a → 0 ≤ b → a < 2 ^ 31 - 10000 → b < 2 ^ 31 - 10000 →
    a ≠ b → errnoToWsaError a ≠ errnoToWsaError b := by
  intro h
  exact h 35 EWOULDBLOCK (by decide) (by decide) (by decide) (by decide) (by decide) rfl

end LinuxWinsock
