import LinuxWinsock.Api

namespace LinuxWinsock

/-!
# Error numbers of the kernel

`errno_to_wsa_error`, which `winsock2.c` and `wsa_extended.c` both define, over the error numbers
of Linux.

* `errnoToWsaError_ne_zero` — no error number is translated to "no error".
-/

/-! ### Error numbers -/

def EINTR : Int := 4
def EBADF : Int := 9
def EACCES : Int := 13
def EFAULT : Int := 14
def EINVAL : Int := 22
def EMFILE : Int := 24
def EWOULDBLOCK : Int := 11
def EINPROGRESS : Int := 115
def EALREADY : Int := 114
def ENOTSOCK : Int := 88
def EDESTADDRREQ : Int := 89
def EMSGSIZE : Int := 90
def EPROTOTYPE : Int := 91
def ENOPROTOOPT : Int := 92
def EPROTONOSUPPORT : Int := 93
def ESOCKTNOSUPPORT : Int := 94
def EOPNOTSUPP : Int := 95
def EPFNOSUPPORT : Int := 96
def EAFNOSUPPORT : Int := 97
def EADDRINUSE : Int := 98
def EADDRNOTAVAIL : Int := 99
def ENETDOWN : Int := 100
def ENETUNREACH : Int := 101
def ENETRESET : Int := 102
def ECONNABORTED : Int := 103
def ECONNRESET : Int := 104
def ENOBUFS : Int := 105
def EISCONN : Int := 106
def ENOTCONN : Int := 107
def ESHUTDOWN : Int := 108
def ETOOMANYREFS : Int := 109
def ETIMEDOUT : Int := 110
def ECONNREFUSED : Int := 111
def ELOOP : Int := 40
def ENAMETOOLONG : Int := 36
def EHOSTDOWN : Int := 112
def EHOSTUNREACH : Int := 113
def ENOTEMPTY : Int := 39
def EUSERS : Int := 87
def EDQUOT : Int := 122
def ESTALE : Int := 116
def EREMOTE : Int := 66

/-! ### The translation -/

/-- The cases of the switch. -/
def errnoCases : List (Int × Int) :=
  [(0, 0), (EINTR, WSAEINTR), (EBADF, WSAEBADF), (EACCES, WSAEACCES), (EFAULT, WSAEFAULT),
    (EINVAL, WSAEINVAL), (EMFILE, WSAEMFILE), (EWOULDBLOCK, WSAEWOULDBLOCK),
    (EINPROGRESS, WSAEINPROGRESS), (EALREADY, WSAEALREADY), (ENOTSOCK, WSAENOTSOCK),
    (EDESTADDRREQ, WSAEDESTADDRREQ), (EMSGSIZE, WSAEMSGSIZE), (EPROTOTYPE, WSAEPROTOTYPE),
    (ENOPROTOOPT, WSAENOPROTOOPT), (EPROTONOSUPPORT, WSAEPROTONOSUPPORT),
    (ESOCKTNOSUPPORT, WSAESOCKTNOSUPPORT), (EOPNOTSUPP, WSAEOPNOTSUPP),
    (EPFNOSUPPORT, WSAEPFNOSUPPORT), (EAFNOSUPPORT, WSAEAFNOSUPPORT), (EADDRINUSE, WSAEADDRINUSE),
    (EADDRNOTAVAIL, WSAEADDRNOTAVAIL), (ENETDOWN, WSAENETDOWN), (ENETUNREACH, WSAENETUNREACH),
    (ENETRESET, WSAENETRESET), (ECONNABORTED, WSAECONNABORTED), (ECONNRESET, WSAECONNRESET),
    (ENOBUFS, WSAENOBUFS), (EISCONN, WSAEISCONN), (ENOTCONN, WSAENOTCONN),
    (ESHUTDOWN, WSAESHUTDOWN), (ETOOMANYREFS, WSAETOOMANYREFS), (ETIMEDOUT, WSAETIMEDOUT),
    (ECONNREFUSED, WSAECONNREFUSED), (ELOOP, WSAELOOP), (ENAMETOOLONG, WSAENAMETOOLONG),
    (EHOSTDOWN, WSAEHOSTDOWN), (EHOSTUNREACH, WSAEHOSTUNREACH), (ENOTEMPTY, WSAENOTEMPTY),
    (EUSERS, WSAEUSERS), (EDQUOT, WSAEDQUOT), (ESTALE, WSAESTALE), (EREMOTE, WSAEREMOTE)]

/-- `errno_to_wsa_error`; an error number without a case of its own is added to `WSABASEERR`. -/
def errnoToWsaError (err : Int) : Int := (errnoCases.lookup err).getD (WSABASEERR + err)

/-- **An error is an error**: no error number is translated to 0. -/
theorem errnoToWsaError_ne_zero {err : Int} (h : 0 < err) : errnoToWsaError err ≠ 0 := by
  unfold errnoToWsaError
  cases hcase : errnoCases.lookup err with
  | none =>
    show WSABASEERR + err ≠ 0
    have hbase : WSABASEERR = 10000 := rfl
    omega
  | some code =>
    have hall : ∀ c ∈ errnoCases, c.1 ≠ 0 → c.2 ≠ 0 := by decide
    obtain ⟨before, after, hcases, -⟩ := List.lookup_eq_some_iff.mp hcase
    have hmem : (err, code) ∈ errnoCases := by
      rw [hcases]
      exact List.mem_append_right before List.mem_cons_self
    exact hall (err, code) hmem (by omega)

end LinuxWinsock
