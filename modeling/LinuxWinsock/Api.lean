import Mathlib.Data.BitVec

namespace LinuxWinsock

/-!
# The API's types and constants

The scalar types of `windows_types.h` and the constants of `winsock2_api.h` that the
modelled functions use, with the `epoll` bits of the kernel interface they are translated
to.  Flag words keep their width (`long` is 64 bits under LP64).
-/

/-- A file descriptor of the process. -/
abbrev Fd := Int

/-- `typedef int SOCKET` -/
abbrev SOCKET := Int

def SOCKET_ERROR : Int := -1

/-! ### Error codes -/

def WSABASEERR : Int := 10000
def WSAEINTR : Int := WSABASEERR + 4
def WSAEBADF : Int := WSABASEERR + 9
def WSAEACCES : Int := WSABASEERR + 13
def WSAEFAULT : Int := WSABASEERR + 14
def WSAEINVAL : Int := WSABASEERR + 22
def WSAEMFILE : Int := WSABASEERR + 24
def WSAEWOULDBLOCK : Int := WSABASEERR + 35
def WSAEINPROGRESS : Int := WSABASEERR + 36
def WSAEALREADY : Int := WSABASEERR + 37
def WSAENOTSOCK : Int := WSABASEERR + 38
def WSAEDESTADDRREQ : Int := WSABASEERR + 39
def WSAEMSGSIZE : Int := WSABASEERR + 40
def WSAEPROTOTYPE : Int := WSABASEERR + 41
def WSAENOPROTOOPT : Int := WSABASEERR + 42
def WSAEPROTONOSUPPORT : Int := WSABASEERR + 43
def WSAESOCKTNOSUPPORT : Int := WSABASEERR + 44
def WSAEOPNOTSUPP : Int := WSABASEERR + 45
def WSAEPFNOSUPPORT : Int := WSABASEERR + 46
def WSAEAFNOSUPPORT : Int := WSABASEERR + 47
def WSAEADDRINUSE : Int := WSABASEERR + 48
def WSAEADDRNOTAVAIL : Int := WSABASEERR + 49
def WSAENETDOWN : Int := WSABASEERR + 50
def WSAENETUNREACH : Int := WSABASEERR + 51
def WSAENETRESET : Int := WSABASEERR + 52
def WSAECONNABORTED : Int := WSABASEERR + 53
def WSAECONNRESET : Int := WSABASEERR + 54
def WSAENOBUFS : Int := WSABASEERR + 55
def WSAEISCONN : Int := WSABASEERR + 56
def WSAENOTCONN : Int := WSABASEERR + 57
def WSAESHUTDOWN : Int := WSABASEERR + 58
def WSAETOOMANYREFS : Int := WSABASEERR + 59
def WSAETIMEDOUT : Int := WSABASEERR + 60
def WSAECONNREFUSED : Int := WSABASEERR + 61
def WSAELOOP : Int := WSABASEERR + 62
def WSAENAMETOOLONG : Int := WSABASEERR + 63
def WSAEHOSTDOWN : Int := WSABASEERR + 64
def WSAEHOSTUNREACH : Int := WSABASEERR + 65
def WSAENOTEMPTY : Int := WSABASEERR + 66
def WSAEUSERS : Int := WSABASEERR + 68
def WSAEDQUOT : Int := WSABASEERR + 69
def WSAESTALE : Int := WSABASEERR + 70
def WSAEREMOTE : Int := WSABASEERR + 71
def WSAVERNOTSUPPORTED : Int := WSABASEERR + 92
def WSANOTINITIALISED : Int := WSABASEERR + 93
def WSAHOST_NOT_FOUND : Int := WSABASEERR + 1001

def WSA_NOT_ENOUGH_MEMORY : Int := 8
def WSA_INVALID_HANDLE : Int := 6
def WSA_INVALID_PARAMETER : Int := 87
def WSA_IO_PENDING : Int := 997

/-! ### Network events and their `epoll` conditions -/

def FD_READ : BitVec 64 := 0x01
def FD_WRITE : BitVec 64 := 0x02
def FD_OOB : BitVec 64 := 0x04
def FD_ACCEPT : BitVec 64 := 0x08
def FD_CONNECT : BitVec 64 := 0x10
def FD_CLOSE : BitVec 64 := 0x20
def FD_MAX_EVENTS : Nat := 10
def FD_CONNECT_BIT : Nat := 4

def EPOLLIN : BitVec 32 := 0x001
def EPOLLPRI : BitVec 32 := 0x002
def EPOLLOUT : BitVec 32 := 0x004
def EPOLLERR : BitVec 32 := 0x008
def EPOLLHUP : BitVec 32 := 0x010
def EPOLLRDHUP : BitVec 32 := 0x2000

/-! ### Waiting for events -/

def WSA_MAXIMUM_WAIT_EVENTS : Nat := 64
def WSA_INFINITE : BitVec 32 := 0xFFFFFFFF
def WSA_WAIT_EVENT_0 : BitVec 32 := 0
def WSA_WAIT_FAILED : BitVec 32 := 0xFFFFFFFF
def WSA_WAIT_TIMEOUT : BitVec 32 := 0x00000102

/-- The flag of `DisconnectEx` that keeps the descriptor open. -/
def TF_REUSE_SOCKET : BitVec 32 := 0x02

end LinuxWinsock
