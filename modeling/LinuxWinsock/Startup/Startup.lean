import LinuxWinsock.Api
import LinuxWinsock.Lib.Layout

namespace LinuxWinsock.Startup

open Layout Memory

/-!
# `WSAStartup` and `WSACleanup`

The two functions of `winsock2.c` between the lock and the unlock of `g_wsa_init_mutex`, and
the two definitions of `WSADATA`: the one of `winsock2_api.h`, which the library is compiled
with, and the one of `winsock.h`, which clients of Winsock 1.1 are compiled with.
-/

/-! ### `WSADATA` -/

/-- The members of `WSADATA`. -/
inductive Field where
  | wVersion
  | wHighVersion
  | szDescription
  | szSystemStatus
  | iMaxSockets
  | iMaxUdpDg
  | lpVendorInfo
  deriving DecidableEq

/-- A member of type `WORD` or `unsigned short`. -/
def wordMember (f : Field) : Member Field := ⟨f, 2, 2, by decide⟩

/-- A member of type `char*`. -/
def pointerMember (f : Field) : Member Field := ⟨f, 8, 8, by decide⟩

/-- A member of type `char[n]`. -/
def arrayMember (f : Field) (n : Nat) : Member Field := ⟨f, n, 1, by decide⟩

def WSADESCRIPTION_LEN : Nat := 256
def WSASYS_STATUS_LEN : Nat := 128

/-- `WSADATA` of `winsock2_api.h`. -/
def winsock2Members : List (Member Field) :=
  [wordMember .wVersion, wordMember .wHighVersion, wordMember .iMaxSockets,
    wordMember .iMaxUdpDg, pointerMember .lpVendorInfo, arrayMember .szDescription 257,
    arrayMember .szSystemStatus 129]

/-- `WSADATA` of `winsock.h`. -/
def winsock1Members : List (Member Field) :=
  [wordMember .wVersion, wordMember .wHighVersion,
    arrayMember .szDescription (WSADESCRIPTION_LEN + 1),
    arrayMember .szSystemStatus (WSASYS_STATUS_LEN + 1), wordMember .iMaxSockets,
    wordMember .iMaxUdpDg, pointerMember .lpVendorInfo]

/-- A value of `WSADATA`, which has the same members in both headers. -/
structure WSADATA where
  wVersion : BitVec 16
  wHighVersion : BitVec 16
  iMaxSockets : BitVec 16
  iMaxUdpDg : BitVec 16
  lpVendorInfo : BitVec 64
  szDescription : Fin 257 → Byte
  szSystemStatus : Fin 129 → Byte

/-- The bytes of a member. -/
def WSADATA.bytes (d : WSADATA) : Field → List Byte
  | .wVersion => bytes16 d.wVersion
  | .wHighVersion => bytes16 d.wHighVersion
  | .szDescription => List.ofFn d.szDescription
  | .szSystemStatus => List.ofFn d.szSystemStatus
  | .iMaxSockets => bytes16 d.iMaxSockets
  | .iMaxUdpDg => bytes16 d.iMaxUdpDg
  | .lpVendorInfo => bytes64 d.lpVendorInfo

/-! ### The bodies of the functions -/

def MAKEWORD (a b : BitVec 8) : BitVec 16 := b ++ a
def LOBYTE (w : BitVec 16) : BitVec 8 := w.setWidth 8
def HIBYTE (w : BitVec 16) : BitVec 8 := (w >>> 8).setWidth 8

/-- `strncpy(dst, s, n)` into a cleared array, for an `n` the string does not reach. -/
def strncpyCleared {k : Nat} (s : List Byte) : Fin k → Byte := fun i => s.getD i 0

/-- "Linux Winsock2 Wrapper" -/
def description : List Byte :=
  [76, 105, 110, 117, 120, 32, 87, 105, 110, 115, 111, 99, 107, 50, 32, 87, 114, 97, 112, 112,
    101, 114]

/-- "Running" -/
def systemStatus : List Byte := [82, 117, 110, 110, 105, 110, 103]

/-- What `WSAStartup` assigns to the members. -/
def startupData (wVersionRequested : BitVec 16) : WSADATA where
  wVersion := wVersionRequested
  wHighVersion := MAKEWORD 2 2
  iMaxSockets := 0
  iMaxUdpDg := 0
  lpVendorInfo := 0
  szDescription := strncpyCleared description
  szSystemStatus := strncpyCleared systemStatus

/-- The memory after `memset(lpWSAData, 0, sizeof(WSADATA))` and the assignments. -/
def fillWSADATA (wVersionRequested : BitVec 16) (lpWSAData : Nat) (mem : Memory) : Memory :=
  store (startupData wVersionRequested).bytes lpWSAData (place winsock2Members)
    (mem.storeBytes lpWSAData (List.replicate (sizeof winsock2Members) 0))

/-- The versions that are refused. -/
def versionRefused (wVersionRequested : BitVec 16) : Bool :=
  decide (LOBYTE wVersionRequested < 1) ||
    (decide (LOBYTE wVersionRequested = 1) && decide (HIBYTE wVersionRequested < 1))

/-- A way out of a function: what it returns, and whether `pthread_mutex_unlock` stands in
    front of the `return`. -/
structure Exit where
  ret : Int
  unlocks : Bool

/-- `WSAStartup` behind the lock. -/
def startupBody (wVersionRequested : BitVec 16) (lpWSAData : Option Nat) (count : BitVec 32)
    (mem : Memory) : Exit × BitVec 32 × Memory :=
  match lpWSAData with
  | none => (⟨WSAEFAULT, true⟩, count, mem)
  | some p =>
    -- the data is filled in before the version is looked at
    let filled := fillWSADATA wVersionRequested p mem
    if versionRefused wVersionRequested then (⟨WSAVERNOTSUPPORTED, true⟩, count, filled)
    else (⟨0, true⟩, count + 1, filled)

/-- `WSACleanup` behind the lock. -/
def cleanupBody (count : BitVec 32) : Exit × BitVec 32 :=
  if count = 0 then (⟨WSANOTINITIALISED, true⟩, count) else (⟨0, true⟩, count - 1)

end LinuxWinsock.Startup
