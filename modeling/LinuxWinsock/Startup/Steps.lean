import LinuxWinsock.Startup.Count
import LinuxWinsock.Startup.Data
import LinuxWinsock.Lib.Simulation

namespace LinuxWinsock.Startup

open Function TransitionSystem Layout Memory

/-!
# The two functions, one access at a time

Behind its lock each of the two functions makes several accesses: the stores to the record of the
caller, and the loads and the store of `g_wsa_init_count`.  Here each of them is a step of its own,
between which other threads take theirs.

* `startupStores`, `storeAll_startupStores` — the stores of `WSAStartup` in their order, and that
  they leave what `fillWSADATA` says;
* `stepNext`, `stepSystem` — the transition system;
* `steps_refine` — **atomicity**: every run looks like one in which each body is a single step;
* `no_update_lost` — so no increment and no decrement of the count is lost.
-/

/-! ### The stores of `WSAStartup` -/

/-- `strncpy(dst, s, n)`: the string, and zeros up to `n` bytes. -/
def strncpyBytes (s : List Byte) (n : Nat) : List Byte :=
  s.take n ++ List.replicate (n - s.length) 0

theorem length_strncpyBytes (s : List Byte) (n : Nat) : (strncpyBytes s n).length = n := by
  simp only [strncpyBytes, List.length_append, List.length_take, List.length_replicate]
  omega

/-- The stores through `lpWSAData`, in their order: where, and which bytes. -/
def startupStores (wVersionRequested : BitVec 16) (lpWSAData : Nat) : List (Nat × List Byte) :=
  [(lpWSAData, List.replicate (sizeof winsock2Members) 0),
    (lpWSAData + offsetof winsock2Members .wVersion, bytes16 wVersionRequested),
    (lpWSAData + offsetof winsock2Members .wHighVersion, bytes16 (MAKEWORD 2 2)),
    (lpWSAData + offsetof winsock2Members .iMaxSockets, bytes16 0),
    (lpWSAData + offsetof winsock2Members .iMaxUdpDg, bytes16 0),
    (lpWSAData + offsetof winsock2Members .szDescription, strncpyBytes description 256),
    (lpWSAData + offsetof winsock2Members .szSystemStatus, strncpyBytes systemStatus 128),
    (lpWSAData + offsetof winsock2Members .lpVendorInfo, bytes64 0)]

/-- The memory after some stores. -/
def storeAll (stores : List (Nat × List Byte)) (m : Memory) : Memory :=
  stores.foldl (fun m s => m.storeBytes s.1 s.2) m

/-- A member of type `char[]` is stored with one byte more than `strncpy` writes. -/
theorem description_bytes :
    List.ofFn (strncpyCleared description : Fin 257 → Byte) =
      strncpyBytes description 256 ++ [0] := by
  decide +kernel

theorem systemStatus_bytes :
    List.ofFn (strncpyCleared systemStatus : Fin 129 → Byte) =
      strncpyBytes systemStatus 128 ++ [0] := by
  decide +kernel

/-- A byte that is 0 already. -/
theorem storeBytes_zero {m : Memory} {o : Nat} (h : m o = 0) : m.storeBytes o [0] = m := by
  rw [storeBytes_eq_self_iff]
  show [m (o + 0)] = [0]
  rw [Nat.add_zero, h]

/-- A byte of the record that no later store reaches is the 0 of the `memset`. -/
theorem storeAll_cleared (m : Memory) (p : Nat) {i : Nat} (stores : List (Nat × List Byte))
    (hi : i < 408) (h : ∀ s ∈ stores, s.1 + s.2.length ≤ p + i) :
    storeAll stores (m.storeBytes p (List.replicate 408 0)) (p + i) = 0 := by
  have hkept : ∀ m' : Memory, storeAll stores m' (p + i) = m' (p + i) := by
    intro m'
    induction stores generalizing m' with
    | nil => rfl
    | cons s stores ih =>
      show storeAll stores (m'.storeBytes s.1 s.2) (p + i) = _
      rw [ih (fun t ht => h t (List.mem_cons_of_mem s ht))]
      exact storeBytes_of_le (h s List.mem_cons_self)
  have hlen : i < (List.replicate 408 (0 : Byte)).length := by
    rw [List.length_replicate]
    exact hi
  rw [hkept, storeBytes_add hlen, List.getElem_replicate]

/-- The four words that are stored behind the `memset`. -/
def startupWords (version : BitVec 16) (p : Nat) : List (Nat × List Byte) :=
  [(p + 0, bytes16 version), (p + 2, bytes16 (MAKEWORD 2 2)), (p + 4, bytes16 0),
    (p + 6, bytes16 0)]

/-- **The stores** leave the record as `fillWSADATA` says. -/
theorem storeAll_startupStores (version : BitVec 16) (p : Nat) (m : Memory) :
    storeAll (startupStores version p) m = fillWSADATA version p m := by
  have hD := length_strncpyBytes description 256
  have hS := length_strncpyBytes systemStatus 128
  have hV := length_bytes64 0
  generalize hcleared : m.storeBytes p (List.replicate 408 0) = cleared
  have hfill : fillWSADATA version p m =
      (((storeAll (startupWords version p) cleared).storeBytes (p + 8) (bytes64 0)).storeBytes
        (p + 16) (strncpyBytes description 256 ++ [0])).storeBytes (p + 273)
        (strncpyBytes systemStatus 128 ++ [0]) := by
    rw [← description_bytes, ← systemStatus_bytes, ← hcleared, ← sizeof_eq.1]
    rfl
  have hstores : storeAll (startupStores version p) m =
      (((storeAll (startupWords version p) cleared).storeBytes (p + 16)
        (strncpyBytes description 256)).storeBytes (p + 273)
        (strncpyBytes systemStatus 128)).storeBytes (p + 8) (bytes64 0) := by
    rw [← hcleared, ← sizeof_eq.1]
    rfl
  have hwords : ∀ s ∈ startupWords version p, s.1 + s.2.length ≤ p + 8 := by
    simp [startupWords]
  rw [hfill, hstores]
  -- the pointer is stored last, but in front of the two arrays
  rw [← storeBytes_comm _ (by omega : p + 8 + (bytes64 0).length ≤ p + 273),
    ← storeBytes_comm _ (by omega : p + 8 + (bytes64 0).length ≤ p + 16)]
  -- the last byte of each array is still 0
  have hdescription : storeAll (startupWords version p ++
      [(p + 8, bytes64 0), (p + 16, strncpyBytes description 256)]) cleared (p + 272) = 0 := by
    rw [← hcleared]
    apply storeAll_cleared m p _ (by omega)
    intro s hs
    simp only [List.mem_append, List.mem_cons, List.not_mem_nil, or_false] at hs
    rcases hs with hs | rfl | rfl
    · have hle := hwords s hs
      omega
    · show p + 8 + (bytes64 0).length ≤ _
      omega
    · show p + 16 + (strncpyBytes description 256).length ≤ _
      omega
  have hstatus : storeAll (startupWords version p ++ [(p + 8, bytes64 0),
      (p + 16, strncpyBytes description 256), (p + 273, strncpyBytes systemStatus 128)]) cleared
      (p + 401) = 0 := by
    rw [← hcleared]
    apply storeAll_cleared m p _ (by omega)
    intro s hs
    simp only [List.mem_append, List.mem_cons, List.not_mem_nil, or_false] at hs
    rcases hs with hs | rfl | rfl | rfl
    · have hle := hwords s hs
      omega
    · show p + 8 + (bytes64 0).length ≤ _
      omega
    · show p + 16 + (strncpyBytes description 256).length ≤ _
      omega
    · show p + 273 + (strncpyBytes systemStatus 128).length ≤ _
      omega
  rw [storeAll, List.foldl_append] at hdescription hstatus
  symm
  calc
    _ = (((storeAll (startupWords version p) cleared).storeBytes (p + 8) (bytes64 0)).storeBytes
          (p + 16) (strncpyBytes description 256)).storeBytes (p + 273)
          (strncpyBytes systemStatus 128 ++ [0]) := by
      rw [storeBytes_append _ (p + 16), hD]
      exact congrArg (fun m => Memory.storeBytes m (p + 273) _) (storeBytes_zero hdescription)
    _ = _ := by
      rw [storeBytes_append _ (p + 273), hS]
      exact storeBytes_zero hstatus

/-! ### The system -/

/-- Where a thread stands. -/
inductive Place where
  | idle
  | entered (call : Call)
  | locked (call : Call)
  /-- In `WSAStartup`, with these stores left. -/
  | filling (wVersionRequested : BitVec 16) (lpWSAData : Nat) (left : List (Nat × List Byte))
  /-- In front of `g_wsa_init_count++` or `g_wsa_init_count--`. -/
  | counting (call : Call)
  /-- Between the load and the store of it. -/
  | loaded (call : Call) (count : BitVec 32)
  | leaving (call : Call) (exit : Exit)

/-- The state of the system. -/
structure Steps where
  gWsaInitCount : BitVec 32
  gWsaInitMutex : Option Nat
  mem : Memory
  threads : Nat → Place

/-- What `g_wsa_init_count++` or `g_wsa_init_count--` makes of the value it has loaded. -/
def Call.counted : Call → BitVec 32 → BitVec 32
  | .startup _ _, count => count + 1
  | .cleanup, count => count - 1

/-- The next step of a body: where it leads, and what it leaves in the count and the memory. -/
def bodyStep (count : BitVec 32) (mem : Memory) : Place → Option (Place × BitVec 32 × Memory)
  | .locked (.startup version none) =>
    some (.leaving (.startup version none) ⟨WSAEFAULT, true⟩, count, mem)
  | .locked (.startup version (some p)) =>
    some (.filling version p (startupStores version p), count, mem)
  | .locked .cleanup =>
    if count = 0 then some (.leaving .cleanup ⟨WSANOTINITIALISED, true⟩, count, mem)
    else some (.counting .cleanup, count, mem)
  | .filling version p (s :: left) => some (.filling version p left, count, mem.storeBytes s.1 s.2)
  | .filling version p [] =>
    if versionRefused version then
      some (.leaving (.startup version (some p)) ⟨WSAVERNOTSUPPORTED, true⟩, count, mem)
    else some (.counting (.startup version (some p)), count, mem)
  | .counting call => some (.loaded call count, count, mem)
  | .loaded call found => some (.leaving call ⟨0, true⟩, call.counted found, mem)
  | _ => none

namespace Steps

/-- The state before the first call. -/
def start (mem : Memory) : Steps := ⟨0, none, mem, fun _ => .idle⟩

/-- The state with the thread `t` moved. -/
def setThread (w : Steps) (t : Nat) (place : Place) : Steps :=
  { w with threads := update w.threads t place }

end Steps

/-- The step labelled `l`, where `body` is one step of a body. -/
def stepNext (w : Steps) : Label → Option Steps
  | .call t call =>
    match w.threads t with
    | .idle => some (w.setThread t (.entered call))
    | _ => none
  | .lock t =>
    match w.threads t, w.gWsaInitMutex with
    | .entered call, none => some ({ w with gWsaInitMutex := some t }.setThread t (.locked call))
    | _, _ => none
  | .body t =>
    (bodyStep w.gWsaInitCount w.mem (w.threads t)).map
      (fun r => { w with gWsaInitCount := r.2.1, mem := r.2.2 }.setThread t r.1)
  | .leave t =>
    match w.threads t with
    | .leaving _ exit =>
      some ({ w with gWsaInitMutex := if exit.unlocks then none else w.gWsaInitMutex }.setThread
        t .idle)
    | _ => none

/-- The transition system, for what the memory holds at the start. -/
def stepSystem (mem : Memory) : TransitionSystem Steps Label := .ofFun (Steps.start mem) stepNext

/-! ### What is left of a body -/

/-- A body in one step. -/
def bodyOf (count : BitVec 32) (mem : Memory) : Call → Exit × BitVec 32 × Memory
  | .startup version lp => startupBody version lp count mem
  | .cleanup => ((cleanupBody count).1, (cleanupBody count).2, mem)

/-- What the rest of a body leads to, from where the thread stands. -/
def Place.rest (count : BitVec 32) (mem : Memory) : Place → Option (Exit × BitVec 32 × Memory)
  | .locked call => some (bodyOf count mem call)
  | .filling version _ left =>
    if versionRefused version then some (⟨WSAVERNOTSUPPORTED, true⟩, count, storeAll left mem)
    else some (⟨0, true⟩, count + 1, storeAll left mem)
  | .counting call => some (⟨0, true⟩, call.counted count, mem)
  | .loaded call found => some (⟨0, true⟩, call.counted found, mem)
  | .leaving _ exit => some (exit, count, mem)
  | _ => none

/-- The same where a body is one step. -/
def Pc.rest (count : BitVec 32) (mem : Memory) : Pc → Option (Exit × BitVec 32 × Memory)
  | .locked call => some (bodyOf count mem call)
  | .leaving _ exit => some (exit, count, mem)
  | _ => none

/-- Where the thread stands if a body is one step: in front of it until it is done. -/
def Place.pc : Place → Pc
  | .idle => .idle
  | .entered call => .entered call
  | .locked call => .locked call
  | .filling version p _ => .locked (.startup version (some p))
  | .counting call => .locked call
  | .loaded call _ => .locked call
  | .leaving call exit => .leaving call exit

variable {w w' : Steps} {c c' : World} {t : Nat} {call : Call} {place place' : Place}
  {count count' : BitVec 32} {mem mem' : Memory}

/-- **A step of a body** leaves the same to come, and leaves through an exit that unlocks. -/
theorem rest_bodyStep (h : bodyStep count mem place = some (place', count', mem')) :
    place'.rest count' mem' = place.rest count mem ∧
    ∃ call, place.pc = .locked call ∧ (place'.pc = .locked call ∨
      ∃ exit, place' = .leaving call exit ∧ exit.unlocks = true) := by
  unfold bodyStep at h
  split at h
  · obtain ⟨rfl, rfl, rfl⟩ := Option.some.inj h
    exact ⟨rfl, _, rfl, .inr ⟨_, rfl, rfl⟩⟩
  · rename_i version p
    obtain ⟨rfl, rfl, rfl⟩ := Option.some.inj h
    refine ⟨?_, _, rfl, .inl rfl⟩
    simp only [Place.rest, bodyOf, startupBody, storeAll_startupStores]
    split <;> rfl
  · split at h
    · rename_i hzero
      obtain ⟨rfl, rfl, rfl⟩ := Option.some.inj h
      refine ⟨?_, _, rfl, .inr ⟨_, rfl, rfl⟩⟩
      simp only [Place.rest, bodyOf, cleanupBody, if_pos hzero]
    · rename_i hcount
      obtain ⟨rfl, rfl, rfl⟩ := Option.some.inj h
      refine ⟨?_, _, rfl, .inl rfl⟩
      simp only [Place.rest, bodyOf, cleanupBody, if_neg hcount, Call.counted]
  · obtain ⟨rfl, rfl, rfl⟩ := Option.some.inj h
    exact ⟨rfl, _, rfl, .inl rfl⟩
  · split at h
    · rename_i hrefused
      obtain ⟨rfl, rfl, rfl⟩ := Option.some.inj h
      exact ⟨by simp [Place.rest, hrefused, storeAll], _, rfl, .inr ⟨_, rfl, rfl⟩⟩
    · rename_i hversion
      obtain ⟨rfl, rfl, rfl⟩ := Option.some.inj h
      exact ⟨by simp [Place.rest, hversion, storeAll, Call.counted], _, rfl, .inl rfl⟩
  · obtain ⟨rfl, rfl, rfl⟩ := Option.some.inj h
    exact ⟨rfl, _, rfl, .inl rfl⟩
  · obtain ⟨rfl, rfl, rfl⟩ := Option.some.inj h
    exact ⟨rfl, _, rfl, .inr ⟨_, rfl, rfl⟩⟩
  · cases h

/-! ### Bodies in one step -/

/-- The state `c`, in which a body is one step, stands for the state `w`: what is left of the body
    of the thread that holds the mutex leads to the same. -/
structure Represents (w : Steps) (c : World) : Prop where
  threads : ∀ t, c.threads t = (w.threads t).pc
  mutex : c.gWsaInitMutex = w.gWsaInitMutex
  holder : ∀ t, w.gWsaInitMutex = some t ↔ (w.threads t).pc.inside = true
  unlocks : ∀ t call exit, w.threads t = .leaving call exit → exit.unlocks = true
  free : w.gWsaInitMutex = none → c.gWsaInitCount = w.gWsaInitCount ∧ c.mem = w.mem
  held : ∀ t, w.gWsaInitMutex = some t →
    (c.threads t).rest c.gWsaInitCount c.mem = (w.threads t).rest w.gWsaInitCount w.mem

theorem represents_start (mem : Memory) : Represents (Steps.start mem) (World.start mem) where
  threads _ := rfl
  mutex := rfl
  holder t := by simp [Steps.start, Place.pc, Pc.inside]
  unlocks t call exit h := by cases h
  free _ := ⟨rfl, rfl⟩
  held t h := by cases h

/-- Where the threads stand after one has moved. -/
theorem pc_update (threads : Nat → Place) (t : Nat) (place : Place) (u : Nat) :
    (update threads t place u).pc = update (fun t => (threads t).pc) t place.pc u := by
  by_cases hu : u = t
  · subst hu
    rw [update_self, update_self]
  · rw [update_of_ne hu, update_of_ne hu]

/-- Of two threads only one is behind the lock. -/
theorem Represents.unique (h : Represents w c) {u : Nat} (ht : (w.threads t).pc.inside = true)
    (hu : (w.threads u).pc.inside = true) : u = t := by
  have hheld := ((h.holder u).mpr hu).symm.trans ((h.holder t).mpr ht)
  exact Option.some.inj hheld

/-- A thread in front of the lock, or in none of the functions, moves and stays there. -/
theorem Represents.outside (h : Represents w c) (hout : (w.threads t).pc.inside = false)
    (hpc : place.pc.inside = false) :
    Represents (w.setThread t place) (c.setThread t place.pc) := by
  have hne : ∀ u, w.gWsaInitMutex = some u → u ≠ t := by
    rintro u hu rfl
    rw [h.holder, hout] at hu
    cases hu
  constructor
  case threads =>
    intro u
    show update c.threads t place.pc u = (update w.threads t place u).pc
    rw [pc_update, funext h.threads]
  case mutex => exact h.mutex
  case holder =>
    intro u
    show w.gWsaInitMutex = some u ↔ (update w.threads t place u).pc.inside = true
    by_cases hu : u = t
    · subst hu
      rw [update_self, h.holder, hout, hpc]
    · rw [update_of_ne hu, h.holder]
  case unlocks =>
    intro u call exit hu
    rcases eq_or_ne u t with rfl | hne'
    · have heq : place = .leaving call exit := (update_self ..).symm.trans hu
      rw [heq] at hpc
      cases hpc
    · exact h.unlocks u call exit ((update_of_ne hne' ..).symm.trans hu)
  case free => exact h.free
  case held =>
    intro u hu
    show (update c.threads t place.pc u).rest _ _ = (update w.threads t place u).rest _ _
    rw [update_of_ne (hne u hu), update_of_ne (hne u hu)]
    exact h.held u hu

/-- The mutex is taken. -/
theorem Represents.locked (h : Represents w c) (hentered : w.threads t = .entered call)
    (hfree : w.gWsaInitMutex = none) :
    Represents ({ w with gWsaInitMutex := some t }.setThread t (.locked call))
      ({ c with gWsaInitMutex := some t }.setThread t (.locked call)) := by
  have hout : ∀ u, (w.threads u).pc.inside = false := by
    intro u
    cases hin : (w.threads u).pc.inside with
    | false => rfl
    | true => cases ((h.holder u).mpr hin).symm.trans hfree
  obtain ⟨hcount, hmem⟩ := h.free hfree
  constructor
  case threads =>
    intro u
    show update c.threads t (.locked call) u = (update w.threads t (.locked call) u).pc
    rw [pc_update, funext h.threads]
    rfl
  case mutex => rfl
  case holder =>
    intro u
    show some t = some u ↔ (update w.threads t (.locked call) u).pc.inside = true
    by_cases hu : u = t
    · subst hu
      simp [Place.pc, Pc.inside]
    · rw [update_of_ne hu, hout]
      simp [Ne.symm hu]
  case unlocks =>
    intro u call' exit hu
    rcases eq_or_ne u t with rfl | hne
    · cases (update_self ..).symm.trans hu
    · exact h.unlocks u call' exit ((update_of_ne hne ..).symm.trans hu)
  case free =>
    intro hnone
    cases hnone
  case held =>
    intro u hu
    obtain rfl : t = u := Option.some.inj hu
    show (update c.threads t (.locked call) t).rest c.gWsaInitCount c.mem =
      (update w.threads t (.locked call) t).rest w.gWsaInitCount w.mem
    rw [update_self, update_self, hcount, hmem]
    rfl

/-- The thread that holds the mutex moves on in its body, or comes to its end. -/
theorem Represents.body (h : Represents w c) (hin : (w.threads t).pc.inside = true) {pc : Pc}
    (hpc : pc = place.pc) (hinside : pc.inside = true)
    (hunlocks : ∀ call exit, place = .leaving call exit → exit.unlocks = true)
    (hrest : pc.rest count' mem' = place.rest count mem) :
    Represents ({ w with gWsaInitCount := count, mem := mem }.setThread t place)
      ({ c with gWsaInitCount := count', mem := mem' }.setThread t pc) := by
  have hheld := (h.holder t).mpr hin
  constructor
  case threads =>
    intro u
    show update c.threads t pc u = (update w.threads t place u).pc
    rw [pc_update, funext h.threads, hpc]
  case mutex => exact h.mutex
  case holder =>
    intro u
    show w.gWsaInitMutex = some u ↔ (update w.threads t place u).pc.inside = true
    by_cases hu : u = t
    · subst hu
      rw [update_self, ← hpc]
      exact iff_of_true hheld hinside
    · rw [update_of_ne hu, h.holder]
  case unlocks =>
    intro u call exit hu
    rcases eq_or_ne u t with rfl | hne
    · exact hunlocks call exit ((update_self ..).symm.trans hu)
    · exact h.unlocks u call exit ((update_of_ne hne ..).symm.trans hu)
  case free =>
    intro hfree
    cases hheld.symm.trans hfree
  case held =>
    intro u hu
    obtain rfl : t = u := Option.some.inj (hheld.symm.trans hu)
    show (update c.threads t pc t).rest count' mem' = (update w.threads t place t).rest count mem
    rw [update_self, update_self]
    exact hrest

/-- The thread that holds the mutex leaves. -/
theorem Represents.left (h : Represents w c) {exit : Exit}
    (hleaving : w.threads t = .leaving call exit) :
    Represents ({ w with
        gWsaInitMutex := if exit.unlocks then none else w.gWsaInitMutex }.setThread t .idle)
      ({ c with gWsaInitMutex := if exit.unlocks then none else c.gWsaInitMutex }.setThread t
        .idle) := by
  have hin : (w.threads t).pc.inside = true := by rw [hleaving]; rfl
  have hheld := (h.holder t).mpr hin
  rw [h.unlocks t call exit hleaving, if_pos rfl, if_pos rfl]
  constructor
  case threads =>
    intro u
    show update c.threads t .idle u = (update w.threads t .idle u).pc
    rw [pc_update, funext h.threads]
    rfl
  case mutex => rfl
  case holder =>
    intro u
    show none = some u ↔ (update w.threads t .idle u).pc.inside = true
    by_cases hu : u = t
    · subst hu
      simp [Place.pc, Pc.inside]
    · rw [update_of_ne hu]
      constructor
      · intro hnone
        cases hnone
      · intro hin'
        exact absurd (h.unique hin hin') hu
  case unlocks =>
    intro u call' exit' hu
    rcases eq_or_ne u t with rfl | hne
    · cases (update_self ..).symm.trans hu
    · exact h.unlocks u call' exit' ((update_of_ne hne ..).symm.trans hu)
  case free =>
    intro _
    -- nothing was left of the body
    have hrest := h.held t hheld
    rw [h.threads, hleaving] at hrest
    simp only [Place.pc, Pc.rest, Place.rest, Option.some.injEq, Prod.mk.injEq, true_and] at hrest
    exact hrest
  case held =>
    intro u hu
    cases hu

/-! ### Refinement -/

/-- What is seen of a step, with what a call returns: of the steps of a body only the last. -/
def stepView (w : Steps) : Label → Option (Label × Option (Call × Int))
  | .body t =>
    match bodyStep w.gWsaInitCount w.mem (w.threads t) with
    | some (.leaving _ _, _, _) => some (.body t, none)
    | _ => none
  | .leave t =>
    match w.threads t with
    | .leaving call exit => some (.leave t, some (call, exit.ret))
    | _ => some (.leave t, none)
  | l => some (l, none)

/-- A body in one step. -/
theorem runBody_eq (c : World) (t : Nat) (call : Call) :
    runBody c t call = { c with
      gWsaInitCount := (bodyOf c.gWsaInitCount c.mem call).2.1
      mem := (bodyOf c.gWsaInitCount c.mem call).2.2 }.setThread t
        (.leaving call (bodyOf c.gWsaInitCount c.mem call).1) := by
  cases call <;> rfl

/-- A thread that stays where it is. -/
theorem setThread_self (c : World) {pc : Pc} (h : c.threads t = pc) : c.setThread t pc = c := by
  rw [← h]
  show { c with threads := update c.threads t (c.threads t) } = c
  rw [update_eq_self]

/-- A step of a body that is not its last. -/
theorem Represents.inBody (h : Represents w c)
    (hstep : bodyStep w.gWsaInitCount w.mem (w.threads t) = some (place, count, mem))
    (hlast : ∀ call exit, place ≠ .leaving call exit) :
    Represents ({ w with gWsaInitCount := count, mem := mem }.setThread t place) c := by
  obtain ⟨hrest, call, hlocked, hplace | ⟨exit, hleaving, -⟩⟩ := rest_bodyStep hstep
  · have hin : (w.threads t).pc.inside = true := by rw [hlocked]; rfl
    have hpc : c.threads t = .locked call := (h.threads t).trans hlocked
    have hheld := h.held t ((h.holder t).mpr hin)
    rw [hpc, ← hrest] at hheld
    rw [← setThread_self c hpc]
    exact h.body hin hplace.symm rfl (fun _ _ hexit => absurd hexit (hlast _ _)) hheld
  · exact absurd hleaving (hlast call exit)

/-- The last step of a body. -/
theorem Represents.endOfBody (h : Represents w c) {exit : Exit}
    (hstep : bodyStep w.gWsaInitCount w.mem (w.threads t) =
      some (.leaving call exit, count, mem)) :
    ∃ c', next c (.body t) = some c' ∧ Represents
      ({ w with gWsaInitCount := count, mem := mem }.setThread t (.leaving call exit)) c' := by
  obtain ⟨hrest, call', hlocked, hpc | ⟨exit', hleaving, hunlocks⟩⟩ := rest_bodyStep hstep
  · cases hpc
  · obtain ⟨rfl, rfl⟩ := Place.leaving.inj hleaving
    have hin : (w.threads t).pc.inside = true := by rw [hlocked]; rfl
    have hpc : c.threads t = .locked call := (h.threads t).trans hlocked
    -- the whole body leads to where its steps have led
    have hheld := h.held t ((h.holder t).mpr hin)
    rw [hpc, ← hrest] at hheld
    have hbody : bodyOf c.gWsaInitCount c.mem call = (exit, count, mem) := Option.some.inj hheld
    refine ⟨runBody c t call, by simp only [next, hpc], ?_⟩
    rw [runBody_eq, hbody]
    apply h.body hin rfl rfl _ rfl
    rintro _ _ ⟨⟩
    exact hunlocks

/-- **One step** is seen as a step of the calls with bodies in one step, or not at all. -/
theorem Represents.step (h : Represents w c) {l : Label} (hnext : stepNext w l = some w') :
    (∃ k c', stepView w l = some k ∧ next c k.1 = some c' ∧ k.2 = returns c k.1 ∧
      Represents w' c') ∨ (stepView w l = none ∧ Represents w' c) := by
  cases l with
  | call t call =>
    simp only [stepNext] at hnext
    split at hnext
    · rename_i hidle
      obtain rfl := Option.some.inj hnext
      have hc : c.threads t = .idle := (h.threads t).trans (congrArg Place.pc hidle)
      have hout : (w.threads t).pc.inside = false := by rw [hidle]; rfl
      refine .inl ⟨_, c.setThread t (.entered call), rfl, ?_, rfl, h.outside hout rfl⟩
      simp only [next, hc]
    · cases hnext
  | lock t =>
    simp only [stepNext] at hnext
    split at hnext
    · rename_i call hentered hfree
      obtain rfl := Option.some.inj hnext
      have hc : c.threads t = .entered call := (h.threads t).trans (congrArg Place.pc hentered)
      refine .inl ⟨_, _, rfl, ?_, rfl, h.locked hentered hfree⟩
      simp only [next, hc, h.mutex.trans hfree]
    · cases hnext
  | body t =>
    obtain ⟨⟨place, count, mem⟩, hbody, rfl⟩ := Option.map_eq_some_iff.mp hnext
    by_cases hlast : ∃ call exit, place = .leaving call exit
    · obtain ⟨call, exit, rfl⟩ := hlast
      obtain ⟨c', hc', hrep⟩ := h.endOfBody hbody
      exact .inl ⟨(.body t, none), c', by simp only [stepView, hbody], hc', rfl, hrep⟩
    · refine .inr ⟨?_, h.inBody hbody (fun call exit heq => hlast ⟨call, exit, heq⟩)⟩
      simp only [stepView, hbody]
      split
      · rename_i call exit _ _ heq
        obtain ⟨rfl, -⟩ := Prod.mk.inj (Option.some.inj heq)
        exact absurd ⟨call, exit, rfl⟩ hlast
      · rfl
  | leave t =>
    simp only [stepNext] at hnext
    split at hnext
    · rename_i call exit hleaving
      obtain rfl := Option.some.inj hnext
      have hc : c.threads t = .leaving call exit :=
        (h.threads t).trans (congrArg Place.pc hleaving)
      refine .inl ⟨(.leave t, some (call, exit.ret)), _, by simp only [stepView, hleaving], ?_, ?_,
        h.left hleaving⟩
      · simp only [next, hc]
      · simp only [returns, hc]
    · cases hnext

/-- Calls with bodies in one step simulate the single accesses. -/
def stepSimulation (mem : Memory) :
    Simulation (stepSystem mem) ((system mem).observe returns) (fun _ _ _ => True) where
  rel _ := Represents
  view := stepView
  init w hw := by
    obtain rfl : w = Steps.start mem := hw
    exact ⟨World.start mem, rfl, represents_start mem⟩
  matched tr w l w' c k _ h _ hstep hview := by
    rcases h.step hstep with ⟨k', c', hview', hc', hout, hrep⟩ | ⟨hnone, -⟩
    · obtain rfl := Option.some.inj (hview.symm.trans hview')
      exact ⟨c', ⟨hc', hout⟩, hrep⟩
    · cases hview.symm.trans hnone
  hidden tr w l w' c _ h _ hstep hview := by
    rcases h.step hstep with ⟨k', c', hview', -⟩ | ⟨-, hrep⟩
    · cases hview.symm.trans hview'
    · exact hrep

/-- **Atomicity.**  Every run of the single accesses looks like a run in which each body is one
    step: the calls, locks and returns come in the same order with the same results, each thread
    stands at the same place of its call, and while the mutex is free the count and the memory are
    the same. -/
theorem steps_refine {tr : List (Steps × Label)} (h : (stepSystem mem).Run tr w) :
    ∃ tr' c, ((system mem).observe returns).Run tr' c ∧
      tr'.map Prod.snd = seen stepView tr ∧ (∀ t, c.threads t = (w.threads t).pc) ∧
      c.gWsaInitMutex = w.gWsaInitMutex ∧
      (w.gWsaInitMutex = none → c.gWsaInitCount = w.gWsaInitCount ∧ c.mem = w.mem) := by
  obtain ⟨tr', c, hrun, hrep, hseen⟩ := (stepSimulation mem).run h (AllSteps.trivial tr)
  exact ⟨tr', c, hrun, hseen, hrep.threads, hrep.mutex, hrep.free⟩

/-- The calls of `WSAStartup` (`true`) or `WSACleanup` (`false`) seen to return 0. -/
def seenSuccesses (startup : Bool) (tr : List (Steps × Label)) : Nat :=
  (seen stepView tr).countP
    (fun k => k.2.any (fun r => r.1.isStartup == startup && decide (r.2 = 0)))

/-- The calls of `WSAStartup` seen to be made. -/
def seenStartups (tr : List (Steps × Label)) : Nat :=
  (seen stepView tr).countP (fun k => startsUp k.1)

/-- What is seen is counted in the simulating run. -/
theorem successes_of_seen {tr : List (Steps × Label)}
    {tr' : List (World × (Label × Option (Call × Int)))}
    (hout : ∀ e ∈ tr', e.2.2 = returns e.1 e.2.1) (hseen : tr'.map Prod.snd = seen stepView tr)
    (b : Bool) : successes b (tr'.map (fun e => (e.1, e.2.1))) = seenSuccesses b tr := by
  rw [successes, seenSuccesses, ← hseen, List.countP_map, List.countP_map]
  apply List.countP_congr
  intro e he
  simp only [Function.comp_apply, succeeds, hout e he]

theorem startupCalls_of_seen {tr : List (Steps × Label)}
    {tr' : List (World × (Label × Option (Call × Int)))}
    (hseen : tr'.map Prod.snd = seen stepView tr) :
    startupCalls (tr'.map (fun e => (e.1, e.2.1))) = seenStartups tr := by
  rw [startupCalls, seenStartups, ← hseen, List.countP_map, List.countP_map]
  rfl

/-- **No update is lost.**  However the accesses of the calls are interleaved, in every run with
    fewer than 2³¹ start-ups: while the mutex is free the count is the number of start-ups less
    that of the clean-ups that returned 0; and a clean-up comes to fail exactly if these two
    numbers are equal. -/
theorem no_update_lost {tr : List (Steps × Label)} (h : (stepSystem mem).Run tr w)
    (hcalls : seenStartups tr < 2 ^ 31) :
    (w.gWsaInitMutex = none →
      w.gWsaInitCount.toInt = seenSuccesses true tr - seenSuccesses false tr) ∧
    ∀ t exit, w.threads t = .leaving .cleanup exit →
      (exit.ret = WSANOTINITIALISED ↔ seenSuccesses true tr = seenSuccesses false tr) := by
  obtain ⟨tr', c, hrun, hseen, hthreads, hmutex, hfree⟩ := steps_refine h
  obtain ⟨hrun', hout⟩ := hrun.of_observe
  have hinv := countInv_of_run hrun' ((startupCalls_of_seen hseen).trans_lt hcalls)
  constructor
  · intro hnone
    have hcount := hinv.count
    have hpending : c.pending = 0 := by simp only [World.pending, hmutex, hnone]
    rw [successes_of_seen hout hseen, successes_of_seen hout hseen, hpending, add_zero] at hcount
    rw [← (hfree hnone).1, hcount]
  · intro t exit hleaving
    have hc : c.threads t = .leaving .cleanup exit :=
      (hthreads t).trans (congrArg Place.pc hleaving)
    have hfails := hinv.cleanup_fails_iff hc
    rwa [successes_of_seen hout hseen, successes_of_seen hout hseen] at hfails

/-! ### A run -/

/-- The first thread starts up and has loaded the count; the second one waits with a clean-up. -/
def loadedFirst : List Label :=
  [.call 1 (.startup (MAKEWORD 2 2) (some 4096)), .call 2 .cleanup, .lock 1] ++
    List.replicate 11 (.body 1)

/-- Both calls to their ends, but for the return of the second one. -/
def bothCalls : List Label :=
  loadedFirst ++ [.body 1, .leave 1, .lock 2, .body 2, .body 2, .body 2, .leave 2,
    .call 1 .cleanup, .lock 1, .body 1]

theorem loadedFirst_run : ∃ tr w, (stepSystem (fun _ => 0)).Run tr w ∧
    w.threads 1 = .loaded (.startup (MAKEWORD 2 2) (some 4096)) 0 ∧
    w.threads 2 = .entered .cleanup ∧ w.gWsaInitMutex = some 1 :=
  ⟨_, _, run_of_exec_isSome (Steps.start fun _ => 0) stepNext loadedFirst rfl, rfl, rfl, rfl⟩

/-- In that state the body of the first thread is still in front of its one step. -/
theorem steps_refine_loaded : ∃ (w : Steps) (tr' : _) (c : World), w.threads 1 =
      .loaded (.startup (MAKEWORD 2 2) (some 4096)) 0 ∧
    ((system fun _ => 0).observe returns).Run tr' c ∧
    c.threads 1 = .locked (.startup (MAKEWORD 2 2) (some 4096)) ∧ c.gWsaInitMutex = some 1 := by
  obtain ⟨tr, w, hrun, hloaded, -, hmutex⟩ := loadedFirst_run
  obtain ⟨tr', c, hrun', -, hthreads, hmutex', -⟩ := steps_refine hrun
  have hone := hthreads 1
  rw [hloaded] at hone
  exact ⟨w, tr', c, hloaded, hrun', hone, hmutex'.trans hmutex⟩

/-- A start-up, a clean-up that finds it, and one that does not. -/
theorem no_update_lost_both : ∃ tr w, (stepSystem fun _ => 0).Run tr w ∧
    w.threads 1 = .leaving .cleanup ⟨WSANOTINITIALISED, true⟩ ∧
    seenSuccesses true tr = seenSuccesses false tr := by
  have hrun := run_of_exec_isSome (Steps.start fun _ => 0) stepNext bothCalls rfl
  have hlost := no_update_lost hrun (by decide)
  exact ⟨_, _, hrun, rfl, (hlost.2 1 ⟨WSANOTINITIALISED, true⟩ rfl).mp rfl⟩

end LinuxWinsock.Startup
