import LinuxWinsock.Api
import LinuxWinsock.Lib.LinkedList
import LinuxWinsock.Lib.CString
import Mathlib.Logic.Function.Basic

namespace LinuxWinsock.Async

open LinkedList

/-!
# Asynchronous lookups: requests, resolvers and the state they share

The data of the six `WSAAsyncGet…By…` functions of `wsa_events.c` and `wsock32.c`: the
request records, what each call fills in, what its lookup thread asks the resolver, and
the state that the calls and the threads share.

* `wsaAsyncGetHostByName`, … — the record each call fills in;
* `Record.query` — the question its thread asks;
* `wsaCancelAsyncRequest` — what `WSACancelAsyncRequest` does to the records and their list;
* `cancel_updated`, `cancel_marks` — it changes no record but for its link and its mark, and
  it marks the request whose address is the handle, if the list leads there.
-/

/-! ### Questions and answers -/

/-- A `HANDLE` as an integer; `NULL` is 0. -/
abbrev HANDLE := Nat

/-- The six functions of the C library that the lookup threads call. -/
inductive ResolverFn where
  | gethostbyname
  | gethostbyaddr
  | getservbyname
  | getservbyport
  | getprotobyname
  | getprotobynumber
  deriving DecidableEq

/-- A call of one of them, with its arguments. -/
inductive Query where
  | gethostbyname (name : CString)
  | gethostbyaddr (addr : List Byte) (len type : BitVec 32)
  | getservbyname (name : CString) (proto : Option CString)
  | getservbyport (port : BitVec 32) (proto : Option CString)
  | getprotobyname (name : CString)
  | getprotobynumber (number : BitVec 32)
  deriving DecidableEq

def Query.function : Query → ResolverFn
  | .gethostbyname _ => .gethostbyname
  | .gethostbyaddr _ _ _ => .gethostbyaddr
  | .getservbyname _ _ => .getservbyname
  | .getservbyport _ _ => .getservbyport
  | .getprotobyname _ => .getprotobyname
  | .getprotobynumber _ => .getprotobynumber

/-- What a `hostent`, `servent` or `protoent` says: the numbers in the structure itself, and
    the names, aliases and addresses its pointers lead to. -/
structure Answer where
  fixed : List Int
  pointed : List CString
  deriving DecidableEq

/-- A structure as `memcpy` leaves it in a buffer: its numbers, and pointers into the
    static storage of the function it came from. -/
structure ResultStruct where
  fixed : List Int
  source : ResolverFn
  deriving DecidableEq

def sizeofServent : Nat := 32
def sizeofProtoent : Nat := 24

/-- `buflen < size`, where C converts the `int` to the 64-bit `size_t`. -/
def shorterThan (buflen : BitVec 32) (size : Nat) : Bool :=
  decide ((buflen.signExtend 64).toNat < size)

/-! ### The request records -/

/-- What a host request asks: the fields that go with `type`. -/
inductive HostQuestion where
  | name (name : CString)
  | addr (addr : List Byte) (len addrType : BitVec 32)
  deriving DecidableEq

/-- The record of `wsa_events.c`. -/
structure AsyncRequest where
  buffer : Option Addr
  buflen : BitVec 32
  question : HostQuestion
  cancelled : Bool
  next : Option Addr
  deriving DecidableEq

/-- The union `params`, its strings as far as they are filled. -/
inductive ServiceParams where
  | servbyname (name proto : CString)
  | servbyport (port : BitVec 32) (proto : CString)
  | protobyname (name : CString)
  | protobynumber (number : BitVec 32)
  deriving DecidableEq

/-- The record of `wsock32.c`. -/
structure AsyncServiceRequest where
  buffer : Option Addr
  buflen : BitVec 32
  completed : Bool
  error : Int
  params : ServiceParams
  deriving DecidableEq

/-- A record on the heap. -/
inductive Record where
  | host (req : AsyncRequest)
  | service (req : AsyncServiceRequest)
  deriving DecidableEq

/-! ### What the calls fill in -/

def wsaAsyncGetHostByName (name : CString) (buf : Option Addr) (buflen : BitVec 32) :
    AsyncRequest :=
  { buffer := buf, buflen := buflen, question := .name name, cancelled := false, next := none }

/-- The first `len` bytes of the address are copied. -/
def wsaAsyncGetHostByAddr (addr : List Byte) (len type : BitVec 32) (buf : Option Addr)
    (buflen : BitVec 32) : AsyncRequest :=
  { buffer := buf, buflen := buflen, question := .addr (addr.take len.toNat) len type,
    cancelled := false, next := none }

/-- `strncpy` into a cleared array of 256 bytes, with the last one left. -/
def strncpy255 (s : CString) : CString := s.take 255

/-- The protocol string, which stays empty for `NULL`. -/
def copyProto (proto : Option CString) : CString := (proto.map strncpy255).getD []

/-- What the four service calls share: the checks, and the record they fill in.  `none` is
    the exit with `WSAEINVAL`; `params` is `none` where a name is `NULL`. -/
def serviceRequest (size : Nat) (params : Option ServiceParams) (buf : Option Addr)
    (buflen : BitVec 32) : Option AsyncServiceRequest :=
  match params, buf with
  | some params, some _ =>
    if shorterThan buflen size then none
    else some { buffer := buf, buflen := buflen, completed := false, error := 0, params := params }
  | _, _ => none

def wsaAsyncGetServByName (name proto : Option CString) (buf : Option Addr)
    (buflen : BitVec 32) : Option AsyncServiceRequest :=
  serviceRequest sizeofServent
    (name.map (fun n => .servbyname (strncpy255 n) (copyProto proto))) buf buflen

def wsaAsyncGetServByPort (port : BitVec 32) (proto : Option CString) (buf : Option Addr)
    (buflen : BitVec 32) : Option AsyncServiceRequest :=
  serviceRequest sizeofServent (some (.servbyport port (copyProto proto))) buf buflen

def wsaAsyncGetProtoByName (name : Option CString) (buf : Option Addr) (buflen : BitVec 32) :
    Option AsyncServiceRequest :=
  serviceRequest sizeofProtoent (name.map (fun n => .protobyname (strncpy255 n))) buf buflen

def wsaAsyncGetProtoByNumber (number : BitVec 32) (buf : Option Addr) (buflen : BitVec 32) :
    Option AsyncServiceRequest :=
  serviceRequest sizeofProtoent (some (.protobynumber number)) buf buflen

/-- A call of one of the two host functions. -/
inductive HostCall where
  | byName (name : CString) (buf : Option Addr) (buflen : BitVec 32)
  | byAddr (addr : List Byte) (len type : BitVec 32) (buf : Option Addr)
      (buflen : BitVec 32)

def HostCall.request : HostCall → AsyncRequest
  | .byName name buf buflen => wsaAsyncGetHostByName name buf buflen
  | .byAddr addr len type buf buflen => wsaAsyncGetHostByAddr addr len type buf buflen

/-- A call of one of the four service functions. -/
inductive ServiceCall where
  | servByName (name proto : Option CString) (buf : Option Addr) (buflen : BitVec 32)
  | servByPort (port : BitVec 32) (proto : Option CString) (buf : Option Addr)
      (buflen : BitVec 32)
  | protoByName (name : Option CString) (buf : Option Addr) (buflen : BitVec 32)
  | protoByNumber (number : BitVec 32) (buf : Option Addr) (buflen : BitVec 32)

def ServiceCall.request : ServiceCall → Option AsyncServiceRequest
  | .servByName name proto buf buflen => wsaAsyncGetServByName name proto buf buflen
  | .servByPort port proto buf buflen => wsaAsyncGetServByPort port proto buf buflen
  | .protoByName name buf buflen => wsaAsyncGetProtoByName name buf buflen
  | .protoByNumber number buf buflen => wsaAsyncGetProtoByNumber number buf buflen

/-! ### What the lookup threads read -/

/-- `proto[0] ? proto : NULL` -/
def protoArg (proto : CString) : Option CString := if proto = [] then none else some proto

def ServiceParams.query : ServiceParams → Query
  | .servbyname name proto => .getservbyname name (protoArg proto)
  | .servbyport port proto => .getservbyport port (protoArg proto)
  | .protobyname name => .getprotobyname name
  | .protobynumber number => .getprotobynumber number

/-- The size of the structure the thread copies. -/
def ServiceParams.size : ServiceParams → Nat
  | .servbyname _ _ => sizeofServent
  | .servbyport _ _ => sizeofServent
  | .protobyname _ => sizeofProtoent
  | .protobynumber _ => sizeofProtoent

def HostQuestion.query : HostQuestion → Query
  | .name n => .gethostbyname n
  | .addr a len addrType => .gethostbyaddr a len addrType

/-- The question the thread of the request asks. -/
def Record.query : Record → Query
  | .host req => req.question.query
  | .service req => req.params.query

def Record.buffer : Record → Option Addr
  | .host req => req.buffer
  | .service req => req.buffer

/-- The link of the list of host requests. -/
def Record.next : Record → Option Addr
  | .host req => req.next
  | .service _ => none

/-- The test of a service thread before it copies. -/
def AsyncServiceRequest.fits (req : AsyncServiceRequest) : Bool :=
  req.buffer.isSome && !shorterThan req.buflen req.params.size

/-- A record that passed the checks of its call passes the test of its thread. -/
theorem fits_of_request {call : ServiceCall} {req : AsyncServiceRequest}
    (h : call.request = some req) : req.fits = true := by
  have hshared : ∀ size params buf buflen, serviceRequest size params buf buflen = some req →
      (∀ ps, params = some ps → ps.size = size) → req.fits = true := by
    intro size params buf buflen hreq hsize
    unfold serviceRequest at hreq
    split at hreq
    · split at hreq
      · cases hreq
      · rename_i ps b hlong
        obtain rfl := Option.some.inj hreq
        simp only [AsyncServiceRequest.fits, hsize ps rfl, Option.isSome_some, Bool.true_and,
          Bool.not_eq_true', Bool.eq_false_of_not_eq_true hlong]
    · cases hreq
  have hmap : ∀ (name : Option CString) (f : CString → ServiceParams) (size : Nat),
      (∀ n, (f n).size = size) → ∀ ps, name.map f = some ps → ps.size = size := by
    intro name f size hf ps hps
    obtain ⟨n, _, rfl⟩ := Option.map_eq_some_iff.mp hps
    exact hf n
  cases call with
  | servByName name proto buf buflen =>
    exact hshared _ _ _ _ h (hmap name _ sizeofServent (fun _ => rfl))
  | servByPort port proto buf buflen =>
    exact hshared _ _ _ _ h (fun ps hps => by obtain rfl := Option.some.inj hps; rfl)
  | protoByName name buf buflen =>
    exact hshared _ _ _ _ h (hmap name _ sizeofProtoent (fun _ => rfl))
  | protoByNumber number buf buflen =>
    exact hshared _ _ _ _ h (fun ps hps => by obtain rfl := Option.some.inj hps; rfl)

/-! ### The cancellation loop -/

/-- The records and the head of the list of host requests. -/
structure Requests where
  heap : Heap Record
  head : Option Addr

/-- The list of host requests is `l`, from its head on. -/
def Requests.ReqList (r : Requests) (l : List Addr) : Prop := Chain Record.next r.heap r.head l

/-- The body of the search loop for a match: mark the request and take it out, through the
    link of the previous one or the head.  (`next` of the request itself stays.) -/
def cancelMatch (r : Requests) (prev : Option Addr) (p : Addr) (req : AsyncRequest) :
    Option Requests :=
  let heap := r.heap.put p (.host { req with cancelled := true })
  match prev with
  | none => some { heap := heap, head := req.next }
  -- `prev` is read after the store, as it may be the record itself in a list with a loop
  | some q =>
    match heap.cell q with
    | some (.host before) =>
      some { r with heap := heap.put q (.host { before with next := req.next }) }
    | _ => none

/-- The loop of `WSACancelAsyncRequest` from `req` on, with at most `n` iterations; `none`
    where it reads a record that is not allocated, or never ends. -/
def cancelLoop (h : HANDLE) (r : Requests) :
    Nat → Option Addr → Option Addr → Option Requests
  | _, _, none => some r
  | 0, _, some _ => none
  | n + 1, prev, some p =>
    match r.heap.cell p with
    | some (.host req) =>
      -- the address of the record is compared with the handle
      if p = h then cancelMatch r prev p req else cancelLoop h r n (some p) req.next
    | _ => none

def wsaCancelAsyncRequest (r : Requests) (h : HANDLE) : Option Requests :=
  cancelLoop h r r.heap.live.card none r.head

/-! ### What a cancellation does to the records -/

/-- The record is the same request as before, but for its link, its mark, which is not
    cleared, and its outcome. -/
def Record.Updated : Record → Record → Prop
  | .host a, .host b => b.buffer = a.buffer ∧ b.buflen = a.buflen ∧ b.question = a.question ∧
      (a.cancelled = true → b.cancelled = true)
  | .service a, .service b => b.buffer = a.buffer ∧ b.buflen = a.buflen ∧ b.params = a.params
  | _, _ => False

theorem Record.Updated.refl (a : Record) : a.Updated a := by
  cases a with
  | host a => exact ⟨rfl, rfl, rfl, id⟩
  | service a => exact ⟨rfl, rfl, rfl⟩

theorem Record.Updated.trans {a b c : Record} (h : a.Updated b) (h' : b.Updated c) :
    a.Updated c := by
  cases a with
  | host a =>
    cases b with
    | service b => cases h
    | host b =>
      cases c with
      | service c => cases h'
      | host c =>
        obtain ⟨h₁, h₂, h₃, h₄⟩ := h
        obtain ⟨k₁, k₂, k₃, k₄⟩ := h'
        exact ⟨k₁.trans h₁, k₂.trans h₂, k₃.trans h₃, fun ha => k₄ (h₄ ha)⟩
  | service a =>
    cases b with
    | host b => cases h
    | service b =>
      cases c with
      | host c => cases h'
      | service c =>
        obtain ⟨h₁, h₂, h₃⟩ := h
        obtain ⟨k₁, k₂, k₃⟩ := h'
        exact ⟨k₁.trans h₁, k₂.trans h₂, k₃.trans h₃⟩

theorem Record.Updated.host {a : AsyncRequest} {b : Record} (h : Record.Updated (.host a) b) :
    ∃ req, b = .host req := by
  cases b with
  | host b => exact ⟨b, rfl⟩
  | service b => cases h

theorem Record.Updated.service {a : AsyncServiceRequest} {b : Record}
    (h : Record.Updated (.service a) b) : ∃ req, b = .service req := by
  cases b with
  | host b => cases h
  | service b => exact ⟨b, rfl⟩

theorem Record.Updated.query {a b : Record} (h : a.Updated b) : b.query = a.query := by
  cases a with
  | host a =>
    cases b with
    | host b =>
      show b.question.query = a.question.query
      rw [h.2.2.1]
    | service b => cases h
  | service a =>
    cases b with
    | host b => cases h
    | service b =>
      show b.params.query = a.params.query
      rw [h.2.2]

theorem Record.Updated.buffer {a b : Record} (h : a.Updated b) : b.buffer = a.buffer := by
  cases a with
  | host a =>
    cases b with
    | host b => exact h.1
    | service b => cases h
  | service a =>
    cases b with
    | host b => cases h
    | service b => exact h.1

/-- The heap holds the same requests, but for links, marks and outcomes. -/
def HeapUpdated (heap heap' : Heap Record) : Prop :=
  ∀ q, (heap.cell q = none → heap'.cell q = none) ∧
    ∀ a, heap.cell q = some a → ∃ b, heap'.cell q = some b ∧ a.Updated b

theorem HeapUpdated.refl (heap : Heap Record) : HeapUpdated heap heap :=
  fun _ => ⟨id, fun a ha => ⟨a, ha, .refl a⟩⟩

/-- Storing an updated record. -/
theorem HeapUpdated.put {heap heap' : Heap Record} (h : HeapUpdated heap heap') {q : Addr}
    {rec rec' : Record} (hq : heap'.cell q = some rec) (hupd : rec.Updated rec') :
    HeapUpdated heap (heap'.put q rec') := by
  intro p
  obtain ⟨hnone, hsome⟩ := h p
  by_cases hpq : p = q
  · subst hpq
    refine ⟨fun hp => ?_, fun a ha => ⟨_, Heap.put_cell_self _ _ _, ?_⟩⟩
    · rw [hnone hp] at hq; cases hq
    · obtain ⟨b, hb, hab⟩ := hsome a ha
      obtain rfl := Option.some.inj (hq.symm.trans hb)
      exact hab.trans hupd
  · rw [Heap.put_cell_of_ne _ _ hpq]
    exact ⟨hnone, hsome⟩

/-- What the match branch does: it marks the request, and changes one link. -/
theorem cancelMatch_spec {r r' : Requests} {prev : Option Addr} {p : Addr} {req : AsyncRequest}
    (hp : r.heap.cell p = some (.host req)) (h : cancelMatch r prev p req = some r') :
    HeapUpdated r.heap r'.heap ∧
      ∃ req', r'.heap.cell p = some (.host req') ∧ req'.cancelled = true := by
  -- the store of the mark, and then the one of the link
  have hmarked : HeapUpdated r.heap (r.heap.put p (.host { req with cancelled := true })) :=
    (HeapUpdated.refl r.heap).put hp
      (show Record.Updated (.host req) (.host _) from ⟨rfl, rfl, rfl, fun _ => rfl⟩)
  unfold cancelMatch at h
  cases prev with
  | none =>
    obtain rfl := Option.some.inj h
    exact ⟨hmarked, _, Heap.put_cell_self _ _ _, rfl⟩
  | some q =>
    dsimp only at h
    split at h
    · rename_i before hq
      obtain rfl := Option.some.inj h
      refine ⟨hmarked.put hq (show Record.Updated (.host before) (.host _) from
        ⟨rfl, rfl, rfl, id⟩), ?_⟩
      by_cases hpq : p = q
      · subst hpq
        rw [Heap.put_cell_self] at hq
        obtain rfl := Record.host.inj (Option.some.inj hq)
        exact ⟨_, Heap.put_cell_self _ _ _, rfl⟩
      · refine ⟨{ req with cancelled := true }, ?_, rfl⟩
        show (Heap.put _ q _).cell p = _
        rw [Heap.put_cell_of_ne _ _ hpq]
        exact Heap.put_cell_self _ _ _
    · cases h

/-- **Frame.**  Whatever the list, a cancellation that returns changes no request but for
    links and marks. -/
theorem cancelLoop_updated {h : HANDLE} {r r' : Requests} {n : Nat} {prev cur : Option Addr}
    (hc : cancelLoop h r n prev cur = some r') : HeapUpdated r.heap r'.heap := by
  induction n generalizing prev cur with
  | zero =>
    cases cur with
    | none =>
      obtain rfl := Option.some.inj hc
      exact .refl _
    | some p => cases hc
  | succ n ih =>
    cases cur with
    | none =>
      obtain rfl := Option.some.inj hc
      exact .refl _
    | some p =>
      simp only [cancelLoop] at hc
      split at hc
      · rename_i req hp
        split at hc
        · exact (cancelMatch_spec hp hc).1
        · exact ih hc
      · cases hc

theorem cancel_updated {h : HANDLE} {r r' : Requests} (hc : wsaCancelAsyncRequest r h = some r') :
    HeapUpdated r.heap r'.heap := cancelLoop_updated hc

/-- The loop marks the request whose address is the handle, if it leads there. -/
theorem cancelLoop_marks {h : HANDLE} {r r' : Requests} {n : Nat} {prev cur : Option Addr}
    (hreach : Reaches Record.next r.heap h cur) (hc : cancelLoop h r n prev cur = some r') :
    ∃ req', r'.heap.cell h = some (.host req') ∧ req'.cancelled = true := by
  induction hreach generalizing n prev with
  | @here x hx =>
    cases n with
    | zero => cases hc
    | succ n =>
      simp only [cancelLoop, hx] at hc
      cases x with
      | service req => cases hc
      | host req =>
        have hc : cancelMatch r prev h req = some r' := by simpa using hc
        exact (cancelMatch_spec hx hc).2
  | @later p x hx _ ih =>
    cases n with
    | zero => cases hc
    | succ n =>
      simp only [cancelLoop, hx] at hc
      cases x with
      | service req => cases hc
      | host req =>
        dsimp only at hc
        by_cases hph : p = h
        · rw [if_pos hph] at hc
          subst hph
          exact (cancelMatch_spec hx hc).2
        · rw [if_neg hph] at hc
          exact ih hc

/-- **A request that is found is marked.** -/
theorem cancel_marks {h : HANDLE} {r r' : Requests}
    (hreach : Reaches Record.next r.heap h r.head) (hc : wsaCancelAsyncRequest r h = some r') :
    ∃ req', r'.heap.cell h = some (.host req') ∧ req'.cancelled = true :=
  cancelLoop_marks hreach hc

end LinuxWinsock.Async
