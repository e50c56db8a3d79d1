import LinuxWinsock.Async.Lengths

namespace LinuxWinsock.Async

open Function TransitionSystem LinkedList

/-!
# What the service lookups ask

A service call copies its strings into arrays of 256 bytes, and its thread reads them back, with
an empty protocol string for `NULL`.

* `nextQuery` — the call of the resolver that a lookup thread is about to make;
* `protoArg_copyProto`, `strncpy255_eq` — which strings survive the arrays;
* `asksQuestion_iff` — a lookup asks the question of its call exactly if the call is refused, or
  its strings fit and its protocol string is not empty.
-/

variable {resolve : Query → Option Answer} {w w' : World} {tr : Trace}

/-! ### The question of a thread -/

/-- The call of the resolver that the thread of the request at `p` makes next. -/
def nextQuery (w : World) (p : Addr) : Option Query :=
  match w.threads p, w.requests.cell p with
  | some .resolve, some rec => some rec.query
  | _, _ => none

theorem nextQuery_eq_some {p : Addr} {query : Query} :
    nextQuery w p = some query ↔ w.threads p = some .resolve ∧
      ∃ rec, w.requests.cell p = some rec ∧ query = rec.query := by
  unfold nextQuery
  constructor
  · intro h
    split at h
    · rename_i rec pc live
      exact ⟨pc, rec, live, (Option.some.inj h).symm⟩
    · cases h
  · rintro ⟨pc, rec, live, rfl⟩
    rw [pc, live]

/-- The static storage of the resolver is changed by these calls only. -/
theorem static_of_nextQuery {l : Label} (hs : Step resolve w l w') : w'.static = w.static ∨
    ∃ p scratch query, l = .thread p scratch ∧ nextQuery w p = some query ∧
      w'.static = update w.static query.function ((resolve query).getD scratch) := by
  cases hs with
  | @resolved p scratch rec pc live =>
    exact .inr ⟨p, scratch, rec.query, rfl, nextQuery_eq_some.mpr ⟨pc, rec, live, rfl⟩, rfl⟩
  | _ => exact .inl rfl

/-- What the caller asks for, if no name is `NULL`. -/
def ServiceCall.question : ServiceCall → Option Query
  | .servByName name proto _ _ => name.map (fun n => .getservbyname n proto)
  | .servByPort port proto _ _ => some (.getservbyport port proto)
  | .protoByName name _ _ => name.map .getprotobyname
  | .protoByNumber number _ _ => some (.getprotobynumber number)

/-! ### The arrays -/

/-- The string fits its array. -/
def FitsArray (s : CString) : Prop := s.length ≤ 255

/-- A protocol string that fits its array and is not taken for `NULL`. -/
def ProtoCarried (proto : Option CString) : Prop := ∀ s, proto = some s → s ≠ [] ∧ FitsArray s

theorem strncpy255_eq {s : CString} : strncpy255 s = s ↔ FitsArray s := List.take_eq_self_iff s

/-- **The protocol string** is read back as it was given exactly if it fits and is not empty. -/
theorem protoArg_copyProto {proto : Option CString} :
    protoArg (copyProto proto) = proto ↔ ProtoCarried proto := by
  cases proto with
  | none => exact iff_of_true rfl nofun
  | some s =>
    have hcopy : copyProto (some s) = strncpy255 s := rfl
    have hcarried : ProtoCarried (some s) ↔ s ≠ [] ∧ FitsArray s := by
      simp [ProtoCarried]
    rw [hcarried, hcopy, ← strncpy255_eq]
    unfold protoArg
    by_cases hempty : strncpy255 s = []
    · rw [if_pos hempty, hempty]
      refine iff_of_false nofun ?_
      rintro ⟨hne, heq⟩
      exact hne heq.symm
    · rw [if_neg hempty, Option.some.injEq]
      refine ⟨fun heq => ⟨?_, heq⟩, fun h => h.2⟩
      rwa [heq] at hempty

/-- The strings of the call survive the arrays. -/
def ServiceCall.Carried : ServiceCall → Prop
  | .servByName name proto _ _ => (∀ n, name = some n → FitsArray n) ∧ ProtoCarried proto
  | .servByPort _ proto _ _ => ProtoCarried proto
  | .protoByName name _ _ => ∀ n, name = some n → FitsArray n
  | .protoByNumber _ _ _ => True

/-- **Round trip.**  The question read from the record is that of the call exactly if its strings
    survive. -/
theorem query_eq_question {call : ServiceCall} {ps : ServiceParams} (h : call.params = some ps) :
    call.question = some ps.query ↔ call.Carried := by
  cases call with
  | servByName name proto buf buflen =>
    obtain ⟨n, rfl, rfl⟩ := Option.map_eq_some_iff.mp h
    simp only [ServiceCall.question, ServiceCall.Carried, ServiceParams.query, Option.map_some,
      Option.some.injEq, Query.getservbyname.injEq, forall_eq', ← strncpy255_eq,
      ← protoArg_copyProto]
    rw [eq_comm (a := n), eq_comm (a := proto)]
  | servByPort port proto buf buflen =>
    obtain rfl := Option.some.inj h
    simp only [ServiceCall.question, ServiceCall.Carried, ServiceParams.query,
      Option.some.injEq, Query.getservbyport.injEq, true_and, ← protoArg_copyProto]
    rw [eq_comm]
  | protoByName name buf buflen =>
    obtain ⟨n, rfl, rfl⟩ := Option.map_eq_some_iff.mp h
    simp only [ServiceCall.question, ServiceCall.Carried, ServiceParams.query, Option.map_some,
      Option.some.injEq, Query.getprotobyname.injEq, forall_eq', ← strncpy255_eq]
    rw [eq_comm]
  | protoByNumber number buf buflen =>
    obtain rfl := Option.some.inj h
    exact iff_of_true rfl trivial

/-! ### The questions in a run -/

/-- The call is refused: an argument is `NULL`, or the buffer is too short and its length not
    negative. -/
def ServiceCall.Refused (call : ServiceCall) : Prop :=
  call.HasNull ∨ (0 ≤ call.buflen.toInt ∧ call.buflen.toInt < call.size)

instance (call : ServiceCall) : Decidable call.Refused :=
  inferInstanceAs (Decidable (call.HasNull ∨ (0 ≤ call.buflen.toInt ∧ call.buflen.toInt < call.size)))

/-- In every run the thread of the call asks the resolver what the caller has asked for. -/
def AsksQuestion (call : ServiceCall) : Prop :=
  ∀ (resolve : Query → Option Answer) (tr : Trace) (w : World) (p : Addr) (query : Query),
    (system resolve).Run tr w → servedCall p tr = some call → nextQuery w p = some query →
    call.question = some query

variable {call : ServiceCall}

/-- The question of a service thread is the one that its call has filled in. -/
theorem query_of_servedBy {p : Addr} {query : Query} (h : ServedBy w p call)
    (hnext : nextQuery w p = some query) : ∃ ps, call.params = some ps ∧ query = ps.query := by
  obtain ⟨-, req, rec, hreq, hrec, hupd⟩ := h
  obtain ⟨-, rec', hrec', rfl⟩ := nextQuery_eq_some.mp hnext
  obtain rfl := Option.some.inj (hrec.symm.trans hrec')
  obtain ⟨ps, b, hps, -, -, rfl⟩ := ServiceCall.request_eq_some.mp hreq
  exact ⟨ps, hps, hupd.query⟩

/-- **Questions.**  The lookup of a service call asks the resolver for exactly the name or the port
    and the protocol string of the caller, or `NULL` for `NULL`, exactly if the call is refused, or
    its strings have at most 255 bytes and its protocol string is not empty. -/
theorem asksQuestion_iff (call : ServiceCall) :
    AsksQuestion call ↔ call.Refused ∨ call.Carried := by
  constructor
  · intro hasks
    by_cases hrefused : call.Refused
    · exact .inl hrefused
    · -- the call starts a lookup, which is about to ask
      have hne : call.request ≠ none := fun hnone => hrefused (ServiceCall.request_eq_none.mp hnone)
      obtain ⟨req, hreq⟩ := Option.ne_none_iff_exists'.mp hne
      obtain ⟨tr, w, hrun, hserved, hpc, hlive⟩ := exists_started (fun _ => none) hreq
      have hquery := hasks _ tr w 100 _ hrun hserved (nextQuery_eq_some.mpr ⟨hpc, _, hlive, rfl⟩)
      obtain ⟨ps, b, hps, -, -, rfl⟩ := ServiceCall.request_eq_some.mp hreq
      exact .inr ((query_eq_question hps).mp hquery)
  · rintro hcond resolve tr w p query hrun hserved hnext
    have hby := servedBy_of_run hrun hserved
    obtain ⟨ps, hps, rfl⟩ := query_of_servedBy hby hnext
    rcases hcond with hrefused | hcarried
    · obtain ⟨-, req, _, hreq, -⟩ := hby
      rw [ServiceCall.request_eq_none.mpr hrefused] at hreq
      cases hreq
    · exact (query_eq_question hps).mpr hcarried

/-- An empty protocol string: the thread asks for any protocol. -/
theorem empty_proto_dropped : ∃ tr w, (system knowsThree).Run tr w ∧
    servedCall 100 tr = some (.servByName (some [97]) (some []) (some 1) 32) ∧
    nextQuery w 100 = some (.getservbyname [97] none) ∧
    ¬ AsksQuestion (.servByName (some [97]) (some []) (some 1) 32) := by
  have hrun := run_of_exec_isSome World.start (next knowsThree)
    [.serviceCall 0 (.servByName (some [97]) (some []) (some 1) 32) (some 100) true] rfl
  refine ⟨_, _, hrun, rfl, rfl, fun hasks => ?_⟩
  have hquery := hasks knowsThree _ _ 100 _ hrun rfl rfl
  exact absurd hquery (by decide)

end LinuxWinsock.Async
