import LinuxWinsock.Async.Calls

namespace LinuxWinsock.Async

open Function TransitionSystem

/-!
# Lookups and the static storage of the resolver

A lookup thread copies the structure that the resolver returned, but not what its pointers
lead to: that stays in the static storage of the resolver function, which the next call of
the same function overwrites.

* `served_step` — the lookups keep finding their answers exactly if each call of the resolver
  leaves the answers of the others as they are, and each copy their buffers;
* `served_iff_undisturbed` — the same for whole runs;
* `lookups_answered` — so in such a run, once all threads have finished, each request finds
  the answer to its own question through the structure in its buffer.
-/

variable {resolve : Query → Option Answer} {w w' : World} {l : Label} {tr : Trace}

/-! ### What a lookup needs of the shared storage -/

/-- The answer that is read through the structure in the buffer. -/
def follow (w : World) (b : Addr) : Option Answer :=
  (w.buffers b).map (fun s => ⟨s.fixed, (w.static s.source).pointed⟩)

/-- The storage of the function of `rec` and the buffer of `rec` hold what a thread at `pc`
    needs for the answer `a`: all of it up to the copy, and then what is pointed to. -/
def Serves (w : World) (rec : Record) (a : Answer) : Option ThreadPc → Prop
  | some (.answered found) => found = true ∧ w.static rec.query.function = a
  | some .copy => w.static rec.query.function = a
  | some .done => ∃ b, rec.buffer = some b ∧
      w.buffers b = some ⟨a.fixed, rec.query.function⟩ ∧
      (w.static rec.query.function).pointed = a.pointed
  | _ => True

/-- The lookup for the request at `p` finds its answer, if there is one. -/
def Served (resolve : Query → Option Answer) (w : World) (p : Addr) : Prop :=
  ∀ rec a, w.requests.cell p = some rec → resolve rec.query = some a → Serves w rec a (w.threads p)

/-- No request is marked, and the service requests have passed their checks. -/
def Wanted (w : World) : Prop := ∀ p rec, w.requests.cell p = some rec → rec.wanted = true

/-- The answer left in the static storage agrees with what a thread at `pc` needs. -/
def Agrees (new a : Answer) : Option ThreadPc → Prop
  | some (.answered _) => new = a
  | some .copy => new = a
  | some .done => new.pointed = a.pointed
  | _ => True

/-- A call of the resolver leaves in its static storage what agrees with the answers of the
    other requests of the same function, and a copy leaves the buffers of the other finished
    requests as they are. -/
def Undisturbed (resolve : Query → Option Answer) (w : World) : Label → Prop
  | .thread p scratch => ∀ rec, w.requests.cell p = some rec →
      ∀ hd q other a, HandleOf w hd q → w.requests.cell q = some other →
        resolve other.query = some a →
          (w.threads p = some .resolve → other.query.function = rec.query.function →
            Agrees ((resolve rec.query).getD scratch) a (w.threads q)) ∧
          (w.threads p = some .copy → w.threads q = some .done → other.buffer = rec.buffer →
            ∀ b, rec.buffer = some b →
              w.buffers b = some ⟨(w.static rec.query.function).fixed, rec.query.function⟩)
  | _ => True

theorem Record.Updated.serves {rec rec' : Record} (h : rec.Updated rec') {a : Answer}
    {pc : Option ThreadPc} (hs : Serves w rec a pc) : Serves w rec' a pc := by
  unfold Serves
  rw [h.query, h.buffer]
  exact hs

/-! ### Steps of others -/

/-- A thread that is new has not asked yet. -/
theorem thread_new {p : Addr} (hs : Step resolve w l w') (h : w.threads p = none) :
    w'.threads p = none ∨ w'.threads p = some .start ∨ w'.threads p = some .resolve := by
  -- a thread that this step starts, and one that it moves
  have hset : ∀ (q : Addr) (pc : ThreadPc), (pc = .start ∨ pc = .resolve) →
      update w.threads q (some pc) p = none ∨ update w.threads q (some pc) p = some .start ∨
        update w.threads q (some pc) p = some .resolve := by
    intro q pc hpc
    by_cases hpq : p = q
    · rw [hpq, update_self]
      rcases hpc with rfl | rfl
      · exact .inr (.inl rfl)
      · exact .inr (.inr rfl)
    · rw [update_of_ne hpq]
      exact .inl h
  have hother : ∀ {q : Addr} (pc : ThreadPc) {pc' : ThreadPc}, w.threads q = some pc' →
      update w.threads q (some pc) p = none := by
    intro q pc pc' hq
    have hpq : p ≠ q := by
      rintro rfl
      rw [h] at hq; cases hq
    rw [update_of_ne hpq]
    exact h
  cases hs with
  | started _ => exact hset _ _ (.inl rfl)
  | serviceStarted _ _ _ => exact hset _ _ (.inr rfl)
  | tested pc _ => exact .inl (hother _ pc)
  | resolved pc _ => exact .inl (hother _ pc)
  | dropped pc _ _ => exact .inl (hother _ pc)
  | chosen pc _ _ => exact .inl (hother _ pc)
  | copied pc _ _ => exact .inl (hother _ pc)
  | _ => exact .inl h

/-- A step of another: what the lookup finds depends on the storage alone. -/
theorem served_other {p : Addr} (hinv : CallInv w) (hs : Step resolve w l w')
    (hl : ∀ scratch, l ≠ .thread p scratch) (h : Served resolve w p)
    (hkeep : ∀ hd rec a, HandleOf w hd p → w.requests.cell p = some rec →
      resolve rec.query = some a → Serves w rec a (w.threads p) →
      Serves w' rec a (w.threads p)) : Served resolve w' p := by
  intro rec' a hrec' hans
  cases hpc : w.threads p with
  | none =>
    rcases thread_new hs hpc with hpc' | hpc' | hpc' <;> rw [hpc'] <;> trivial
  | some pc =>
    obtain ⟨hd, hret⟩ := (hinv.threads p).mp (by rw [hpc]; nofun)
    obtain ⟨rec, hrec⟩ := Option.ne_none_iff_exists'.mp (hret.allocated hinv)
    obtain ⟨rec'', hrec'', hupd⟩ := hret.updated hinv hs hrec
    obtain rfl := Option.some.inj (hrec''.symm.trans hrec')
    rw [hret.thread_kept hinv hs hl]
    rw [hupd.query] at hans
    exact hupd.serves (hkeep hd rec a hret hrec hans (h rec a hrec hans))

/-- The storage is the same. -/
theorem Serves.congr {rec : Record} {a : Answer} {pc : Option ThreadPc} (h : Serves w rec a pc)
    (hstatic : w'.static = w.static) (hbuffers : w'.buffers = w.buffers) : Serves w' rec a pc := by
  unfold Serves
  rw [hstatic, hbuffers]
  exact h

/-- Every step but a cancellation keeps the requests wanted. -/
theorem Wanted.step (h : Wanted w) (hno : NoCancel l) (hs : Step resolve w l w') : Wanted w' := by
  have hput : ∀ {p : Addr} {rec : Record}, rec.wanted = true →
      ∀ q rec', (w.requests.put p rec).cell q = some rec' → rec'.wanted = true := by
    intro p rec hrec q rec' hrec'
    rcases Heap.cell_of_put hrec' with ⟨_, rfl⟩ | ⟨_, hrec'⟩
    · exact hrec
    · exact h q rec' hrec'
  have hfinish : ∀ {p : Addr} {rec : Record} (error : Int), w.requests.cell p = some rec →
      (rec.finish error).wanted = true := by
    intro p rec error live
    have hrec := h p rec live
    cases rec <;> exact hrec
  cases hs with
  | @hostAllocated c call p pc fresh => cases call <;> exact hput rfl
  | @inserted c p req pc live =>
    have hreq : (Record.host req).wanted = true := h p _ live
    exact hput hreq
  | @released c p pc =>
    intro q rec hrec
    exact h q rec (Heap.cell_of_free hrec).2
  | serviceStarted _ request _ => exact hput (fits_of_request request)
  | cancelled _ => exact absurd hno id
  | dropped _ live _ => exact hput (hfinish _ live)
  | copied _ live _ => exact hput (hfinish _ live)
  | _ => exact h

/-! ### Calls of the resolver and copies -/

/-- A call of the resolver keeps what a thread needs exactly if what it leaves agrees. -/
theorem serves_resolved {rec : Record} {a new : Answer} {pc : Option ThreadPc} {f : ResolverFn}
    (h : Serves w rec a pc) (hstatic : w'.static = update w.static f new)
    (hbuffers : w'.buffers = w.buffers) :
    Serves w' rec a pc ↔ (rec.query.function = f → Agrees new a pc) := by
  by_cases hf : rec.query.function = f
  · have hnew : w'.static rec.query.function = new := by rw [hstatic, hf, update_self]
    unfold Serves Agrees at *
    rw [hnew, hbuffers]
    cases pc with
    | none => simp
    | some pc =>
      cases pc with
      | answered found => simp [hf, h.1]
      | copy => simp [hf]
      | done =>
        obtain ⟨b, hb, hres, _⟩ := h
        constructor
        · rintro ⟨_, _, _, hpointed⟩ _
          exact hpointed
        · intro hpointed
          exact ⟨b, hb, hres, hpointed hf⟩
      | _ => simp
  · have hold : w'.static rec.query.function = w.static rec.query.function := by
      rw [hstatic, update_of_ne hf]
    refine iff_of_true ?_ (fun heq => absurd heq hf)
    unfold Serves at *
    rw [hold, hbuffers]
    exact h

/-- A copy keeps what a thread needs exactly if it leaves its buffer as it is. -/
theorem serves_copied {rec : Record} {a : Answer} {pc : Option ThreadPc} {b : Addr}
    {res : ResultStruct} (h : Serves w rec a pc) (hstatic : w'.static = w.static)
    (hbuffers : w'.buffers = update w.buffers b (some res)) :
    Serves w' rec a pc ↔ (pc = some .done → rec.buffer = some b → w.buffers b = some res) := by
  by_cases hpc : pc = some .done
  · subst hpc
    obtain ⟨b', hb', hres, hpointed⟩ := h
    -- only a finished lookup reads its buffer, and only its own
    by_cases hbb : b' = b
    · subst hbb
      constructor
      · rintro ⟨b, hb, hnew, _⟩ _ _
        obtain rfl := Option.some.inj (hb'.symm.trans hb)
        rw [hbuffers, update_self] at hnew
        rw [hres, hnew]
      · intro hkeep
        refine ⟨b', hb', ?_, by rw [hstatic]; exact hpointed⟩
        rw [hbuffers, update_self, ← hkeep rfl hb', hres]
    · refine iff_of_true ⟨b', hb', ?_, by rw [hstatic]; exact hpointed⟩ (fun _ hb => ?_)
      · rw [hbuffers, update_of_ne hbb]
        exact hres
      · exact absurd (Option.some.inj (hb'.symm.trans hb)) hbb
  · refine iff_of_true ?_ (fun heq => absurd heq hpc)
    cases pc with
    | none => exact h
    | some pc =>
      cases pc with
      | done => exact absurd rfl hpc
      | answered found =>
        refine ⟨h.1, ?_⟩
        rw [hstatic]
        exact h.2
      | copy =>
        show w'.static _ = a
        rw [hstatic]
        exact h
      | _ => trivial

/-- A thread step that touches no storage disturbs nothing. -/
theorem undisturbed_of_pc {p : Addr} {scratch : Answer} (hr : w.threads p ≠ some .resolve)
    (hc : w.threads p ≠ some .copy) : Undisturbed resolve w (.thread p scratch) :=
  fun _ _ _ _ _ _ _ _ _ => ⟨fun h => absurd h hr, fun h => absurd h hc⟩

/-- The lookups find their answers after a thread step exactly if its own does and the storage
    still serves the others. -/
theorem served_thread {p : Addr} {scratch : Answer} (hinv : CallInv w)
    (hs : Step resolve w (.thread p scratch) w') (h : ∀ q, Served resolve w q)
    (hown : Served resolve w' p) (hcell : ∀ q, q ≠ p → w'.requests.cell q = w.requests.cell q) :
    (∀ q, Served resolve w' q) ↔
      ∀ hd q rec a, q ≠ p → HandleOf w hd q → w.requests.cell q = some rec →
        resolve rec.query = some a → Serves w' rec a (w.threads q) := by
  have hl : ∀ q, q ≠ p → ∀ scratch', Label.thread p scratch ≠ .thread q scratch' := by
    intro q hqp scratch' heq
    exact hqp (Label.thread.inj heq).1.symm
  constructor
  · intro hall hd q rec a hqp hret hrec hans
    have hserves := hall q rec a (by rw [hcell q hqp]; exact hrec) hans
    rw [hret.thread_kept hinv hs (hl q hqp)] at hserves
    exact hserves
  · intro hserves q
    by_cases hqp : q = p
    · rw [hqp]
      exact hown
    · exact served_other hinv hs (hl q hqp) (h q)
        (fun hd rec a hret hrec hans _ => hserves hd q rec a hqp hret hrec hans)

/-- A call of the resolver: what it leaves has to serve the other threads. -/
theorem served_resolved {p : Addr} {scratch : Answer} {rec : Record} (hinv : CallInv w)
    (h : ∀ q, Served resolve w q) (pc : w.threads p = some .resolve)
    (live : w.requests.cell p = some rec) :
    (∀ q, Served resolve
      ({ w with
        static := update w.static rec.query.function ((resolve rec.query).getD scratch)
        }.setThread p (.answered (resolve rec.query).isSome)) q) ↔
      Undisturbed resolve w (.thread p scratch) := by
  refine (served_thread hinv (.resolved pc live) h ?_ (fun _ _ => rfl)).trans ?_
  · intro rec' a hrec' hans
    obtain rfl := Option.some.inj (live.symm.trans hrec')
    show Serves _ rec a (update w.threads p _ p)
    rw [update_self]
    refine ⟨by rw [hans]; rfl, ?_⟩
    show update w.static _ _ _ = a
    rw [update_self, hans]
    rfl
  · constructor
    · intro hserves rec' hrec' hd q other a hret hother hans
      obtain rfl := Option.some.inj (live.symm.trans hrec')
      refine ⟨fun _ => ?_, fun hc => ?_⟩
      · -- the thread itself needs nothing of the storage before its call
        by_cases hqp : q = p
        · rw [hqp, pc]
          exact fun _ => trivial
        · exact (serves_resolved (h q other a hother hans) (by rfl) (by rfl)).mp
            (hserves hd q other a hqp hret hother hans)
      · rw [pc] at hc; cases hc
    · intro hund hd q other a _ hret hother hans
      exact (serves_resolved (h q other a hother hans) (by rfl) (by rfl)).mpr
        ((hund rec live hd q other a hret hother hans).1 pc)

/-- A copy: its buffer has to serve the other threads. -/
theorem served_copied {p : Addr} {scratch : Answer} {rec : Record} {b : Addr} (hinv : CallInv w)
    (h : ∀ q, Served resolve w q) (pc : w.threads p = some .copy)
    (live : w.requests.cell p = some rec) (buffer : rec.buffer = some b) :
    (∀ q, Served resolve
      ({ w with
        buffers := update w.buffers b
          (some ⟨(w.static rec.query.function).fixed, rec.query.function⟩)
        requests := w.requests.put p rec.succeed
        }.setThread p .done) q) ↔
      Undisturbed resolve w (.thread p scratch) := by
  have hs : Step resolve w (.thread p scratch) _ := .copied pc live buffer
  refine (served_thread hinv hs h ?_ (fun q hqp => Heap.put_cell_of_ne _ _ hqp)).trans ?_
  · intro rec' a hrec' hans
    obtain rfl := Option.some.inj ((Heap.put_cell_self _ _ _).symm.trans hrec')
    have hupd := Record.updated_finish rec 0
    rw [show rec.succeed.query = rec.query from hupd.query] at hans
    have hserves := h p rec a live hans
    rw [pc] at hserves
    -- what is copied is still the answer to its own question
    have hstatic : w.static rec.query.function = a := hserves
    show Serves _ rec.succeed a (update w.threads p _ p)
    rw [update_self]
    refine hupd.serves ⟨b, buffer, ?_, ?_⟩
    · show update w.buffers b _ b = _
      rw [update_self, hstatic]
    · show (w.static _).pointed = a.pointed
      rw [hstatic]
  · constructor
    · intro hserves rec' hrec' hd q other a hret hother hans
      obtain rfl := Option.some.inj (live.symm.trans hrec')
      refine ⟨fun hr => ?_, fun _ hdone hsame b' hb' => ?_⟩
      · rw [pc] at hr; cases hr
      · obtain rfl := Option.some.inj (buffer.symm.trans hb')
        have hqp : q ≠ p := by
          rintro rfl
          rw [pc] at hdone; cases hdone
        exact (serves_copied (h q other a hother hans) (by rfl) (by rfl)).mp
          (hserves hd q other a hqp hret hother hans) hdone (hsame.trans buffer)
    · intro hund hd q other a _ hret hother hans
      refine (serves_copied (h q other a hother hans) (by rfl) (by rfl)).mpr (fun hdone hb => ?_)
      exact (hund rec live hd q other a hret hother hans).2 pc hdone (hb.trans buffer.symm) b
        buffer

/-- **The lookups and the shared storage.**  Every step but a cancellation lets the lookups
    find their answers exactly if it disturbs none. -/
theorem served_step (hinv : CallInv w) (hw : Wanted w) (h : ∀ q, Served resolve w q)
    (hno : NoCancel l) (hs : Step resolve w l w') :
    (∀ q, Served resolve w' q) ↔ Undisturbed resolve w l := by
  have hcall : (∀ q scratch, l ≠ .thread q scratch) → w'.static = w.static →
      w'.buffers = w.buffers → ∀ q, Served resolve w' q := by
    intro hl hstatic hbuffers q
    exact served_other hinv hs (hl q) (h q)
      (fun _ _ _ _ _ _ hserves => hserves.congr hstatic hbuffers)
  have hquiet : ∀ {p : Addr} {scratch : Answer}, l = .thread p scratch → Served resolve w' p →
      (∀ q, q ≠ p → w'.requests.cell q = w.requests.cell q) → w'.static = w.static →
      w'.buffers = w.buffers → ∀ q, Served resolve w' q := by
    rintro p scratch rfl hown hcell hstatic hbuffers
    refine (served_thread hinv hs h hown hcell).mpr ?_
    intro hd q rec a _ _ hrec hans
    exact (h q rec a hrec hans).congr hstatic hbuffers
  cases hs with
  | @tested p scratch req pc live =>
    refine iff_of_true (hquiet rfl ?_ (fun _ _ => rfl) rfl rfl)
      (undisturbed_of_pc (by rw [pc]; nofun) (by rw [pc]; nofun))
    -- the request is not marked, so the thread goes on
    intro rec a _ _
    have hmark : req.cancelled = false := by simpa [Record.wanted] using hw p _ live
    show Serves _ rec a (update w.threads p _ p)
    rw [update_self, hmark]
    trivial
  | resolved pc live => exact served_resolved hinv h pc live
  | @dropped p scratch found rec pc live unwanted =>
    refine iff_of_true (hquiet rfl ?_ (fun q hqp => Heap.put_cell_of_ne _ _ hqp) rfl rfl)
      (undisturbed_of_pc (by rw [pc]; nofun) (by rw [pc]; nofun))
    intro rec' a hrec' hans
    obtain rfl := Option.some.inj ((Heap.put_cell_self _ _ _).symm.trans hrec')
    rw [(Record.updated_finish rec WSAHOST_NOT_FOUND).query] at hans
    -- an answer that is found is copied
    have hserves := h p rec a live hans
    rw [pc] at hserves
    rw [hserves.1, hw p rec live] at unwanted
    cases unwanted
  | @chosen p scratch rec pc live wanted =>
    refine iff_of_true (hquiet rfl ?_ (fun _ _ => rfl) rfl rfl)
      (undisturbed_of_pc (by rw [pc]; nofun) (by rw [pc]; nofun))
    intro rec' a hrec' hans
    have hserves := h p rec' a hrec' hans
    rw [pc] at hserves
    show Serves _ rec' a (update w.threads p _ p)
    rw [update_self]
    exact hserves.2
  | copied pc live buffer => exact served_copied hinv h pc live buffer
  | cancelled _ => exact absurd hno id
  -- the steps of the calls touch neither the storage nor the buffers
  | _ => exact iff_of_true (hcall nofun rfl rfl) trivial

/-- **Whole runs.**  Without cancellations the lookups find their answers throughout a run
    exactly if no step disturbs them. -/
theorem served_iff_undisturbed (h : (system resolve).Run tr w)
    (hno : AllSteps (fun _ _ l => NoCancel l) tr) :
    Always (fun _ w => Wanted w ∧ ∀ q, Served resolve w q) tr w ↔
      AllSteps (fun _ w l => Undisturbed resolve w l) tr := by
  refine h.always_iff_allSteps ?_ ?_ hno
  · intro s hs
    obtain rfl : s = World.start := hs
    exact ⟨fun p rec hp => (by cases hp), fun q rec a hq => (by cases hq)⟩
  · intro tr s l t hr ⟨hw, hserved⟩ hno hstep
    have hs := step_of_next hstep
    rw [← served_step (callInv_of_run hr) hw hserved hno hs]
    exact ⟨fun hP => hP.2, fun hP => ⟨hw.step hno hs, hP⟩⟩

/-! ### Once all threads have finished -/

/-- If the threads of all requests have finished, each request whose question has an answer
    has a buffer, and following the structure in it yields that answer. -/
def AnswersDelivered (resolve : Query → Option Answer) (w : World) : Prop :=
  (∀ hd p, HandleOf w hd p → w.threads p = some .done) →
    ∀ hd p rec a, HandleOf w hd p → w.requests.cell p = some rec → resolve rec.query = some a →
      ∃ b, rec.buffer = some b ∧ follow w b = some a

/-- **Lookups do not disturb each other** in a run without cancellations in which each call
    of the resolver leaves what agrees with the answers of the others, and each copy leaves
    the buffers of the others as they are. -/
theorem lookups_answered (resolve : Query → Option Answer) (tr : Trace) (w : World)
    (h : (system resolve).Run tr w) (hno : AllSteps (fun _ _ l => NoCancel l) tr)
    (hcond : AllSteps (fun _ w l => Undisturbed resolve w l) tr) :
    Always (fun _ w => AnswersDelivered resolve w) tr w := by
  refine Always.mono ?_ ((served_iff_undisturbed h hno).mpr hcond)
  intro tr w ⟨_, hserved⟩ hdone hd p rec a hret hrec hans
  have hserves := hserved p rec a hrec hans
  rw [hdone hd p hret] at hserves
  obtain ⟨b, hb, hres, hpointed⟩ := hserves
  refine ⟨b, hb, ?_⟩
  unfold follow
  rw [hres, Option.map_some, hpointed]

/-- Two service calls have returned, and no other call has been made. -/
theorem eq_or_eq_of_handleOf {hd : HANDLE} {p q r : Addr} (h₀ : w.calls 0 = .serviceReturned p)
    (h₁ : w.calls 1 = .serviceReturned q) (hrest : ∀ c, w.calls (c + 2) = .idle)
    (hret : HandleOf w hd r) : r = p ∨ r = q := by
  obtain ⟨c, hc⟩ := hret
  rcases c with _ | _ | c
  · rw [h₀] at hc
    rcases hc with hc | ⟨hc, _⟩
    · cases hc
    · exact .inl (CallPc.serviceReturned.inj hc).symm
  · rw [h₁] at hc
    rcases hc with hc | ⟨hc, _⟩
    · cases hc
    · exact .inr (CallPc.serviceReturned.inj hc).symm
  · rw [hrest c] at hc
    rcases hc with hc | ⟨hc, _⟩ <;> cases hc

/-- A resolver that knows two services and a protocol. -/
def knowsThree : Query → Option Answer
  | .getservbyname [97] none => some ⟨[80], [[97]]⟩
  | .getservbyname [98] none => some ⟨[25], [[98]]⟩
  | .getprotobyname [99] => some ⟨[6], [[99]]⟩
  | _ => none

/-- A lookup of a service and one of a protocol overlap: they use different functions of the
    resolver. -/
theorem lookups_answered_of_two_functions : ∃ tr w, (system knowsThree).Run tr w ∧
    follow w 1 = some ⟨[80], [[97]]⟩ ∧ follow w 2 = some ⟨[6], [[99]]⟩ ∧
    Always (fun _ w => AnswersDelivered knowsThree w) tr w := by
  have hrun := run_of_exec_isSome World.start (next knowsThree)
    [.serviceCall 0 (.servByName (some [97]) none (some 1) 64) (some 100) true,
      .serviceCall 1 (.protoByName (some [99]) (some 2) 64) (some 101) true,
      .thread 100 ⟨[], []⟩, .thread 101 ⟨[], []⟩, .thread 100 ⟨[], []⟩, .thread 101 ⟨[], []⟩,
      .thread 100 ⟨[], []⟩, .thread 101 ⟨[], []⟩] rfl
  refine ⟨_, _, hrun, rfl, rfl, lookups_answered knowsThree _ _ hrun ?_ ?_⟩
  · exact ⟨trivial, trivial, trivial, trivial, trivial, trivial, trivial, trivial, trivial⟩
  · show Undisturbed _ _ _ ∧ Undisturbed _ _ _ ∧ Undisturbed _ _ _ ∧ Undisturbed _ _ _ ∧
      Undisturbed _ _ _ ∧ Undisturbed _ _ _ ∧ True ∧ True ∧ True
    refine ⟨?_, ?_, undisturbed_of_pc nofun nofun, undisturbed_of_pc nofun nofun, ?_, ?_, trivial,
      trivial, trivial⟩
    · intro rec hrec hd q other a hret hother _
      refine ⟨nofun, fun _ hdone hsame => ?_⟩
      obtain rfl := Option.some.inj hrec
      obtain rfl | rfl := eq_or_eq_of_handleOf rfl rfl (fun _ => rfl) hret
      · -- the buffers are different
        obtain rfl := Option.some.inj hother
        cases hsame
      · cases hdone
    · intro rec hrec hd q other a hret hother _
      refine ⟨nofun, fun _ hdone _ => ?_⟩
      obtain rfl | rfl := eq_or_eq_of_handleOf rfl rfl (fun _ => rfl) hret
      · cases hdone
      · cases hdone
    · intro rec hrec hd q other a hret hother _
      refine ⟨fun _ hf => ?_, nofun⟩
      obtain rfl := Option.some.inj hrec
      obtain rfl | rfl := eq_or_eq_of_handleOf rfl rfl (fun _ => rfl) hret
      · -- the functions are different
        obtain rfl := Option.some.inj hother
        cases hf
      · trivial
    · intro rec hrec hd q other a hret hother _
      refine ⟨fun _ _ => ?_, nofun⟩
      obtain rfl | rfl := eq_or_eq_of_handleOf rfl rfl (fun _ => rfl) hret
      · trivial
      · trivial

/-- Two lookups of services overlap: the second call of `getservbyname` overwrites the answer
    to the first before it is copied. -/
theorem lookup_disturbed : ∃ tr w, (system knowsThree).Run tr w ∧
    AllSteps (fun _ _ l => NoCancel l) tr ∧ follow w 1 = some ⟨[25], [[98]]⟩ ∧
    ¬ AnswersDelivered knowsThree w := by
  have hrun := run_of_exec_isSome World.start (next knowsThree)
    [.serviceCall 0 (.servByName (some [97]) none (some 1) 64) (some 100) true,
      .serviceCall 1 (.servByName (some [98]) none (some 2) 64) (some 101) true,
      .thread 100 ⟨[], []⟩, .thread 101 ⟨[], []⟩, .thread 100 ⟨[], []⟩, .thread 101 ⟨[], []⟩,
      .thread 100 ⟨[], []⟩, .thread 101 ⟨[], []⟩] rfl
  refine ⟨_, _, hrun, ?_, rfl, fun hdel => ?_⟩
  · exact ⟨trivial, trivial, trivial, trivial, trivial, trivial, trivial, trivial, trivial⟩
  · obtain ⟨b, hb, hfollow⟩ := hdel (fun hd p hret => by
      obtain rfl | rfl := eq_or_eq_of_handleOf rfl rfl (fun _ => rfl) hret <;> rfl)
      100 100 _ _ ⟨0, .inr ⟨rfl, rfl⟩⟩ rfl rfl
    obtain rfl := Option.some.inj hb
    cases hfollow

end LinuxWinsock.Async
