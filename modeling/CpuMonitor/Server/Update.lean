import CpuMonitor.Server.Flow

/-!
# One call of `server_worker_update`

`worker_process_job` calls `server_worker_update(worker, 100)` between two looks at the status of
its process, so it matters that the call returns. The loop counts the messages it has handled, not
its turns: an empty queue does not end it.

* **The worker's thread** `WorkPc.next`: its next step, given what the system answers. The threads
  of the connection go on beside it (`Label.Undisturbed`: any step but an arrival in the incoming
  queue); `updateStep` records the messages passed to `server_worker_send_message`.
* **What a call does** `Updating`: the messages handled so far are the first ones of the queue, in
  order, and each was passed on once it was handled. Kept by every step (`Updating.moved`).
* **It returns** if the queue has as many messages as the call may handle: each of the worker's
  steps then lowers `WorkPc.rank` (`Updating.rank_moved`), and the next one is always defined
  (`exists_next`).
* **It does not** if there are fewer: the call is at no time over (`Updating.length_le`), and the
  worker turns for ever on the empty queue.
-/

namespace CpuMonitor.Server

open CpuMonitor.Lib CpuMonitor.Network

variable {σ ε : Type} {handler : Handler ε σ}

/-! ## The worker's thread -/

/-- The steps of the worker.
Source: `server_worker.c`, `server_worker_update`
Kind: D -/
def Label.ofWorker : Label ε → Bool
  | .workDequeue _ => true
  | .handle _ => true
  | .enqueueOutgoing _ => true
  | .updateReturn _ => true
  | _ => false

/-- The steps beside and of one call: nothing arrives in the incoming queue, the worker is
running, and the lock of the incoming queue is taken and released.
Source: none: infrastructure
Kind: D -/
def Label.Undisturbed : Label ε → Prop
  | .enqueueIncoming _ => False
  | .updateCall _ => False
  | .workDequeue calls => calls = .allOk
  | .updateReturn isRunning => isRunning = true
  | _ => True

/-- What the worker does next, with what the worker function and the enqueue get from the system;
nothing when the call has returned.
Source: `server_worker.c`, `server_worker_update`
Kind: D -/
def WorkPc.next (env : ε) (calls : EnqueueCalls) : WorkPc → Option (Label ε)
  | .out => none
  | .loop 0 => some (.updateReturn true)
  | .loop (_ + 1) => some (.workDequeue .allOk)
  | .got _ _ => some (.handle env)
  | .handled _ _ => some (.enqueueOutgoing calls)

section calls

variable {Q : Type}

/-- The message a step passes to `server_worker_send_message`.
Source: none: infrastructure
Kind: D -/
def Conn.offered (s : Conn Q σ) : Label ε → List Tagged
  | .enqueueOutgoing _ => s.work.answered
  | _ => []

/-- A step, with the messages passed to `server_worker_send_message` so far.
Source: `server_worker.c`, `server_worker_update`
Kind: D -/
def updateStep (ops : QueueOps Q) (handler : Handler ε σ) (x : Conn Q σ × List Tagged)
    (l : Label ε) : Option (Conn Q σ × List Tagged) := do
  let s ← step ops handler x.1 l
  some (s, x.2 ++ x.1.offered l)

/-- The connection when `server_worker_update` has been called.
Source: `server_worker.c`, `server_worker_update`
Kind: D -/
def Conn.called (s : Conn Q σ) (maxMessages : ℕ) : Conn Q σ := { s with work := .loop maxMessages }

end calls

/-- A run beside and of one call.
Source: `server_worker.c`, `server_worker_update`
Kind: D -/
def UpdateRun (handler : Handler ε σ) (s : Conn (MessageQueue Tagged) σ) (maxMessages : ℕ)
    (ls : List (Label ε)) (x : Conn (MessageQueue Tagged) σ × List Tagged) : Prop :=
  Run (updateStep ringOps handler) (fun _ l => l.Undisturbed) (s.called maxMessages, []) ls x

/-- **The call returns**, however the threads interleave and whatever the system answers, with a
certain outcome: the worker has only so many steps to take, and its next one is always defined.
Source: `server_worker.c`, `server_worker_update`
Kind: D -/
structure UpdateReturns (handler : Handler ε σ) (s : Conn (MessageQueue Tagged) σ)
    (maxMessages : ℕ) (outcome : Conn (MessageQueue Tagged) σ × List Tagged → Prop) : Prop where
  bounded : ∃ bound, ∀ ls x, UpdateRun handler s maxMessages ls x →
    ls.countP Label.ofWorker ≤ bound
  defined : ∀ ls x, UpdateRun handler s maxMessages ls x →
    ∀ env calls l, x.1.work.next env calls = some l →
      ∃ x', updateStep ringOps handler x l = some x'
  outcome : ∀ ls x, UpdateRun handler s maxMessages ls x → x.1.work = .out → outcome x

/-- A worker function that returns on the messages it may get, from the states it may be in.
Source: `server_worker.c`, `server_worker_update`
Kind: D -/
def Serves (handler : Handler ε σ) (store : σ → Prop) (request : Message → Prop) : Prop :=
  ∀ env s m, store s → request m → ∃ m' s', handler env s m = some (m', s') ∧ store s'

/-! ## What a call does -/

/-- The message before the worker function.
Source: none: infrastructure
Kind: D -/
def Handled.request (h : Handled) : Tagged := ⟨h.id, h.before⟩

/-- The message after it.
Source: none: infrastructure
Kind: D -/
def Handled.reply (h : Handled) : Tagged := ⟨h.id, h.after⟩

/-- The messages a call may still handle.
Source: none: infrastructure
Kind: D -/
def WorkPc.todo : WorkPc → ℕ
  | .out => 0
  | .loop left => left
  | .got left _ => left + 1
  | .handled left _ => left

/-- A call for at most `maxMessages` of the messages `queued`, after `done` of them: they were the
first ones, in their order, and each has been passed to `server_worker_send_message` unless it is
still in the worker's hands.
Source: none: infrastructure
Kind: D -/
structure Updating (queued : List Tagged) (log : List Handled) (maxMessages : ℕ)
    (s : Conn (Fifo Tagged) σ) (offers : List Tagged) (done : List Handled) : Prop where
  log_eq : s.handledLog = log ++ done
  taken : done.map Handled.request = queued.take done.length
  left : s.requests = queued.drop done.length
  offers : offers ++ s.work.answered = done.map Handled.reply
  count : done.length + s.work.todo = maxMessages

section updating

variable {queued : List Tagged} {log done : List Handled} {maxMessages : ℕ}
  {s s' : Conn (Fifo Tagged) σ} {offers : List Tagged} {l : Label ε}

/-- A call never handles more messages than there are.
Source: `server_worker.c`, `server_worker_update`
Kind: L -/
theorem Updating.length_le (h : Updating queued log maxMessages s offers done) :
    done.length ≤ queued.length := by
  have hlen := congrArg List.length h.taken
  rw [List.length_map, List.length_take] at hlen
  omega

/-- The other threads change nothing the worker is at work on.
Source: `server_worker.c`, `server_worker_update`
Kind: L -/
theorem Moved.work_eq (hm : Moved fifoOps handler s l s') (hl : l.Undisturbed)
    (hworker : l.ofWorker = false) :
    s'.work = s.work ∧ s'.incoming = s.incoming ∧ s'.handledLog = s.handledLog ∧
      s'.store = s.store ∧ s.offered l = [] := by
  cases hm with
  | enqueueIncoming pc enqueue => exact hl.elim
  | updateCall pc => exact hl.elim
  | workEmpty pc dequeue => cases hworker
  | workDequeue pc dequeue => cases hworker
  | handle pc call => cases hworker
  | enqueueOutgoing pc enqueue => cases hworker
  | updateReturn pc isDone => cases hworker
  | _ => exact ⟨rfl, rfl, rfl, rfl, rfl⟩

/-- A call of the worker function: the message in hand joins those handled.
Source: `server_worker.c`, `server_worker_update`
Kind: L -/
theorem Updating.handle (h : Updating queued log maxMessages s offers done) {left : ℕ}
    {t : Tagged} (pc : s.work = .got left t) (m : Message) (store : σ) :
    Updating queued log maxMessages
      { s with
        work := .handled left { t with body := m }
        store := store
        handledLog := s.handledLog ++ [⟨t.id, t.body, m⟩] }
      offers (done ++ [⟨t.id, t.body, m⟩]) := by
  obtain ⟨hlog, htaken, hleft, hoffers, hcount⟩ := h
  rw [Conn.requests, pc] at hleft
  rw [pc] at hoffers hcount
  have hget : queued[done.length]? = some t := by
    rw [← List.head?_drop, ← hleft]
    rfl
  have hrest : s.incoming.items = queued.drop (done.length + 1) := by
    rw [← List.tail_drop, ← hleft]
    rfl
  refine ⟨?_, ?_, ?_, ?_, ?_⟩
  · rw [← List.append_assoc, ← hlog]
  · rw [List.map_append, htaken, List.length_append, List.length_singleton, List.take_add_one,
      hget]
    rfl
  · rw [List.length_append, List.length_singleton, ← hrest]
    rfl
  · rw [List.map_append, ← hoffers, show WorkPc.answered (.got left t) = [] from rfl,
      List.append_nil]
    rfl
  · rw [List.length_append, List.length_singleton]
    simp only [WorkPc.todo] at hcount ⊢
    omega

/-- **One step keeps it**: only the worker function adds a message to those handled.
Source: `server_worker.c`, `server_worker_update`
Kind: P -/
theorem Updating.moved (h : Updating queued log maxMessages s offers done) (hl : l.Undisturbed)
    (hm : Moved fifoOps handler s l s') :
    ∃ done', Updating queued log maxMessages s' (offers ++ s.offered l) done' := by
  have hsame := h
  obtain ⟨hlog, htaken, hleft, hoffers, hcount⟩ := h
  cases hworker : l.ofWorker with
  | false =>
      obtain ⟨hwork, hin, hlog', -, hoffered⟩ := hm.work_eq hl hworker
      refine ⟨done, hlog'.trans hlog, htaken, ?_, ?_, ?_⟩
      · rw [Conn.requests, hwork, hin]
        exact hleft
      · rw [hoffered, List.append_nil, hwork]
        exact hoffers
      · rw [hwork]
        exact hcount
  | true =>
      cases hm with
      | workEmpty pc dequeue =>
          obtain rfl := hl
          obtain ⟨-, rfl⟩ := Fifo.items_eq_nil_of_dequeue_none (Option.some.inj dequeue)
          refine ⟨done, hlog, htaken, hleft, ?_, hcount⟩
          rwa [show s.offered _ = [] from rfl, List.append_nil]
      | @workDequeue calls left q t pc dequeue =>
          obtain ⟨hitems, -⟩ := Fifo.items_of_dequeue_some (Option.some.inj dequeue)
          rw [Conn.requests, pc, hitems] at hleft
          rw [pc] at hoffers hcount
          refine ⟨done, hlog, htaken, hleft, ?_, hcount⟩
          rwa [show s.offered _ = [] from rfl, List.append_nil]
      | @handle env left t m store pc call =>
          rw [show s.offered (.handle env) = [] from rfl, List.append_nil]
          exact ⟨_, hsame.handle pc m store⟩
      | @enqueueOutgoing calls left t status q dropped pc enqueue =>
          rw [Conn.requests, pc] at hleft
          rw [pc] at hoffers hcount
          refine ⟨done, hlog, htaken, hleft, ?_, hcount⟩
          rw [Conn.offered, pc]
          exact (List.append_nil _).trans hoffers
      | @updateReturn isRunning left pc isDone =>
          obtain rfl : left = 0 := isDone.resolve_right (by rw [hl]; decide)
          rw [Conn.requests, pc] at hleft
          rw [pc] at hoffers hcount
          refine ⟨done, hlog, htaken, hleft, ?_, hcount⟩
          rwa [show s.offered _ = [] from rfl, List.append_nil]
      | _ => cases hworker

/-- The steps the worker has to take until the call returns, if it finds a message each time: three
for a message, one to leave the loop.
Source: none: infrastructure
Kind: D -/
def WorkPc.rank : WorkPc → ℕ
  | .out => 0
  | .loop left => 3 * left + 1
  | .got left _ => 3 * left + 3
  | .handled left _ => 3 * left + 2

/-- **With enough messages every step of the worker counts.**
Source: `server_worker.c`, `server_worker_update`
Kind: P -/
theorem Updating.rank_moved (h : Updating queued log maxMessages s offers done)
    (henough : maxMessages ≤ queued.length) (hl : l.Undisturbed)
    (hm : Moved fifoOps handler s l s') :
    s'.work.rank + (if l.ofWorker then 1 else 0) ≤ s.work.rank := by
  cases hworker : l.ofWorker with
  | false => simp [(hm.work_eq hl hworker).1]
  | true =>
      cases hm with
      | @workEmpty calls left q pc dequeue =>
          -- the queue is empty and yet a message is to be handled
          obtain rfl := hl
          obtain ⟨hempty, -⟩ := Fifo.items_eq_nil_of_dequeue_none (Option.some.inj dequeue)
          have hleft := congrArg List.length h.left
          have hcount := h.count
          rw [Conn.requests, pc, hempty, List.length_drop] at hleft
          rw [pc] at hcount
          simp only [WorkPc.unhandled, List.append_nil, List.length_nil] at hleft
          simp only [WorkPc.todo] at hcount
          omega
      | workDequeue pc dequeue => simp [pc, WorkPc.rank]; omega
      | handle pc call => simp [pc, WorkPc.rank]
      | enqueueOutgoing pc enqueue => simp [pc, WorkPc.rank]
      | updateReturn pc isDone => simp [pc, WorkPc.rank]
      | _ => cases hworker

end updating

/-! ## Every run of a call -/

/-- What a run beside and of one call keeps, over ring buffers.
Source: none: infrastructure
Kind: D -/
structure CallInv (store : σ → Prop) (queued : List Tagged) (log : List Handled)
    (maxMessages : ℕ) (x : Conn (MessageQueue Tagged) σ × List Tagged) : Prop where
  valid : x.1.Valid
  fits : x.1.outgoing.capacity - 1 + x.1.outgoing.capacity / 2 ≤ intMax
  store : store x.1.store
  updating : ∃ done, Updating queued log maxMessages x.1.fifo x.2 done

/-- Only the worker function changes its state.
Source: `server_worker.c`, `server_worker_update`
Kind: L -/
theorem Moved.store_cases {s s' : Conn (Fifo Tagged) σ} {l : Label ε}
    (hm : Moved fifoOps handler s l s') :
    s'.store = s.store ∨
      ∃ env t m, t ∈ s.requests ∧ handler env s.store t.body = some (m, s'.store) := by
  cases hm with
  | @handle env left t m store pc call =>
      exact .inr ⟨env, t, m, by rw [Conn.requests, pc]; exact List.mem_cons_self, call⟩
  | _ => exact .inl rfl

section runs

variable {store : σ → Prop} {request : Message → Prop} {queued : List Tagged}
  {log : List Handled} {maxMessages : ℕ} {x x' : Conn (MessageQueue Tagged) σ × List Tagged}
  {l : Label ε}

/-- A request in the queue was there at the call.
Source: `server_worker.c`, `server_worker_update`
Kind: L -/
theorem CallInv.request_of_mem (h : CallInv store queued log maxMessages x)
    (hrequests : ∀ t ∈ queued, request t.body) {t : Tagged} (ht : t ∈ x.1.fifo.requests) :
    request t.body := by
  obtain ⟨done, hdone⟩ := h.updating
  rw [hdone.left] at ht
  exact hrequests t (List.mem_of_mem_drop ht)

/-- One step.
Source: `server_worker.c`, `server_worker_update`
Kind: L -/
theorem CallInv.moved (hserves : Serves handler store request)
    (hrequests : ∀ t ∈ queued, request t.body) (h : CallInv store queued log maxMessages x)
    (hl : l.Undisturbed) (hs : updateStep ringOps handler x l = some x') :
    CallInv store queued log maxMessages x' ∧ Moved fifoOps handler x.1.fifo l x'.1.fifo := by
  obtain ⟨s', hstep, hx'⟩ := Option.bind_eq_some_iff.mp hs
  obtain rfl := Option.some.inj hx'
  obtain ⟨hm, hvalid⟩ := (moved_of_step hstep).refines h.valid
  obtain ⟨done, hdone⟩ := h.updating
  refine ⟨⟨hvalid, ?_, ?_, hdone.moved hl hm⟩, hm⟩
  · have hcap : s'.outgoing.capacity = x.1.outgoing.capacity := hm.capacity_eq.2
    rw [hcap]
    exact h.fits
  · rcases hm.store_cases with hsame | ⟨env, t, m, ht, call⟩
    · exact hsame ▸ h.store
    · obtain ⟨m₁, store₁, hcall, hstore⟩ :=
        hserves env x.1.store t.body h.store (h.request_of_mem hrequests ht)
      obtain ⟨-, rfl⟩ := Prod.mk.inj (Option.some.inj (hcall.symm.trans call))
      exact hstore

/-- **The worker's next step is defined**, whatever the system answers.
Source: `server_worker.c`, `server_worker_update`
Kind: P -/
theorem CallInv.exists_next (hserves : Serves handler store request)
    (hrequests : ∀ t ∈ queued, request t.body) (h : CallInv store queued log maxMessages x)
    {env : ε} {calls : EnqueueCalls} (hnext : x.1.work.next env calls = some l) :
    ∃ x', updateStep ringOps handler x l = some x' := by
  suffices hstep : ∃ s', step ringOps handler x.1 l = some s' by
    obtain ⟨s', hstep⟩ := hstep
    exact ⟨(s', x.2 ++ x.1.offered l), by simp [updateStep, hstep]⟩
  cases hwork : x.1.work with
  | out =>
      rw [hwork] at hnext
      cases hnext
  | loop left =>
      rw [hwork] at hnext
      cases left with
      | zero =>
          cases hnext
          exact ⟨_, step_of_moved (.updateReturn hwork (.inl rfl))⟩
      | succ left =>
          cases hnext
          have hin : x.1.incoming.Represents x.1.incoming.contents := h.valid.1
          obtain ⟨r, q, hdequeue, -⟩ := hin.dequeueNonblocking .allOk
          cases r with
          | none => exact ⟨_, step_of_moved (.workEmpty hwork hdequeue)⟩
          | some t => exact ⟨_, step_of_moved (.workDequeue hwork hdequeue)⟩
  | got left t =>
      rw [hwork] at hnext
      cases hnext
      have ht : t ∈ x.1.fifo.requests := by
        rw [Conn.requests, show x.1.fifo.work = .got left t from hwork]
        exact List.mem_cons_self
      obtain ⟨m, store', call, -⟩ :=
        hserves env x.1.store t.body h.store (h.request_of_mem hrequests ht)
      exact ⟨_, step_of_moved (.handle hwork call)⟩
  | handled left t =>
      rw [hwork] at hnext
      cases hnext
      obtain ⟨⟨status, q, dropped⟩, henqueue⟩ := h.valid.2.exists_enqueue h.fits calls t
      exact ⟨_, step_of_moved (.enqueueOutgoing hwork henqueue)⟩

/-- A call that has not returned has a next step.
Source: `server_worker.c`, `server_worker_update`
Kind: L -/
theorem WorkPc.exists_next_label {pc : WorkPc} (hpc : pc ≠ .out) (env : ε)
    (calls : EnqueueCalls) :
    ∃ l, pc.next env calls = some l ∧ l.ofWorker = true ∧ l.Undisturbed := by
  cases pc with
  | out => exact absurd rfl hpc
  | loop left =>
      cases left with
      | zero => exact ⟨_, rfl, rfl, rfl⟩
      | succ left => exact ⟨_, rfl, rfl, rfl⟩
  | got left t => exact ⟨_, rfl, rfl, trivial⟩
  | handled left t => exact ⟨_, rfl, rfl, trivial⟩

end runs

/-! ## When the call returns -/

/-- What a call for `count` messages leaves: the first ones of the queue went through the worker
function in their order, each once, and what it made of each was passed once to
`server_worker_send_message`.
Source: none: infrastructure
Kind: D -/
def Drained (queued : List Tagged) (s : Conn (MessageQueue Tagged) σ) (count : ℕ)
    (x : Conn (MessageQueue Tagged) σ × List Tagged) : Prop :=
  ∃ done, x.1.handledLog = s.handledLog ++ done ∧
    done.map Handled.request = queued.take count ∧ x.2 = done.map Handled.reply

section call

variable {store : σ → Prop} {request : Message → Prop} (hserves : Serves handler store request)
  {s : Conn (MessageQueue Tagged) σ} {queued : List Tagged}
  (hin : s.incoming.Represents queued) (hrequests : ∀ t ∈ queued, request t.body)
  (hstore : store s.store) (hout : s.outgoing.Valid)
  (hfit : s.outgoing.capacity - 1 + s.outgoing.capacity / 2 ≤ intMax) {maxMessages : ℕ}
  {ls : List (Label ε)} {x : Conn (MessageQueue Tagged) σ × List Tagged}

include hin hstore hout hfit

/-- The invariant holds when the update is called.
Source: `server_worker.c`, `server_worker_update`
Kind: L -/
theorem CallInv.called :
    CallInv store queued s.handledLog maxMessages (s.called maxMessages, []) := by
  refine ⟨⟨hin.valid, hout⟩, hfit, hstore, [], ?_⟩
  refine ⟨(List.append_nil _).symm, rfl, ?_, rfl, Nat.zero_add _⟩
  exact hin.contents_eq

include hserves hrequests

/-- **Every run** of the call keeps it.
Source: `server_worker.c`, `server_worker_update`
Kind: P -/
theorem callInv_of_run (h : UpdateRun handler s maxMessages ls x) :
    CallInv store queued s.handledLog maxMessages x :=
  Run.invariant (CallInv.called hin hstore hout hfit)
    (fun _ _ _ hinv hl hs => (hinv.moved hserves hrequests hl hs).1) h

/-- **With too few messages the call is never over.**
Source: `server_worker.c`, `server_worker_update`
Kind: P -/
theorem not_out_of_lt (hfew : queued.length < maxMessages)
    (h : UpdateRun handler s maxMessages ls x) : x.1.work ≠ .out := by
  intro hwork
  obtain ⟨done, hdone⟩ := (callInv_of_run hserves hin hrequests hstore hout hfit h).updating
  have hcount := hdone.count
  rw [show x.1.fifo.work = .out from hwork, WorkPc.todo] at hcount
  have hle := hdone.length_le
  omega

/-- **The worker turns for ever.**
Source: `server_worker.c`, `server_worker_update`
Kind: P -/
theorem spins_of_lt [Nonempty ε] (hfew : queued.length < maxMessages) (k : ℕ) :
    ∃ ls x, UpdateRun handler s maxMessages ls x ∧ ls.countP Label.ofWorker = k := by
  apply Run.exists_countP
  intro ls x hrun
  have hout' := not_out_of_lt hserves hin hrequests hstore hout hfit hfew hrun
  obtain ⟨l, hnext, hworker, hl⟩ :=
    WorkPc.exists_next_label hout' (Classical.arbitrary ε) EnqueueCalls.allOk
  obtain ⟨x', hs⟩ := (callInv_of_run hserves hin hrequests hstore hout hfit hrun).exists_next
    hserves hrequests hnext
  exact ⟨l, x', hworker, hl, hs⟩

/-- **With enough messages the call returns**, and has handled as many as it may.
Source: `server_worker.c`, `server_worker_update`
Kind: P -/
theorem updateReturns_of_le (henough : maxMessages ≤ queued.length) :
    UpdateReturns handler s maxMessages (Drained queued s maxMessages) where
  bounded := by
    refine ⟨3 * maxMessages + 1, ?_⟩
    intro ls x hrun
    have hrank := Run.countP_add_le Label.ofWorker
      (fun x : Conn (MessageQueue Tagged) σ × List Tagged => x.1.work.rank)
      (CallInv.called hin hstore hout hfit) (fun x l x' hinv hl hs => by
        obtain ⟨hinv', hm⟩ := hinv.moved hserves hrequests hl hs
        obtain ⟨done, hdone⟩ := hinv.updating
        exact ⟨hinv', hdone.rank_moved henough hl hm⟩) hrun
    exact (Nat.le_add_right _ _).trans hrank.2
  defined := by
    intro ls x hrun env calls l hnext
    exact (callInv_of_run hserves hin hrequests hstore hout hfit hrun).exists_next hserves
      hrequests hnext
  outcome := by
    intro ls x hrun hwork
    obtain ⟨done, hdone⟩ := (callInv_of_run hserves hin hrequests hstore hout hfit hrun).updating
    have hcount := hdone.count
    have hoffers := hdone.offers
    rw [show x.1.fifo.work = .out from hwork] at hcount hoffers
    obtain rfl : done.length = maxMessages := hcount
    exact ⟨done, hdone.log_eq, hdone.taken, (List.append_nil _).symm.trans hoffers⟩

/-- **`server_worker_update` returns exactly when the queue holds as many messages as it may
handle.** It has then handled these, in order. With fewer messages it does not return in any
interleaving.
Source: `server_worker.c`, `server_worker_update`
Kind: P -/
theorem update_returns_iff [Nonempty ε] (maxMessages : ℕ) :
    (UpdateReturns handler s maxMessages (Drained queued s (min queued.length maxMessages)) ↔
      maxMessages ≤ queued.length) ∧
    (queued.length < maxMessages →
      ∀ ls x, UpdateRun handler s maxMessages ls x → x.1.work ≠ .out) := by
  refine ⟨⟨?_, ?_⟩, ?_⟩
  · intro hreturns
    by_contra hfew
    obtain ⟨bound, hbound⟩ := hreturns.bounded
    obtain ⟨ls, x, hrun, hcount⟩ := spins_of_lt hserves hin hrequests hstore hout hfit
      (Nat.lt_of_not_le hfew) (bound + 1)
    have hle := hbound ls x hrun
    omega
  · intro henough
    rw [min_eq_right henough]
    exact updateReturns_of_le hserves hin hrequests hstore hout hfit henough
  · intro hfew ls x hrun
    exact not_out_of_lt hserves hin hrequests hstore hout hfit hfew hrun

end call

/-! ## The worker of the server -/

/-- The worker function returns on every message with a whole receive buffer.
Source: `server_worker.c`, `server_worker_update`
Kind: L -/
theorem serves_workerOnMessage :
    Serves workerOnMessage Journal.WellFormed fun m => maxPayload ≤ m.data.length := by
  intro env j m hj hdata
  obtain ⟨m', -, hcall⟩ := workerOnMessage_eq env hdata
  obtain ⟨j', hworker, hj'⟩ := hcall j hj
  exact ⟨m', j', hworker, hj'⟩

/-- A worker with a journal, whose incoming queue is given.
Source: none: infrastructure
Kind: D -/
def workerWith (incoming : MessageQueue Tagged) (j : Journal) :
    Conn (MessageQueue Tagged) Journal :=
  Conn.init (udpSocketCreate ⟨0, 0, 0, 0⟩) incoming emptyQueue j

/-- The queue of a new worker represents the empty list.
Source: `message_queue.c`, `message_queue_create`
Kind: L -/
theorem represents_emptyQueue : emptyQueue.Represents [] :=
  (represents_of_messageQueueCreate messageQueueCreate_emptyQueue (by decide)).2

/-- Its indices stay `int`s.
Source: `message_queue.c`, `message_queue_create`
Kind: L -/
theorem emptyQueue_fits : emptyQueue.capacity - 1 + emptyQueue.capacity / 2 ≤ intMax := by decide

/-- `journal_create` returns a well-formed journal.
Source: `journal.c`, `journal_create`
Kind: L -/
theorem exists_journal_wellFormed :
    ∃ j : Journal, journalCreate .allOk 300 = some j ∧ j.WellFormed := by
  obtain ⟨r, hcreate, hholds⟩ := @journalCreate_holds 300 (by decide) (by norm_num)
  exact ⟨_, hcreate, by norm_num, [], hholds⟩

/-- A message of an unknown type in a receive buffer.
Source: none: infrastructure
Kind: D -/
def queuedRequest : Tagged := ⟨0, ⟨⟨2, 0, firstClient, 0⟩, List.replicate maxPayload 0⟩⟩

/-- There is something that the worker function can get from the system.
Source: none: infrastructure
Kind: D -/
instance : Nonempty HandlerEnv := ⟨quietEnv⟩

/-- One message in the queue, and a call for one.
Source: `server_worker.c`, `server_worker_update`
Kind: C -/
theorem update_returns_for_one :
    ∃ q j, q.Represents [queuedRequest] ∧ journalCreate .allOk 300 = some j ∧
      UpdateReturns workerOnMessage (workerWith q j) 1
        (Drained [queuedRequest] (workerWith q j) 1) := by
  obtain ⟨j, hcreate, hj⟩ := exists_journal_wellFormed
  obtain ⟨q, -, -, hq⟩ := represents_emptyQueue.enqueue (by decide) EnqueueCalls.allOk_lock
    queuedRequest (fun _ => by decide)
  have hrequest : ∀ t ∈ [queuedRequest], maxPayload ≤ t.body.data.length := by
    intro t ht
    rw [List.mem_singleton.mp ht]
    exact (List.length_replicate).ge
  exact ⟨q, j, hq, hcreate, (update_returns_iff (s := workerWith q j) serves_workerOnMessage hq
    hrequest hj represents_emptyQueue.valid emptyQueue_fits 1).1.mpr (Nat.le_refl 1)⟩

/-- **The worker process with nothing to do.** `worker_process_job` calls
`server_worker_update(worker, 100)`; with an empty queue the call is not over at any time, and the
worker takes any number of steps in it.
Source: `server_worker.c`, `server_worker_update`
Kind: C -/
theorem update_spins_on_empty_queue :
    ∃ j, journalCreate .allOk 300 = some j ∧
      (∀ ls x, UpdateRun workerOnMessage (workerWith emptyQueue j) 100 ls x → x.1.work ≠ .out) ∧
      ¬UpdateReturns workerOnMessage (workerWith emptyQueue j) 100
        (Drained [] (workerWith emptyQueue j) 0) := by
  obtain ⟨j, hcreate, hj⟩ := exists_journal_wellFormed
  have hnone : ∀ t ∈ ([] : List Tagged), maxPayload ≤ t.body.data.length :=
    fun t ht => absurd ht List.not_mem_nil
  refine ⟨j, hcreate, ?_, ?_⟩
  · intro ls x hrun
    exact not_out_of_lt (s := workerWith emptyQueue j) serves_workerOnMessage
      represents_emptyQueue hnone hj represents_emptyQueue.valid emptyQueue_fits (by decide) hrun
  · intro hreturns
    obtain ⟨bound, hbound⟩ := hreturns.bounded
    obtain ⟨ls, x, hrun, hcount⟩ := spins_of_lt (s := workerWith emptyQueue j)
      serves_workerOnMessage represents_emptyQueue hnone hj represents_emptyQueue.valid
      emptyQueue_fits (show ([] : List Tagged).length < 100 by decide) (bound + 1)
    have hle := hbound ls x hrun
    omega

end CpuMonitor.Server
