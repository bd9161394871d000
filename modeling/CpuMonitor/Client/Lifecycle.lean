import CpuMonitor.Lib.Run
import CpuMonitor.Server.WorkerLifecycle

/-!
# Starting and stopping a client and a worker

`client/client.c` next to `server/server_worker.c`: a client starts the threads of all its
connections and then sets `is_running`; a worker sets `is_running`, starts the threads of its one
connection and clears it again on a failure. Neither stops the threads it has already started when a
later `pthread_create` fails.

* **The code's model** `clientStart`, `clientStop`. What a worker does (`Server.serverWorkerStart`,
  `Server.serverWorkerStop`) is what a client with one connection does
  (`asClient_serverWorkerStart`).
* `NoStrayThreads`: a component that is not running has no flag set. `Clean` says which calls keep
  it: a start that succeeds, that fails at its first `pthread_create`, or that is made while it is
  running.
* `no_stray_threads_iff` — every run of clean calls keeps it, and any other call breaks it.
-/

namespace CpuMonitor.Client

open CpuMonitor.Lib CpuMonitor.Network CpuMonitor.Server

/-! ## The client -/

/-- Source: `client.h`, `client_status_t`. Kind: D -/
inductive ClientStatus
  | success
  | errorNullPointer
  | errorCreateConnection
  | errorStartThreads
  | errorSendMessage
  | errorReceiveMessage
  | errorInvalidArgument
  | errorThreadOperation
  | errorMemoryAlloc
  deriving DecidableEq

/-- The part of the context that the two functions use; there are `port_count` connections.
Source: `client.h`, `client_context_t`
Kind: D -/
structure ClientContext where
  isRunning : Bool
  connections : List ThreadFlags
  deriving DecidableEq

/-- Source: `client.c`, `client_create_context`. Kind: D -/
def ClientContext.init (portCount : ℕ) : ClientContext :=
  ⟨false, List.replicate portCount .init⟩

/-- The loop of `client_start`, from the connection number `i` on: whether it gets to the end, and
the connections.
Source: `client.c`, `client_start`
Kind: D -/
def startLoop (calls : ℕ → StartCalls) : ℕ → List ThreadFlags → Bool × List ThreadFlags
  | _, [] => (true, [])
  | i, c :: rest =>
      let (received, c₁) := netConnectionStartReceiving (calls i).receive c
      if received ≠ .success then (false, c₁ :: rest)
      else
        let (sent, c₂) := netConnectionStartSending (calls i).send c₁
        if sent ≠ .success then (false, c₂ :: rest)
        else
          let (done, rest') := startLoop calls (i + 1) rest
          (done, c₂ :: rest')

/-- Source: `client.c`, `client_start`. Kind: D
Fidelity: exact (non-null context) -/
def clientStart (calls : ℕ → StartCalls) (context : ClientContext) :
    ClientStatus × ClientContext :=
  if context.isRunning then (.success, context)
  else
    let (done, connections) := startLoop calls 0 context.connections
    if !done then (.errorStartThreads, { context with connections := connections })
    else (.success, ⟨true, connections⟩)

/-- The loop of `client_stop`, which does not look at the statuses.
Source: `client.c`, `client_stop`
Kind: D -/
def stopLoop (joins : ℕ → StopCalls) : ℕ → List ThreadFlags → List ThreadFlags
  | _, [] => []
  | i, c :: rest =>
      (netConnectionStopSending (joins i).send
        (netConnectionStopReceiving (joins i).receive c).2).2 :: stopLoop joins (i + 1) rest

/-- Source: `client.c`, `client_stop`. Kind: D
Fidelity: exact (non-null context) -/
def clientStop (joins : ℕ → StopCalls) (context : ClientContext) : ClientStatus × ClientContext :=
  if !context.isRunning then (.success, context)
  else (.success, ⟨false, stopLoop joins 0 context.connections⟩)

/-! ## A worker is a client with one connection -/

/-- The client with the worker's one connection.
Source: none: infrastructure
Kind: D -/
def asClient (worker : ServerWorker) : ClientContext :=
  ⟨worker.isRunning, [worker.connection]⟩

/-- A start of a worker is a start of the client with its one connection.
Source: `client.c`, `client_start`; `server_worker.c`, `server_worker_start`
Kind: L -/
theorem asClient_serverWorkerStart (calls : StartCalls) (worker : ServerWorker) :
    (clientStart (fun _ => calls) (asClient worker)).2 =
      asClient (serverWorkerStart calls worker).2 := by
  obtain ⟨isRunning, connection⟩ := worker
  cases isRunning with
  | true => rfl
  | false =>
      simp only [clientStart, serverWorkerStart, startLoop, asClient,
        Bool.false_eq_true, if_false]
      split_ifs <;> simp_all

/-- A stop of a worker is a stop of that client.
Source: `client.c`, `client_stop`; `server_worker.c`, `server_worker_stop`
Kind: L -/
theorem asClient_serverWorkerStop (joins : StopCalls) (worker : ServerWorker) :
    (clientStop (fun _ => joins) (asClient worker)).2 =
      asClient (serverWorkerStop joins worker).2 := by
  obtain ⟨isRunning, connection⟩ := worker
  cases isRunning <;> rfl

/-! ## Threads of a component that is not running -/

/-- A client that is not running has no thread.
Source: `client.c`, `client_start`, `client_stop`
Kind: D -/
def ClientContext.NoStrayThreads (s : ClientContext) : Prop :=
  s.isRunning = false → ∀ c ∈ s.connections, c.Quiet

/-- A start of this client leaves no thread behind: it has nothing to do, every `pthread_create`
succeeds, or the first one fails.
Source: `client.c`, `client_start`, `client_stop`
Kind: D -/
def ClientContext.CleanStart (s : ClientContext) (calls : ℕ → StartCalls) : Prop :=
  s.isRunning = true ∨
    (∀ i < s.connections.length, (calls i).receive = true ∧ (calls i).send = true) ∨
    (calls 0).receive = false

section start

variable {calls : ℕ → StartCalls} {c : ThreadFlags} {cs : List ThreadFlags} {s : ClientContext}

/-- One round of the loop, for a connection without threads.
Source: `client.c`, `client_start`
Kind: L -/
theorem startLoop_cons (hc : c.Quiet) (k : ℕ) :
    startLoop calls k (c :: cs) =
      if (calls k).receive = false then (false, c :: cs)
      else if (calls k).send = false then (false, ⟨true, false⟩ :: cs)
      else ((startLoop calls (k + 1) cs).1, ⟨true, true⟩ :: (startLoop calls (k + 1) cs).2) := by
  obtain ⟨isReceiving, isSending⟩ := c
  obtain ⟨rfl, rfl⟩ := hc
  simp only [startLoop, netConnectionStartReceiving, netConnectionStartSending, startThread_false]
  cases (calls k).receive <;> cases (calls k).send <;> rfl

/-- With no thread running, the loop gets to the end exactly if every `pthread_create` succeeds.
Source: `client.c`, `client_start`
Kind: L -/
theorem startLoop_fst_iff (hquiet : ∀ c ∈ cs, c.Quiet) (k : ℕ) :
    (startLoop calls k cs).1 = true ↔
      ∀ i < cs.length, (calls (k + i)).receive = true ∧ (calls (k + i)).send = true := by
  induction cs generalizing k with
  | nil => simp [startLoop]
  | cons c rest ih =>
      have hrest := ih (fun c hc => hquiet c (List.mem_cons_of_mem _ hc)) (k + 1)
      have hshift : (∀ i < rest.length, (calls (k + 1 + i)).receive = true ∧
          (calls (k + 1 + i)).send = true) ↔ ∀ i < rest.length,
            (calls (k + (i + 1))).receive = true ∧ (calls (k + (i + 1))).send = true := by
        simp only [Nat.add_assoc, Nat.add_comm 1]
      rw [startLoop_cons (hquiet c List.mem_cons_self), List.length_cons, Nat.forall_lt_succ_left]
      split_ifs with hreceive hsend
      · simp [hreceive]
      · simp [hsend]
      · rw [hrest, hshift]
        simp [hreceive, hsend]

/-- A loop that ends early has left a thread running, unless it was the very first
`pthread_create` that failed.
Source: `client.c`, `client_start`
Kind: L -/
theorem quiet_startLoop_iff (hquiet : ∀ c ∈ cs, c.Quiet)
    (hfailed : (startLoop calls 0 cs).1 = false) :
    (∀ c ∈ (startLoop calls 0 cs).2, c.Quiet) ↔ (calls 0).receive = false := by
  cases cs with
  | nil => simp [startLoop] at hfailed
  | cons c rest =>
      rw [startLoop_cons (hquiet c List.mem_cons_self)]
      split_ifs with hreceive hsend
      · exact ⟨fun _ => hreceive, fun _ => hquiet⟩
      · refine ⟨fun h => ?_, fun h => absurd h hreceive⟩
        exact absurd (h _ List.mem_cons_self).isReceiving (by simp)
      · refine ⟨fun h => ?_, fun h => absurd h hreceive⟩
        exact absurd (h _ List.mem_cons_self).isReceiving (by simp)

/-- **A start** of a client without stray threads leaves none behind exactly if it is clean.
Source: `client.c`, `client_start`
Kind: P -/
theorem noStrayThreads_clientStart_iff (h : s.NoStrayThreads) :
    (clientStart calls s).2.NoStrayThreads ↔ s.CleanStart calls := by
  obtain ⟨isRunning, cs⟩ := s
  cases isRunning with
  | true => exact ⟨fun _ => .inl rfl, fun _ => h⟩
  | false =>
      have hquiet : ∀ c ∈ cs, c.Quiet := h rfl
      have hloop : (startLoop calls 0 cs).1 = true ↔
          ∀ i < cs.length, (calls i).receive = true ∧ (calls i).send = true := by
        simpa only [Nat.zero_add] using startLoop_fst_iff hquiet 0
      cases hdone : (startLoop calls 0 cs).1 with
      | true =>
          -- it is running now
          have hstart : (clientStart calls ⟨false, cs⟩).2 = ⟨true, (startLoop calls 0 cs).2⟩ := by
            simp [clientStart, hdone]
          rw [hstart]
          refine ⟨fun _ => .inr (.inl (hloop.mp hdone)), fun _ hrunning => ?_⟩
          exact absurd hrunning (by simp)
      | false =>
          have hstart : (clientStart calls ⟨false, cs⟩).2 = ⟨false, (startLoop calls 0 cs).2⟩ := by
            simp [clientStart, hdone]
          have hnot : ¬ ∀ i < cs.length, (calls i).receive = true ∧ (calls i).send = true := by
            rw [← hloop, hdone]
            simp
          rw [hstart]
          constructor
          · intro hstray
            exact .inr (.inr ((quiet_startLoop_iff hquiet hdone).mp (hstray rfl)))
          · rintro (hrunning | hall | hfirst) -
            · exact absurd hrunning (by simp)
            · exact absurd hall hnot
            · exact (quiet_startLoop_iff hquiet hdone).mpr hfirst

end start

section stop

variable {joins : ℕ → StopCalls} {s : ClientContext}

/-- The loop of `client_stop` leaves no flag set, whatever the joins answer.
Source: `client.c`, `client_stop`
Kind: L -/
theorem quiet_stopLoop (cs : List ThreadFlags) (k : ℕ) : ∀ c ∈ stopLoop joins k cs, c.Quiet := by
  induction cs generalizing k with
  | nil => exact fun c hc => absurd hc List.not_mem_nil
  | cons c rest ih =>
      intro c' hc'
      rcases List.mem_cons.mp hc' with rfl | hrest
      · exact quiet_of_stop (joins k) c
      · exact ih (k + 1) c' hrest

/-- **A stop** never leaves a thread behind.
Source: `client.c`, `client_stop`
Kind: P -/
theorem noStrayThreads_clientStop (h : s.NoStrayThreads) :
    (clientStop joins s).2.NoStrayThreads := by
  obtain ⟨isRunning, cs⟩ := s
  cases isRunning with
  | true => exact fun _ => quiet_stopLoop cs 0
  | false => exact h

end stop

/-! ## Sequences of calls -/

/-- A call on a client.
Source: `client.c`, `client_start`, `client_stop`
Kind: D -/
def clientStep (s : ClientContext) :
    LifecycleCall (ℕ → StartCalls) (ℕ → StopCalls) → Option ClientContext
  | .start calls => some (clientStart calls s).2
  | .stop joins => some (clientStop joins s).2

/-- A stop is clean, a start as `CleanStart` says.
Source: `client.c`, `client_start`, `client_stop`
Kind: D -/
def ClientContext.Clean (s : ClientContext) :
    LifecycleCall (ℕ → StartCalls) (ℕ → StopCalls) → Prop
  | .start calls => s.CleanStart calls
  | .stop _ => True

/-- A call on a client without stray threads keeps it so exactly if the call is clean.
Source: `client.c`, `client_start`, `client_stop`
Kind: L -/
theorem clientStep_iff {s s' : ClientContext} (h : s.NoStrayThreads)
    {l : LifecycleCall (ℕ → StartCalls) (ℕ → StopCalls)} (hs : clientStep s l = some s') :
    s'.NoStrayThreads ↔ s.Clean l := by
  cases l with
  | start calls =>
      obtain rfl := Option.some.inj hs
      exact noStrayThreads_clientStart_iff h
  | stop joins =>
      obtain rfl := Option.some.inj hs
      exact ⟨fun _ => trivial, fun _ => noStrayThreads_clientStop h⟩

/-- A worker has a stray thread exactly if the client with its connection has.
Source: none: infrastructure
Kind: L -/
theorem noStrayThreads_asClient (s : ServerWorker) :
    (asClient s).NoStrayThreads ↔ s.NoStrayThreads := by
  simp [ServerWorker.NoStrayThreads, ClientContext.NoStrayThreads, asClient]

/-- The same for a call on a worker, carried over from the client with its connection.
Source: `server_worker.c`, `server_worker_start`, `server_worker_stop`
Kind: L -/
theorem serverWorkerStep_iff {s s' : ServerWorker} (h : s.NoStrayThreads)
    {l : LifecycleCall StartCalls StopCalls} (hs : serverWorkerStep s l = some s') :
    s'.NoStrayThreads ↔ s.Clean l := by
  have hclient := (noStrayThreads_asClient s).mpr h
  cases l with
  | start calls =>
      obtain rfl := Option.some.inj hs
      rw [← noStrayThreads_asClient, ← asClient_serverWorkerStart,
        noStrayThreads_clientStart_iff hclient]
      simp only [ClientContext.CleanStart, ServerWorker.Clean, asClient]
      cases calls.receive <;> simp
  | stop joins =>
      obtain rfl := Option.some.inj hs
      rw [← noStrayThreads_asClient, ← asClient_serverWorkerStop]
      exact ⟨fun _ => trivial, fun _ => noStrayThreads_clientStop hclient⟩

/-- **Threads of a component that is not running.** For every number of ports and every sequence of
`client_start` and `client_stop`, and for every sequence of `server_worker_start` and
`server_worker_stop`, with any outcome of each `pthread_create` and `pthread_join`: as long as the
calls are clean, a component that is not running has no flag set; and the next call keeps it so
exactly if it is clean as well.
Source: `client.c`, `client_start`, `client_stop`; `server_worker.c`, `server_worker_start`,
`server_worker_stop`; `net_connection.c`
Kind: P -/
theorem no_stray_threads_iff {portCount : ℕ}
    {ls : List (LifecycleCall (ℕ → StartCalls) (ℕ → StopCalls))} {s : ClientContext}
    (hclient : Run clientStep ClientContext.Clean (.init portCount) ls s)
    {calls : List (LifecycleCall StartCalls StopCalls)} {worker : ServerWorker}
    (hworker : Run serverWorkerStep ServerWorker.Clean .init calls worker) :
    (s.NoStrayThreads ∧
      ∀ l s', clientStep s l = some s' → (s'.NoStrayThreads ↔ s.Clean l)) ∧
    worker.NoStrayThreads ∧
      ∀ l worker', serverWorkerStep worker l = some worker' →
        (worker'.NoStrayThreads ↔ worker.Clean l) := by
  constructor
  · have hinit : (ClientContext.init portCount).NoStrayThreads := by
      intro _ c hc
      rw [List.eq_of_mem_replicate hc]
      exact ThreadFlags.quiet_init
    have hs : s.NoStrayThreads :=
      hclient.invariant hinit fun _ _ _ hs hclean hstep => (clientStep_iff hs hstep).mpr hclean
    exact ⟨hs, fun l s' hstep => clientStep_iff hs hstep⟩
  · have hinit : ServerWorker.init.NoStrayThreads := fun _ => ThreadFlags.quiet_init
    have hs : worker.NoStrayThreads :=
      hworker.invariant hinit fun _ _ _ hs hclean hstep =>
        (serverWorkerStep_iff hs hstep).mpr hclean
    exact ⟨hs, fun l worker' hstep => serverWorkerStep_iff hs hstep⟩

/-- A client with two ports that is started and stopped, and a worker whose first `pthread_create`
fails.
Source: `server_worker.c`, `server_worker_start`, `server_worker_stop`
Kind: C -/
theorem no_stray_threads_at_rest :
    (∃ s, Run clientStep ClientContext.Clean (.init 2)
        [.start fun _ => ⟨true, true⟩, .stop fun _ => ⟨true, true⟩] s ∧ s.isRunning = false ∧
      s.NoStrayThreads) ∧
    ∃ s, Run serverWorkerStep ServerWorker.Clean .init [.start ⟨false, true⟩] s ∧
      s.isRunning = false ∧ s.NoStrayThreads := by
  have hclient : Run clientStep ClientContext.Clean (.init 2)
      [.start fun _ => ⟨true, true⟩, .stop fun _ => ⟨true, true⟩] (.init 2) :=
    .snoc (.snoc .nil (.inr (.inl fun _ _ => ⟨rfl, rfl⟩)) rfl) trivial rfl
  have hworker : Run serverWorkerStep ServerWorker.Clean .init [.start ⟨false, true⟩] .init :=
    .snoc .nil (.inr fun h => absurd h (by simp)) rfl
  obtain ⟨⟨hs, -⟩, hs', -⟩ := no_stray_threads_iff hclient hworker
  exact ⟨⟨_, hclient, rfl, hs⟩, ⟨_, hworker, rfl, hs'⟩⟩

/-- **A thread of a component that is not running.** The receive thread is started, the
`pthread_create` of the send thread fails: the start returns an error, `is_running` is zero,
`is_receiving` is set, and a stop returns success and leaves it so. The same for a client with one
port and for a worker.
Source: `client.c`, `client_start`, `client_stop`; `server_worker.c`, `server_worker_start`
Kind: C -/
theorem failed_start_leaves_thread :
    (clientStart (fun _ => ⟨true, false⟩) (.init 1) =
        (.errorStartThreads, ⟨false, [⟨true, false⟩]⟩) ∧
      (∀ joins, clientStop joins ⟨false, [⟨true, false⟩]⟩ =
        (.success, ⟨false, [⟨true, false⟩]⟩)) ∧
      ¬ (⟨false, [⟨true, false⟩]⟩ : ClientContext).NoStrayThreads) ∧
    serverWorkerStart ⟨true, false⟩ .init = (.errorStartThreads, ⟨false, ⟨true, false⟩⟩) ∧
      (∀ joins, serverWorkerStop joins ⟨false, ⟨true, false⟩⟩ =
        (.success, ⟨false, ⟨true, false⟩⟩)) ∧
      ¬ (⟨false, ⟨true, false⟩⟩ : ServerWorker).NoStrayThreads := by
  refine ⟨⟨rfl, fun _ => rfl, ?_⟩, rfl, fun _ => rfl, ?_⟩
  · intro h
    exact absurd (h rfl _ List.mem_cons_self).isReceiving (by simp)
  · intro h
    exact absurd (h rfl).isReceiving (by simp)

end CpuMonitor.Client
