import CpuMonitor.Client.SendPid

/-!
# The client program

`client/client.c`, `client`: the main thread creates and starts a context, creates the thread that
prints, sends the pids of the configuration and deletes the context. The printing thread is neither
stopped nor joined, so it is still there while `client_delete_context` releases what it uses.

* **The state** `Program n`: the place of the main thread and of the printing thread, the queues of
  the `n` connections, the two loop variables of the sending loops, the requests handed over and the
  blocks that have been released.
* **The steps** `programStep`: both threads, and the threads of the connections at the other ends of
  the queues. A thread that would use a released block has no next step. `ProgramMoved` says once
  what a step can do.
* **Turns** `requests_take_turns`: every connection gets the same pids in the same order, none of
  them more than one ahead of another.
* **The race** `printer_race_iff`: the main thread never uses a released block and releases each of
  them once; the printing thread can use one exactly from the first release until the program ends.
-/

namespace CpuMonitor.Client

open CpuMonitor.Lib CpuMonitor.Network

/-! ## The state -/

/-- The blocks of a context with `n` ports; a connection counts with all it has.
Source: `client.h`, `client_context_t`
Kind: D -/
inductive Block (n : ℕ)
  | context
  | sockaddrs
  | connections
  | connection (i : Fin n)
  deriving DecidableEq

/-- What `client_delete_context` releases, in this order.
Source: `client.c`, `client_delete_context`
Kind: D -/
def deleteOrder (n : ℕ) : List (Block n) :=
  (List.finRange n).map .connection ++ [.sockaddrs, .connections, .context]

/-- Where the main thread is.
Source: `client.c`, `client`
Kind: D -/
inductive ProgramPc (n : ℕ)
  /-- Before `client_start`. -/
  | created
  /-- Before `pthread_create`. -/
  | started
  /-- Before the guard of the loop of `client_send_pid_message`. -/
  | sending
  /-- In `client_delete_context`, with these blocks left. -/
  | deleting (left : List (Block n))
  /-- The program has ended. -/
  | returned
  deriving DecidableEq

/-- Where the printing thread is.
Source: `client.c`, `print_received_messages`
Kind: D -/
inductive PrinterPc (n : ℕ)
  /-- It was not created. -/
  | absent
  /-- Before `i < context->port_count`. -/
  | guard (i : ℕ)
  /-- Before `net_connection_receive_nonblocking(context->connections[i])`. -/
  | receive (i : Fin n)
  deriving DecidableEq

/-- The program after `client_create_context`: `call` counts the calls of `client_send_pid_message`
that have returned, `round` is the `i` of the current one, `enqueued` is the history of the requests
that `net_connection_send` has taken.
Source: `client.c`, `client`, `client_start`
Kind: D -/
structure Program (n : ℕ) where
  main : ProgramPc n
  printer : PrinterPc n
  context : SendingContext n
  call : ℕ
  round : ℕ
  enqueued : List (Fin n × Message)
  freed : List (Block n)

/-- The program after the creation of its context.
Source: `client.c`, `client`
Kind: D -/
def Program.init {n : ℕ} (context : SendingContext n) : Program n :=
  ⟨.created, .absent, context, 0, 0, [], []⟩

/-- Who moves, and what the system answers.
Source: `client.c`, `client`, `client_send_pid_message`
Kind: D -/
inductive ProgramLabel (n : ℕ)
  /-- `client_start`. -/
  | start (ok : Bool)
  /-- `pthread_create` of the printing thread. -/
  | create (ok : Bool)
  /-- A round of `client_send_pid_message`. -/
  | send (calls : SendPidCalls)
  /-- Its guard is false, and the call returns. -/
  | next
  /-- The next release of `client_delete_context`, or its end. -/
  | delete
  /-- The printing thread at its guard. -/
  | look
  /-- The printing thread takes a message. -/
  | receive (calls : DequeueCalls)
  /-- The send thread of a connection takes a message. -/
  | depart (i : Fin n) (calls : DequeueCalls)
  /-- The receive thread of a connection adds a message. -/
  | arrive (i : Fin n) (m : Message) (calls : EnqueueCalls)

section model

variable {n : ℕ}

/-- The guard of the loop of `client_send_pid_message`.
Source: `client.c`, `client_start`, `client_send_pid_message`
Kind: D -/
def Program.Guard (s : Program n) : Prop :=
  s.round < n ∧ (s.round = 0 ∨ s.context.mode = .fuzz)

/-- The guard of the sending loop can be evaluated.
Source: none: infrastructure
Kind: D -/
instance (s : Program n) : Decidable s.Guard :=
  inferInstanceAs (Decidable (s.round < n ∧ (s.round = 0 ∨ s.context.mode = .fuzz)))

/-- What a release reads and releases.
Source: `client.c`, `client_delete_context`
Kind: D -/
def Block.uses : Block n → List (Block n)
  | .context => [.context]
  | .sockaddrs => [.context, .sockaddrs]
  | .connections => [.context, .connections]
  | .connection i => [.context, .connections, .connection i]

/-- What the next step of the main thread uses.
Source: `client.c`, `client_start`, `client_send_pid_message`, `client_delete_context`
Kind: D -/
def Program.mainUses (s : Program n) : List (Block n) :=
  match s.main with
  | .created => [.context, .connections] ++ (List.finRange n).map .connection
  | .started => []
  | .sending =>
      if h : s.round < n then
        if s.Guard then [.context, .sockaddrs, .connections, .connection ⟨s.round, h⟩]
        else [.context]
      else [.context]
  | .deleting (b :: _) => b.uses
  | .deleting [] => []
  | .returned => []

/-- What the next step of the printing thread uses.
Source: `client.c`, `print_received_messages`
Kind: D -/
def Program.printerUses (s : Program n) : List (Block n) :=
  match s.printer with
  | .absent => []
  | .guard _ => [.context]
  | .receive i => [.context, .connections, .connection i]

/-- One of these blocks was released.
Source: none: infrastructure
Kind: D -/
def Program.Dangling (s : Program n) (uses : List (Block n)) : Prop := ∃ b ∈ uses, b ∈ s.freed

/-- Whether a use is of a released block can be evaluated.
Source: none: infrastructure
Kind: D -/
instance (s : Program n) (uses : List (Block n)) : Decidable (s.Dangling uses) :=
  inferInstanceAs (Decidable (∃ b ∈ uses, b ∈ s.freed))

/-- What the thread of a label uses.
Source: `client.c`, `client_delete_context`, `client_start`
Kind: D -/
def ProgramLabel.uses (s : Program n) : ProgramLabel n → List (Block n)
  | .start _ | .create _ | .send _ | .next | .delete => s.mainUses
  | .look | .receive _ => s.printerUses
  | .depart i _ | .arrive i _ _ => [.connection i]

/-- The steps of the printing thread.
Source: none: infrastructure
Kind: D -/
def ProgramLabel.ofPrinter : ProgramLabel n → Bool
  | .look | .receive _ => true
  | .start _ | .create _ | .send _ | .next | .delete | .depart _ _ | .arrive _ _ _ => false

/-- The context with another incoming queue at `i`.
Source: `client.c`, `client_send_pid_message`
Kind: D -/
def SendingContext.setIncoming (context : SendingContext n) (i : Fin n)
    (q : MessageQueue Message) : SendingContext n :=
  { context with
    connections := Function.update context.connections i
      { context.connections i with incoming := q } }

/-- The main thread goes to `client_cleanup_context`.
Source: `client.c`, `client`, `client_send_pid_message`
Kind: D -/
def Program.cleanup (s : Program n) : Program n := { s with main := .deleting (deleteOrder n) }

/-- A request is in the outgoing queue of connection `i`, and the loop goes on.
Source: `client.c`, `client`, `client_send_pid_message`
Kind: D -/
def Program.sent (s : Program n) (i : Fin n) (q : MessageQueue Message) (m : Message) :
    Program n :=
  { s with
    context := s.context.setOutgoing i q
    round := s.round + 1
    enqueued := s.enqueued ++ [(i, m)] }

/-! ## The steps -/

/-- What the thread of a label does next.
Source: `client.c`, `client`, `client_send_pid_message`, `client_delete_context`,
`print_received_messages`; `net_connection.c`, the other ends of the queues
Kind: D -/
def threadStep (pids : List (BitVec 32)) (s : Program n) : ProgramLabel n → Option (Program n)
  | .start ok =>
      match s.main with
      | .created => if ok then some { s with main := .started } else some s.cleanup
      | _ => none
  | .create ok =>
      match s.main with
      | .started =>
          if ok then some { s with main := .sending, printer := .guard 0 }
          else some { s with main := .returned }
      | _ => none
  | .send calls =>
      match s.main with
      | .sending =>
          if h : s.Guard then do
            let pid ← pids[s.call % pids.length]?
            let (status, context, sent) ← sendPidRound calls pid ⟨s.round, h.1⟩ s.context
            if status ≠ .success then some { s with context := context }.cleanup
            else
              some { s with
                context := context
                round := s.round + 1
                enqueued := s.enqueued ++ sent.map fun e => (e.connection, e.message) }
          else none
      | _ => none
  | .next =>
      match s.main with
      | .sending =>
          if s.Guard then none
          else
            let s' := { s with call := s.call + 1, round := 0 }
            match s.context.mode with
            | .normal => some s'.cleanup
            | .fuzz => some s'
      | _ => none
  | .delete =>
      match s.main with
      | .deleting (b :: left) => some { s with main := .deleting left, freed := s.freed ++ [b] }
      | .deleting [] => some { s with main := .returned }
      | _ => none
  | .look =>
      match s.printer with
      | .guard i =>
          if h : i < n then some { s with printer := .receive ⟨i, h⟩ }
          else some { s with printer := .guard 0 }
      | _ => none
  | .receive calls =>
      match s.printer with
      | .receive i => do
          let (_, q) ← netConnectionReceiveNonblocking calls (s.context.connections i).incoming
          some { s with printer := .guard (i + 1), context := s.context.setIncoming i q }
      | _ => none
  | .depart i calls => do
      let (_, q) ← messageQueueDequeueNonblocking calls (s.context.connections i).outgoing
      some { s with context := s.context.setOutgoing i q }
  | .arrive i m calls => do
      let (_, q, _) ← messageQueueEnqueue calls (s.context.connections i).incoming m
      some { s with context := s.context.setIncoming i q }

/-- One step of a thread of the program: `none` where the thread is elsewhere, where the program has
ended, or where it would use a released block.
Source: `client.c`, `client`
Kind: D
Fidelity: exact for the threads of `client.c` (non-null context; what is printed, the `sleep`s and
the `client_stop` before the releases are left out); the threads of a connection may use its queues
until it is deleted -/
def programStep (pids : List (BitVec 32)) (s : Program n) (l : ProgramLabel n) :
    Option (Program n) :=
  if s.main = .returned ∨ s.Dangling (l.uses s) then none else threadStep pids s l

/-- What each step can do: one case for each outcome.
Source: `client.c`, `client`
Kind: D -/
inductive ProgramMoved (pids : List (BitVec 32)) (s : Program n) :
    ProgramLabel n → Program n → Prop
  | startOk (pc : s.main = .created) : ProgramMoved pids s (.start true) { s with main := .started }
  | startFailed (pc : s.main = .created) : ProgramMoved pids s (.start false) s.cleanup
  | createOk (pc : s.main = .started) :
      ProgramMoved pids s (.create true) { s with main := .sending, printer := .guard 0 }
  | createFailed (pc : s.main = .started) :
      ProgramMoved pids s (.create false) { s with main := .returned }
  | sendOk {calls : SendPidCalls} {i : Fin n} {pid : BitVec 32} {q : MessageQueue Message}
      {deleted : List Message} (pc : s.main = .sending) (round : i.val = s.round)
      (guard : i.val = 0 ∨ s.context.mode = .fuzz)
      (pid_eq : pids[s.call % pids.length]? = some pid)
      (enqueue : messageQueueEnqueue calls.enqueue (s.context.connections i).outgoing
        (pidMessage (s.context.serverSockaddrs i) pid) = some (.success, q, deleted)) :
      ProgramMoved pids s (.send calls)
        (s.sent i q (pidMessage (s.context.serverSockaddrs i) pid))
  | sendFailed {calls : SendPidCalls} {context : SendingContext n} (pc : s.main = .sending)
      (frame : context.mode = s.context.mode ∧
        context.serverSockaddrs = s.context.serverSockaddrs ∧
        ∀ j, (context.connections j).incoming = (s.context.connections j).incoming) :
      ProgramMoved pids s (.send calls) { s with context := context }.cleanup
  | nextCall (pc : s.main = .sending) (guard : ¬s.Guard) (mode : s.context.mode = .fuzz) :
      ProgramMoved pids s .next { s with call := s.call + 1, round := 0 }
  | lastCall (pc : s.main = .sending) (guard : ¬s.Guard) (mode : s.context.mode = .normal) :
      ProgramMoved pids s .next { s with call := s.call + 1, round := 0 }.cleanup
  | delete {b : Block n} {left : List (Block n)} (pc : s.main = .deleting (b :: left)) :
      ProgramMoved pids s .delete { s with main := .deleting left, freed := s.freed ++ [b] }
  | exit (pc : s.main = .deleting []) : ProgramMoved pids s .delete { s with main := .returned }
  | look {i : ℕ} (pc : s.printer = .guard i) (h : i < n) :
      ProgramMoved pids s .look { s with printer := .receive ⟨i, h⟩ }
  | lookAgain {i : ℕ} (pc : s.printer = .guard i) (h : ¬i < n) :
      ProgramMoved pids s .look { s with printer := .guard 0 }
  | receive {i : Fin n} {calls : DequeueCalls} {r : Option Message} {q : MessageQueue Message}
      (pc : s.printer = .receive i)
      (dequeue : messageQueueDequeueNonblocking calls (s.context.connections i).incoming =
        some (r, q)) :
      ProgramMoved pids s (.receive calls)
        { s with printer := .guard (i + 1), context := s.context.setIncoming i q }
  | depart {i : Fin n} {calls : DequeueCalls} {r : Option Message} {q : MessageQueue Message}
      (dequeue : messageQueueDequeueNonblocking calls (s.context.connections i).outgoing =
        some (r, q)) :
      ProgramMoved pids s (.depart i calls) { s with context := s.context.setOutgoing i q }
  | arrive {i : Fin n} {m : Message} {calls : EnqueueCalls} {status : MessageQueueStatus}
      {q : MessageQueue Message} {deleted : List Message}
      (enqueue : messageQueueEnqueue calls (s.context.connections i).incoming m =
        some (status, q, deleted)) :
      ProgramMoved pids s (.arrive i m calls) { s with context := s.context.setIncoming i q }

variable {pids : List (BitVec 32)} {s s' : Program n} {l : ProgramLabel n}

/-- A write to an outgoing queue leaves every incoming queue as it is.
Source: `client.c`, `client_send_pid_message`
Kind: L -/
theorem SendingContext.incoming_setOutgoing (context : SendingContext n) (i : Fin n)
    (q : MessageQueue Message) (j : Fin n) :
    ((context.setOutgoing i q).connections j).incoming = (context.connections j).incoming := by
  by_cases hj : j = i
  · rw [hj, SendingContext.setOutgoing_self]
  · rw [SendingContext.setOutgoing_of_ne _ hj]

/-- A round keeps all but one outgoing queue, however it ends.
Source: `client.c`, `client`
Kind: L -/
theorem sendPidRound_frame {calls : SendPidCalls} {pid : BitVec 32} {i : Fin n}
    {context context' : SendingContext n} {status : ClientStatus} {sent : List (PidEnqueue n)}
    (h : sendPidRound calls pid i context = some (status, context', sent)) :
    context'.mode = context.mode ∧ context'.serverSockaddrs = context.serverSockaddrs ∧
      ∀ j, (context'.connections j).incoming = (context.connections j).incoming := by
  unfold sendPidRound at h
  split at h
  · cases h
    exact ⟨rfl, rfl, fun _ => rfl⟩
  · obtain ⟨⟨status', q, deleted⟩, -, h⟩ := Option.bind_eq_some_iff.mp h
    dsimp only at h
    split_ifs at h
    · cases h
      exact ⟨rfl, rfl, context.incoming_setOutgoing i q⟩
    · cases h
      exact ⟨rfl, rfl, context.incoming_setOutgoing i q⟩

/-- A step of one of the other threads does one of these things.
Source: `client.c`, `client`
Kind: L -/
theorem programMoved_of_threadStep (h : threadStep pids s l = some s') :
    ProgramMoved pids s l s' := by
  cases l with
  | start ok =>
      simp only [threadStep] at h
      split at h
      · rename_i pc
        cases ok with
        | true => cases h; exact .startOk pc
        | false => cases h; exact .startFailed pc
      · cases h
  | create ok =>
      simp only [threadStep] at h
      split at h
      · rename_i pc
        cases ok with
        | true => cases h; exact .createOk pc
        | false => cases h; exact .createFailed pc
      · cases h
  | send calls =>
      simp only [threadStep] at h
      split at h
      · rename_i pc
        split_ifs at h with guard
        obtain ⟨pid, hpid, h⟩ := Option.bind_eq_some_iff.mp h
        obtain ⟨⟨status, context, sent⟩, hround, h⟩ := Option.bind_eq_some_iff.mp h
        dsimp only at h
        split_ifs at h with hstatus
        · cases h
          exact .sendFailed pc (sendPidRound_frame hround)
        · obtain rfl := not_not.mp hstatus
          obtain ⟨q, deleted, henqueue, rfl, rfl⟩ := sendPidRound_success hround
          cases h
          exact .sendOk (i := ⟨s.round, guard.1⟩) pc rfl guard.2 hpid henqueue
      · cases h
  | next =>
      simp only [threadStep] at h
      split at h
      · rename_i pc
        split_ifs at h with guard
        split at h
        · rename_i mode
          cases h
          exact .lastCall pc guard mode
        · rename_i mode
          cases h
          exact .nextCall pc guard mode
      · cases h
  | delete =>
      simp only [threadStep] at h
      split at h
      · rename_i pc
        cases h
        exact .delete pc
      · rename_i pc
        cases h
        exact .exit pc
      · cases h
  | look =>
      simp only [threadStep] at h
      split at h
      · rename_i pc
        split_ifs at h with hi
        · cases h
          exact .look pc hi
        · cases h
          exact .lookAgain pc hi
      · cases h
  | receive calls =>
      simp only [threadStep] at h
      split at h
      · rename_i pc
        obtain ⟨⟨r, q⟩, hdequeue, h⟩ := Option.bind_eq_some_iff.mp h
        cases h
        exact .receive pc hdequeue
      · cases h
  | depart i calls =>
      obtain ⟨⟨r, q⟩, hdequeue, h⟩ := Option.bind_eq_some_iff.mp h
      cases h
      exact .depart hdequeue
  | arrive i m calls =>
      obtain ⟨⟨status, q, deleted⟩, henqueue, h⟩ := Option.bind_eq_some_iff.mp h
      cases h
      exact .arrive henqueue

/-- A step of the program uses no released block.
Source: `client.c`, `client`
Kind: L -/
theorem programMoved_of_step (h : programStep pids s l = some s') :
    ProgramMoved pids s l s' ∧ s.main ≠ .returned ∧ ¬s.Dangling (l.uses s) := by
  unfold programStep at h
  split_ifs at h with halive
  obtain ⟨hmain, hdangling⟩ := not_or.mp halive
  exact ⟨programMoved_of_threadStep h, hmain, hdangling⟩

end model

/-! ## Turns -/

/-- The first `k` requests to a server: the pids of the configuration, over and over.
Source: `client.c`, `client_send_pid_message`
Kind: D -/
def turnMessages (server : SockaddrIn) (pids : List (BitVec 32)) (k : ℕ) : List Message :=
  (List.range k).map fun c => pidMessage server (pids.getD (c % pids.length) 0)

/-- One more turn sends the request for the next pid in the cycle.
Source: `client.c`, `client_send_pid_message`
Kind: L -/
theorem turnMessages_succ (server : SockaddrIn) (pids : List (BitVec 32)) (k : ℕ) :
    turnMessages server pids (k + 1) =
      turnMessages server pids k ++ [pidMessage server (pids.getD (k % pids.length) 0)] := by
  rw [turnMessages, List.range_succ, List.map_append]
  rfl

/-- The main thread has not come to the end of its sending.
Source: none: infrastructure
Kind: D -/
def ProgramPc.working {n : ℕ} : ProgramPc n → Bool
  | .created | .started | .sending => true
  | .deleting _ | .returned => false

section turns

variable {n : ℕ} {pids : List (BitVec 32)} {context : SendingContext n} {s s' : Program n}
  {l : ProgramLabel n}

/-- The requests that connection `j` has taken.
Source: `client.c`, `client_send_pid_message`
Kind: D -/
def Program.history (s : Program n) (j : Fin n) : List Message :=
  (s.enqueued.filter fun e => e.1 = j).map Prod.snd

/-- How many turns connection `j` has had: one in every call that has returned, and one in the
current call if the loop has passed it.
Source: `client.c`, `client_send_pid_message`
Kind: D -/
def Program.turns (s : Program n) (j : Fin n) : ℕ :=
  if j.val = 0 ∨ s.context.mode = .fuzz then s.call + (if j.val < s.round then 1 else 0) else 0

/-- The invariant of the sending loops. While they go on, what waits in an outgoing queue is the
newest part of its connection's history.
Source: none: infrastructure
Kind: D -/
structure TurnInv (pids : List (BitVec 32)) (context : SendingContext n) (s : Program n) :
    Prop where
  mode : s.context.mode = context.mode
  sockaddrs : s.context.serverSockaddrs = context.serverSockaddrs
  history : ∀ j, s.history j = turnMessages (context.serverSockaddrs j) pids (s.turns j)
  ready : s.main.working = true → s.context.Ready
  waiting : s.main.working = true →
    ∀ j, (s.context.connections j).outgoing.contents <:+ s.history j

/-- Before the first call nothing has been sent.
Source: `client.c`, `client`
Kind: L -/
theorem TurnInv.init (hready : context.Ready)
    (hempty : ∀ j, (context.connections j).outgoing.contents = []) :
    TurnInv pids context (Program.init context) where
  mode := rfl
  sockaddrs := rfl
  history := by
    intro j
    have hturns : (Program.init context).turns j = 0 := by
      simp [Program.turns, Program.init]
    rw [hturns]
    rfl
  ready := fun _ => hready
  waiting := by
    intro _ j
    rw [show (Program.init context).context = context from rfl, hempty j]
    exact List.nil_suffix

/-- A write to an incoming queue leaves every outgoing queue as it is.
Source: `client.c`, `client_send_pid_message`
Kind: L -/
@[simp] theorem SendingContext.outgoing_setIncoming (i j : Fin n) (q : MessageQueue Message) :
    ((context.setIncoming i q).connections j).outgoing = (context.connections j).outgoing := by
  by_cases hj : j = i
  · subst hj
    simp [SendingContext.setIncoming]
  · simp [SendingContext.setIncoming, Function.update_of_ne hj]

/-- A context stays ready when an incoming queue changes, since only outgoing queues matter.
Source: `client.c`, `client_send_pid_message`
Kind: L -/
theorem SendingContext.Ready.setIncoming (h : context.Ready) (i : Fin n)
    (q : MessageQueue Message) : (context.setIncoming i q).Ready := by
  intro j
  rw [SendingContext.outgoing_setIncoming]
  exact h j

/-- A dequeue leaves the newest part.
Source: `client.c`, `client`
Kind: L -/
theorem dequeue_suffix {q q' : MessageQueue Message} (hq : q.Valid) {calls : DequeueCalls}
    {r : Option Message} (h : messageQueueDequeueNonblocking calls q = some (r, q')) :
    q'.Valid ∧ q'.capacity = q.capacity ∧ q'.contents <:+ q.contents := by
  have hrep : q.Represents q.contents := hq
  obtain ⟨r', q'', heq, hcap, hcases⟩ := hrep.dequeueNonblocking calls
  obtain ⟨-, rfl⟩ := Prod.mk.inj (Option.some.inj (heq.symm.trans h))
  refine ⟨(hq.dequeueNonblocking h).2, hcap, ?_⟩
  rcases hcases with ⟨-, rfl, -⟩ | ⟨x, rest, hx, hrest, -⟩
  · exact List.suffix_refl _
  · rw [hrest.contents_eq, hx]
    exact List.suffix_cons x rest

/-- The threads at the other ends of the queues, and the printing thread, change no history.
Source: `client.c`, `client`
Kind: L -/
theorem TurnInv.frame (h : TurnInv pids context s) (hmode : s'.context.mode = s.context.mode)
    (hsockaddrs : s'.context.serverSockaddrs = s.context.serverSockaddrs)
    (hcall : s'.call = s.call) (hround : s'.round = s.round) (henqueued : s'.enqueued = s.enqueued)
    (hready : s'.main.working = true → s'.context.Ready)
    (hwaiting : s'.main.working = true →
      ∀ j, (s'.context.connections j).outgoing.contents <:+ s.history j) :
    TurnInv pids context s' := by
  have hhistory : ∀ j, s'.history j = s.history j := by
    intro j
    rw [Program.history, henqueued, Program.history]
  refine ⟨hmode.trans h.mode, hsockaddrs.trans h.sockaddrs, ?_, hready, ?_⟩
  · intro j
    have hturns : s'.turns j = s.turns j := by
      rw [Program.turns, hmode, hcall, hround, Program.turns]
    rw [hhistory j, hturns]
    exact h.history j
  · intro hworking j
    rw [hhistory j]
    exact hwaiting hworking j

section sent

variable {i j : Fin n} {q : MessageQueue Message} {m : Message}

/-- A send is recorded in the history of its connection.
Source: `client.c`, `client_send_pid_message`
Kind: L -/
theorem Program.history_sent_self : (s.sent i q m).history i = s.history i ++ [m] := by
  simp [Program.history, Program.sent, List.filter_append]

/-- It is not recorded in any other history.
Source: `client.c`, `client_send_pid_message`
Kind: L -/
theorem Program.history_sent_of_ne (hj : j ≠ i) : (s.sent i q m).history j = s.history j := by
  simp [Program.history, Program.sent, List.filter_append, Ne.symm hj]

/-- The connection whose round it is has one turn more after the send.
Source: `client.c`, `client_send_pid_message`
Kind: L -/
theorem Program.turns_sent_self (hi : i.val = s.round)
    (hguard : i.val = 0 ∨ s.context.mode = .fuzz) :
    s.turns i = s.call ∧ (s.sent i q m).turns i = s.call + 1 := by
  constructor
  · rw [Program.turns, if_pos hguard, hi, if_neg (lt_irrefl _), add_zero]
  · have hguard' : i.val = 0 ∨ (s.sent i q m).context.mode = .fuzz := hguard
    rw [Program.turns, if_pos hguard', hi]
    exact congrArg (s.call + ·) (if_pos (Nat.lt_succ_self s.round))

/-- No other connection has.
Source: `client.c`, `client_send_pid_message`
Kind: L -/
theorem Program.turns_sent_of_ne (hi : i.val = s.round) (hj : j ≠ i) :
    (s.sent i q m).turns j = s.turns j := by
  have hne : j.val ≠ i.val := fun heq => hj (Fin.ext heq)
  have hlt : j.val < s.round + 1 ↔ j.val < s.round := by omega
  simp only [Program.turns, Program.sent, SendingContext.setOutgoing, hlt]

end sent

/-- **A round** is a turn of its connection.
Source: `client.c`, `client`
Kind: P -/
theorem TurnInv.send (h : TurnInv pids context s) (pc : s.main = .sending) {i : Fin n}
    (hi : i.val = s.round) (hguard : i.val = 0 ∨ s.context.mode = .fuzz) {calls : EnqueueCalls}
    {pid : BitVec 32} {q : MessageQueue Message} {deleted : List Message}
    (hpid : pids[s.call % pids.length]? = some pid)
    (henqueue : messageQueueEnqueue calls (s.context.connections i).outgoing
      (pidMessage (s.context.serverSockaddrs i) pid) = some (.success, q, deleted)) :
    TurnInv pids context (s.sent i q (pidMessage (s.context.serverSockaddrs i) pid)) := by
  have hworking : s.main.working = true := by rw [pc]; rfl
  have hready := h.ready hworking
  obtain ⟨hvalid, hcap⟩ := hready i
  obtain ⟨hvalid', hcap', ⟨older, hcontents, holder⟩, -⟩ := enqueue_client hvalid hcap henqueue
  refine ⟨h.mode, h.sockaddrs, ?_, fun _ => hready.setOutgoing i hvalid' hcap', ?_⟩
  · intro j
    by_cases hj : j = i
    · subst hj
      obtain ⟨hbefore, hafter⟩ := Program.turns_sent_self (q := q)
        (m := pidMessage (s.context.serverSockaddrs j) pid) hi hguard
      rw [hafter, turnMessages_succ, Program.history_sent_self, h.history j, hbefore, h.sockaddrs,
        List.getD_eq_getElem?_getD, hpid]
      rfl
    · rw [Program.turns_sent_of_ne hi hj, Program.history_sent_of_ne hj]
      exact h.history j
  · -- the oldest of the queue may be gone, the newest is the request
    intro _ j
    have hsuffix := h.waiting hworking j
    by_cases hj : j = i
    · subst hj
      rw [← holder] at hsuffix
      rw [Program.history_sent_self]
      show ((s.context.setOutgoing j q).connections j).outgoing.contents <:+ _
      rw [SendingContext.setOutgoing_self, hcontents]
      exact List.suffix_append_self_iff.mpr ((List.suffix_append deleted older).trans hsuffix)
    · rw [Program.history_sent_of_ne hj]
      show ((s.context.setOutgoing i q).connections j).outgoing.contents <:+ _
      rw [SendingContext.setOutgoing_of_ne _ hj]
      exact hsuffix

/-- **The end of a call**: the loop has passed all the connections it comes to.
Source: `client.c`, `client`
Kind: P -/
theorem TurnInv.next (h : TurnInv pids context s) (guard : ¬s.Guard) {main : ProgramPc n}
    (hworking : main.working = true → s.main.working = true) :
    TurnInv pids context { s with main := main, call := s.call + 1, round := 0 } := by
  have hturns : ∀ j, Program.turns { s with main := main, call := s.call + 1, round := 0 } j =
      s.turns j := by
    intro j
    unfold Program.turns
    by_cases hguard : j.val = 0 ∨ s.context.mode = .fuzz
    · have hpassed : j.val < s.round := by
        by_contra hle
        refine guard ⟨lt_of_le_of_lt (not_lt.mp hle) j.isLt, ?_⟩
        rcases hguard with hzero | hfuzz
        · exact .inl (by omega)
        · exact .inr hfuzz
      simp only [if_pos hguard, if_pos hpassed, Nat.not_lt_zero, if_false, add_zero]
    · simp only [if_neg hguard]
  refine ⟨h.mode, h.sockaddrs, ?_, fun hw => h.ready (hworking hw),
    fun hw => h.waiting (hworking hw)⟩
  intro j
  rw [hturns j]
  exact h.history j

/-- **Every step** keeps the turns, by the cases of `ProgramMoved`.
Source: `client.c`, `client`
Kind: P -/
theorem TurnInv.moved (h : TurnInv pids context s) (hm : ProgramMoved pids s l s') :
    TurnInv pids context s' := by
  cases hm with
  | startOk pc =>
      have hworking : s.main.working = true := by rw [pc]; rfl
      exact h.frame rfl rfl rfl rfl rfl (fun _ => h.ready hworking) fun _ => h.waiting hworking
  | startFailed pc =>
      exact h.frame rfl rfl rfl rfl rfl (fun hw => nomatch hw) fun hw => nomatch hw
  | createOk pc =>
      have hworking : s.main.working = true := by rw [pc]; rfl
      exact h.frame rfl rfl rfl rfl rfl (fun _ => h.ready hworking) fun _ => h.waiting hworking
  | createFailed pc =>
      exact h.frame rfl rfl rfl rfl rfl (fun hw => nomatch hw) fun hw => nomatch hw
  | sendOk pc round guard pid_eq enqueue => exact h.send pc round guard pid_eq enqueue
  | sendFailed pc frame =>
      exact h.frame frame.1 frame.2.1 rfl rfl rfl (fun hw => nomatch hw) fun hw => nomatch hw
  | nextCall pc guard mode => exact h.next guard fun hw => hw
  | lastCall pc guard mode => exact h.next guard fun hw => nomatch hw
  | delete pc => exact h.frame rfl rfl rfl rfl rfl (fun hw => nomatch hw) fun hw => nomatch hw
  | exit pc => exact h.frame rfl rfl rfl rfl rfl (fun hw => nomatch hw) fun hw => nomatch hw
  | look pc hi => exact h.frame rfl rfl rfl rfl rfl h.ready h.waiting
  | lookAgain pc hi => exact h.frame rfl rfl rfl rfl rfl h.ready h.waiting
  | @receive i calls r q pc dequeue =>
      refine h.frame rfl rfl rfl rfl rfl (fun hw => (h.ready hw).setIncoming i q) fun hw j => ?_
      show ((s.context.setIncoming i q).connections j).outgoing.contents <:+ _
      rw [SendingContext.outgoing_setIncoming]
      exact h.waiting hw j
  | @depart i calls r q dequeue =>
      refine h.frame rfl rfl rfl rfl rfl (fun hw => ?_) fun hw j => ?_
      · obtain ⟨hvalid, hcap⟩ := h.ready hw i
        obtain ⟨hvalid', hcap', -⟩ := dequeue_suffix hvalid dequeue
        exact (h.ready hw).setOutgoing i hvalid' (hcap' ▸ hcap)
      · by_cases hj : j = i
        · subst hj
          show ((s.context.setOutgoing j q).connections j).outgoing.contents <:+ _
          rw [SendingContext.setOutgoing_self]
          exact (dequeue_suffix (h.ready hw j).1 dequeue).2.2.trans (h.waiting hw j)
        · show ((s.context.setOutgoing i q).connections j).outgoing.contents <:+ _
          rw [SendingContext.setOutgoing_of_ne _ hj]
          exact h.waiting hw j
  | @arrive i m calls status q deleted enqueue =>
      refine h.frame rfl rfl rfl rfl rfl (fun hw => (h.ready hw).setIncoming i q) fun hw j => ?_
      show ((s.context.setIncoming i q).connections j).outgoing.contents <:+ _
      rw [SendingContext.outgoing_setIncoming]
      exact h.waiting hw j

/-- **The connections take turns.** In every run of the client program, whatever its other threads
do: the requests that a connection has taken are those for the first pids of the
configuration, over and over, addressed to its own server; in the mode that sends to all of them no
connection is ever more than one turn ahead of another, and an earlier one never behind a later one.
While the program is sending, what waits in an outgoing queue is the newest part of these requests.
Source: `client.c`, `client`, `client_send_pid_message`
Kind: P -/
theorem requests_take_turns {mode : ClientMode} {serverSockaddrs : Fin n → SockaddrIn}
    {ls : List (ProgramLabel n)}
    (h : Run (programStep pids) (fun _ _ => True)
      (Program.init (.created mode serverSockaddrs)) ls s) :
    (∀ j, s.history j = turnMessages (serverSockaddrs j) pids (s.turns j)) ∧
      (s.main = .sending → ∀ j, (s.context.connections j).outgoing.contents <:+
        turnMessages (serverSockaddrs j) pids (s.turns j)) ∧
      (mode = .fuzz → ∀ i j, i ≤ j → s.turns j ≤ s.turns i ∧ s.turns i ≤ s.turns j + 1) := by
  have hinv : TurnInv pids (.created mode serverSockaddrs) s :=
    h.invariant (TurnInv.init (SendingContext.ready_created mode serverSockaddrs)
      fun _ => contents_createdQueue 5)
      fun _ _ _ hinv _ hs => hinv.moved (programMoved_of_step hs).1
  have hhistory : ∀ j, s.history j = turnMessages (serverSockaddrs j) pids (s.turns j) :=
    hinv.history
  refine ⟨hhistory, ?_, ?_⟩
  · intro pc j
    rw [← hhistory j]
    exact hinv.waiting (by rw [pc]; rfl) j
  · intro hmode i j hle
    have hfuzz : s.context.mode = .fuzz := hinv.mode.trans hmode
    have hle' : i.val ≤ j.val := hle
    simp only [Program.turns, hfuzz, or_true, if_true]
    split_ifs <;> omega

end turns

/-- Two ports, one pid, and the second call halfway: the first port has had two turns.
Source: `client.c`, `client`
Kind: C -/
theorem requests_take_turns_two :
    ∃ s, Run (programStep [7]) (fun _ _ => True) (Program.init twoPorts)
        [.start true, .create true, .send sendPidOk, .send sendPidOk, .next, .send sendPidOk] s ∧
      s.history 0 = turnMessages (twoPorts.serverSockaddrs 0) [7] 2 ∧
      s.history 1 = turnMessages (twoPorts.serverSockaddrs 1) [7] 1 := by
  obtain ⟨s, hrun, hs⟩ := Run.exists_of_exec (show
    (exec (programStep [7]) (fun _ _ => True) (Program.init twoPorts)
      [.start true, .create true, .send sendPidOk, .send sendPidOk, .next, .send sendPidOk]).map
        (fun s => decide (s.turns 0 = 2 ∧ s.turns 1 = 1)) = some true by decide +kernel)
  obtain ⟨hzero, hone⟩ := of_decide_eq_true hs
  obtain ⟨hturns, -, -⟩ := requests_take_turns hrun
  refine ⟨s, hrun, ?_, ?_⟩
  · rw [hturns 0, hzero]
    rfl
  · rw [hturns 1, hone]
    rfl

/-! ## The race -/

section race

variable {n : ℕ} {pids : List (BitVec 32)} {context : SendingContext n} {s s' : Program n}
  {l : ProgramLabel n}

/-- `client_delete_context` releases no block twice.
Source: `client.c`, `client_delete_context`
Kind: L -/
theorem nodup_deleteOrder (n : ℕ) : (deleteOrder n).Nodup := by
  refine List.Nodup.append ?_ (by simp) ?_
  · exact (List.nodup_finRange n).map fun i j h => Block.connection.inj h
  · intro b hb hb'
    obtain ⟨i, -, rfl⟩ := List.mem_map.mp hb
    simp at hb'

/-- A release uses the block and blocks that are released later.
Source: `client.c`, `client`
Kind: L -/
theorem uses_subset {b : Block n} {left : List (Block n)} (h : b :: left <:+ deleteOrder n) :
    b.uses ⊆ b :: left := by
  rcases List.suffix_or_suffix_of_suffix h (List.suffix_append _ _) with hlast | hbefore
  · simp only [List.suffix_cons_iff, List.suffix_nil, reduceCtorEq, or_false] at hlast
    rcases hlast with hlast | hlast | hlast
    · cases hlast
      simp [Block.uses]
    · cases hlast
      simp [Block.uses]
    · cases hlast
      simp [Block.uses]
  · have hmem : ∀ u ∈ [Block.sockaddrs, .connections, .context], u ∈ b :: left :=
      fun u hu => hbefore.mem hu
    cases b with
    | context => simp [Block.uses]
    | sockaddrs => simpa [Block.uses] using hmem .context (by simp)
    | connections => simpa [Block.uses] using hmem .context (by simp)
    | connection i =>
        simpa [Block.uses] using And.intro (hmem .context (by simp)) (hmem .connections (by simp))

/-- The invariant of the releases: nothing is released before the deletion, which then goes through
its list; the incoming queues can always be used.
Source: none: infrastructure
Kind: D -/
structure RaceInv (s : Program n) : Prop where
  released : s.freed <+: deleteOrder n
  working : s.main.working = true → s.freed = []
  left : ∀ left, s.main = .deleting left → s.freed ++ left = deleteOrder n
  incoming : ∀ j, (s.context.connections j).incoming.Valid

/-- Before the first step nothing is released.
Source: `client.c`, `client`
Kind: L -/
theorem RaceInv.init (hincoming : ∀ j, (context.connections j).incoming.Valid) :
    RaceInv (Program.init context) where
  released := List.nil_prefix
  working := fun _ => rfl
  left := fun _ h => nomatch h
  incoming := hincoming

/-- A step that releases nothing, and does not leave the deletion.
Source: `client.c`, `client`
Kind: L -/
theorem RaceInv.frame (h : RaceInv s) (hfreed : s'.freed = s.freed)
    (hworking : s'.main.working = true → s.main.working = true)
    (hleft : ∀ left, s'.main = .deleting left → s.main = .deleting left)
    (hincoming : ∀ j, (s'.context.connections j).incoming.Valid) : RaceInv s' where
  released := hfreed ▸ h.released
  working := fun hw => hfreed.trans (h.working (hworking hw))
  left := fun left hl => hfreed ▸ h.left left (hleft left hl)
  incoming := hincoming

/-- The main thread goes to its cleanup.
Source: `client.c`, `client`
Kind: L -/
theorem RaceInv.cleanup (h : RaceInv s) (hworking : s.main.working = true)
    (hmain : s'.main = .deleting (deleteOrder n)) (hfreed : s'.freed = s.freed)
    (hincoming : ∀ j, (s'.context.connections j).incoming.Valid) : RaceInv s' where
  released := hfreed ▸ h.released
  working := fun hw => by rw [hmain] at hw; exact nomatch hw
  left := by
    intro left hleft
    rw [hmain] at hleft
    cases hleft
    rw [hfreed, h.working hworking, List.nil_append]
  incoming := hincoming

/-- The incoming queues stay valid when a valid one is put in.
Source: `client.c`, `client_send_pid_message`
Kind: L -/
theorem SendingContext.valid_setIncoming
    (h : ∀ j, (context.connections j).incoming.Valid) (i : Fin n) {q : MessageQueue Message}
    (hq : q.Valid) (j : Fin n) : ((context.setIncoming i q).connections j).incoming.Valid := by
  by_cases hj : j = i
  · subst hj
    simpa [SendingContext.setIncoming] using hq
  · simpa [SendingContext.setIncoming, Function.update_of_ne hj] using h j

/-- **Every step** keeps what the main thread may use, by the cases of `ProgramMoved`.
Source: `client.c`, `client`
Kind: P -/
theorem RaceInv.moved (h : RaceInv s) (hm : ProgramMoved pids s l s') : RaceInv s' := by
  have hworking : ∀ {pc : ProgramPc n}, pc.working = true → s.main = pc →
      s.main.working = true := by
    rintro pc hpc rfl
    exact hpc
  cases hm with
  | startOk pc => exact h.frame rfl (fun _ => hworking rfl pc) (fun _ hl => nomatch hl) h.incoming
  | startFailed pc => exact h.cleanup (hworking rfl pc) rfl rfl h.incoming
  | createOk pc => exact h.frame rfl (fun _ => hworking rfl pc) (fun _ hl => nomatch hl) h.incoming
  | createFailed pc => exact h.frame rfl (fun hw => nomatch hw) (fun _ hl => nomatch hl) h.incoming
  | @sendOk calls i pid q deleted pc round guard pid_eq enqueue =>
      refine h.frame rfl (fun hw => hw) (fun _ hl => hl) fun j => ?_
      show ((s.context.setOutgoing i q).connections j).incoming.Valid
      rw [SendingContext.incoming_setOutgoing]
      exact h.incoming j
  | @sendFailed calls context' pc frame =>
      refine h.cleanup (hworking rfl pc) rfl rfl fun j => ?_
      show (context'.connections j).incoming.Valid
      rw [frame.2.2 j]
      exact h.incoming j
  | nextCall pc guard mode => exact h.frame rfl (fun hw => hw) (fun _ hl => hl) h.incoming
  | lastCall pc guard mode => exact h.cleanup (hworking rfl pc) rfl rfl h.incoming
  | @delete b left pc =>
      have hleft := h.left _ pc
      refine ⟨?_, (fun hw => nomatch hw), ?_, h.incoming⟩
      · exact ⟨left, by rw [List.append_assoc]; exact hleft⟩
      · intro left' hleft'
        cases hleft'
        rw [List.append_assoc]
        exact hleft
  | exit pc => exact h.frame rfl (fun hw => nomatch hw) (fun _ hl => nomatch hl) h.incoming
  | look pc hi => exact h.frame rfl (fun hw => hw) (fun _ hl => hl) h.incoming
  | lookAgain pc hi => exact h.frame rfl (fun hw => hw) (fun _ hl => hl) h.incoming
  | @receive i calls r q pc dequeue =>
      refine h.frame rfl (fun hw => hw) (fun _ hl => hl) ?_
      exact SendingContext.valid_setIncoming h.incoming i
        ((h.incoming i).dequeueNonblocking dequeue).2
  | @depart i calls r q dequeue =>
      refine h.frame rfl (fun hw => hw) (fun _ hl => hl) fun j => ?_
      show ((s.context.setOutgoing i q).connections j).incoming.Valid
      rw [SendingContext.incoming_setOutgoing]
      exact h.incoming j
  | @arrive i m calls status q deleted enqueue =>
      refine h.frame rfl (fun hw => hw) (fun _ hl => hl) ?_
      exact SendingContext.valid_setIncoming h.incoming i ((h.incoming i).enqueue enqueue).2

/-- The main thread uses no released block.
Source: `client.c`, `client`
Kind: P -/
theorem RaceInv.not_dangling_main (h : RaceInv s) : ¬s.Dangling s.mainUses := by
  rintro ⟨u, hu, hfreed⟩
  cases hmain : s.main with
  | created =>
      rw [h.working (by rw [hmain]; rfl)] at hfreed
      exact absurd hfreed List.not_mem_nil
  | started =>
      rw [h.working (by rw [hmain]; rfl)] at hfreed
      exact absurd hfreed List.not_mem_nil
  | sending =>
      rw [h.working (by rw [hmain]; rfl)] at hfreed
      exact absurd hfreed List.not_mem_nil
  | deleting left =>
      cases left with
      | nil => simp [Program.mainUses, hmain] at hu
      | cons b left =>
          -- what it uses is released now or later, and nothing is in the list twice
          have hlist := h.left _ hmain
          have hnodup := nodup_deleteOrder n
          rw [← hlist] at hnodup
          rw [Program.mainUses, hmain] at hu
          have hlater := uses_subset ⟨s.freed, hlist⟩ hu
          exact List.disjoint_of_nodup_append hnodup hfreed hlater
  | returned => simp [Program.mainUses, hmain] at hu

/-- What the printing thread alone can change.
Source: `client.c`, `client`
Kind: L -/
theorem ProgramMoved.of_printer (hm : ProgramMoved pids s l s') (hl : l.ofPrinter = true) :
    s'.main = s.main ∧ s'.freed = s.freed ∧ s.printer ≠ .absent := by
  cases hm with
  | look pc hi => exact ⟨rfl, rfl, by simp [pc]⟩
  | lookAgain pc hi => exact ⟨rfl, rfl, by simp [pc]⟩
  | receive pc dequeue => exact ⟨rfl, rfl, by simp [pc]⟩
  | _ => exact nomatch hl

/-- A run of the printing thread alone.
Source: `client.c`, `client`
Kind: L -/
theorem of_printerRun {ls : List (ProgramLabel n)}
    (h : Run (programStep pids) (fun _ l => l.ofPrinter = true) s ls s') :
    s'.main = s.main ∧ s'.freed = s.freed ∧ (s.printer = .absent → s'.printer = .absent) := by
  refine h.invariant (I := fun t => t.main = s.main ∧ t.freed = s.freed ∧
    (s.printer = .absent → t.printer = .absent)) ⟨rfl, rfl, id⟩ ?_
  rintro t l t' ⟨hmain, hfreed, habsent⟩ hl hstep
  obtain ⟨hmain', hfreed', hpresent⟩ := (programMoved_of_step hstep).1.of_printer hl
  refine ⟨hmain'.trans hmain, hfreed'.trans hfreed, ?_⟩
  intro h₀
  exact absurd (habsent h₀) hpresent

/-- The program goes on, a connection was released, and the queues can be used.
Source: none: infrastructure
Kind: D -/
structure Racing (first : Fin n) (s : Program n) : Prop where
  main : s.main ≠ .returned
  freed : Block.connection first ∈ s.freed
  incoming : ∀ j, (s.context.connections j).incoming.Valid

/-- A step of the printing thread that uses no released block.
Source: `client.c`, `client`
Kind: L -/
theorem exec_printer {ls : List (ProgramLabel n)} {t : Program n} (hmain : s.main ≠ .returned)
    (hl : l.ofPrinter = true) (hdangling : ¬s.Dangling (l.uses s))
    (hstep : threadStep pids s l = some s')
    (hrest : exec (programStep pids) (fun _ l => l.ofPrinter = true) s' ls = some t) :
    exec (programStep pids) (fun _ l => l.ofPrinter = true) s (l :: ls) = some t := by
  have hprogram : programStep pids s l = some s' := by
    rw [programStep, if_neg (not_or.mpr ⟨hmain, hdangling⟩), hstep]
  rw [exec, if_pos hl, hprogram]
  exact hrest

/-- **The printing thread comes to a released connection**, unless it uses another released block
before that: it goes through the connections that are left in its loop, and starts again.
Source: `client.c`, `client`
Kind: P -/
theorem exists_dangling_of_guard (pids : List (BitVec 32)) (hn : 0 < n) (d : ℕ) :
    ∀ {s : Program n} {i : ℕ}, n - i = d → Racing ⟨0, hn⟩ s → s.printer = .guard i →
      ∃ ls t, exec (programStep pids) (fun _ l => l.ofPrinter = true) s ls = some t ∧
        t.Dangling t.printerUses := by
  induction d with
  | zero =>
      intro s i hd hrace hpc
      by_cases hdangling : s.Dangling s.printerUses
      · exact ⟨[], s, rfl, hdangling⟩
      -- the loop ends, and its first connection is the released one
      have hnot : ¬i < n := by omega
      have hstart : ¬({ s with printer := .guard 0 } : Program n).Dangling [.context] := by
        rw [Program.printerUses, hpc] at hdangling
        exact hdangling
      refine ⟨[.look, .look], { s with printer := .receive ⟨0, hn⟩ }, ?_, ?_⟩
      · have hagain : threadStep pids s .look = some { s with printer := .guard 0 } := by
          simp [threadStep, hpc, hnot]
        have hfirst : threadStep pids { s with printer := .guard 0 } .look =
            some { s with printer := .receive ⟨0, hn⟩ } := by
          simp [threadStep, hn]
        exact exec_printer hrace.main rfl hdangling hagain
          (exec_printer hrace.main rfl hstart hfirst rfl)
      · exact ⟨.connection ⟨0, hn⟩, by simp [Program.printerUses], hrace.freed⟩
  | succ d ih =>
      intro s i hd hrace hpc
      by_cases hdangling : s.Dangling s.printerUses
      · exact ⟨[], s, rfl, hdangling⟩
      have hi : i < n := by omega
      have hlook : threadStep pids s .look = some { s with printer := .receive ⟨i, hi⟩ } := by
        simp [threadStep, hpc, hi]
      by_cases hreceive :
          ({ s with printer := .receive ⟨i, hi⟩ } : Program n).Dangling
            (Program.printerUses { s with printer := .receive ⟨i, hi⟩ })
      · exact ⟨[.look], _, exec_printer hrace.main rfl hdangling hlook rfl, hreceive⟩
      -- the queue of the connection can be used, and the thread comes to the next one
      obtain ⟨r, q, hdequeue, -⟩ :=
        MessageQueue.Represents.dequeueNonblocking (hrace.incoming ⟨i, hi⟩) .allOk
      have hvalid := ((hrace.incoming ⟨i, hi⟩).dequeueNonblocking hdequeue).2
      obtain ⟨ls, t, hexec, ht⟩ := ih
        (s := { s with
          printer := .guard (i + 1), context := s.context.setIncoming ⟨i, hi⟩ q })
        (i := i + 1) (by omega)
        ⟨hrace.main, hrace.freed, SendingContext.valid_setIncoming hrace.incoming _ hvalid⟩ rfl
      refine ⟨.look :: .receive .allOk :: ls, t, ?_, ht⟩
      refine exec_printer hrace.main rfl hdangling hlook
        (exec_printer hrace.main rfl hreceive ?_ hexec)
      simp [threadStep, netConnectionReceiveNonblocking, hdequeue]

/-- From a state with a race the printing thread alone gets to use a released block.
Source: `client.c`, `print_received_messages`
Kind: L -/
theorem exists_dangling (pids : List (BitVec 32)) (hn : 0 < n) (hrace : Racing ⟨0, hn⟩ s)
    (hpresent : s.printer ≠ .absent) :
    ∃ ls t, exec (programStep pids) (fun _ l => l.ofPrinter = true) s ls = some t ∧
      t.Dangling t.printerUses := by
  cases hpc : s.printer with
  | absent => exact absurd hpc hpresent
  | guard i => exact exists_dangling_of_guard pids hn _ rfl hrace hpc
  | receive i =>
      by_cases hdangling : s.Dangling s.printerUses
      · exact ⟨[], s, rfl, hdangling⟩
      obtain ⟨r, q, hdequeue, -⟩ :=
        MessageQueue.Represents.dequeueNonblocking (hrace.incoming i) .allOk
      have hvalid := ((hrace.incoming i).dequeueNonblocking hdequeue).2
      obtain ⟨ls, t, hexec, ht⟩ := exists_dangling_of_guard pids hn _ rfl
        (s := { s with printer := .guard (i + 1), context := s.context.setIncoming i q })
        ⟨hrace.main, hrace.freed, SendingContext.valid_setIncoming hrace.incoming _ hvalid⟩ rfl
      refine ⟨.receive .allOk :: ls, t, exec_printer hrace.main rfl hdangling ?_ hexec, ht⟩
      simp [threadStep, hpc, netConnectionReceiveNonblocking, hdequeue]

/-- **The race of the printing thread.** In every run of the client program with at least one port:
the main thread is never about to use a released block and releases no block twice. The printing
thread can come to use a released block, before any other thread moves, exactly if it was created, a
block has been released and the program has not ended: so from the first `net_connection_delete` of
`client_delete_context` on, and not before.
Source: `client.c`, `client`, `client_delete_context`, `print_received_messages`
Kind: P
Hyps: at least one port -/
theorem printer_race_iff (hn : 0 < n) {mode : ClientMode} {serverSockaddrs : Fin n → SockaddrIn}
    {ls : List (ProgramLabel n)}
    (h : Run (programStep pids) (fun _ _ => True)
      (Program.init (.created mode serverSockaddrs)) ls s) :
    ¬s.Dangling s.mainUses ∧ s.freed.Nodup ∧
      ((∃ ls' s', Run (programStep pids) (fun _ l => l.ofPrinter = true) s ls' s' ∧
          s'.main ≠ .returned ∧ s'.Dangling s'.printerUses) ↔
        s.printer ≠ .absent ∧ s.freed ≠ [] ∧ s.main ≠ .returned) := by
  have hvalid : (createdQueue Message 5).Valid :=
    (createdQueue_reachable (by decide) (by decide)).valid.2
  have hinv : RaceInv s := h.invariant (RaceInv.init fun _ => hvalid)
    fun _ _ _ hinv _ hs => hinv.moved (programMoved_of_step hs).1
  refine ⟨hinv.not_dangling_main, (nodup_deleteOrder n).sublist hinv.released.sublist, ?_, ?_⟩
  · rintro ⟨ls', s', hrun, hmain', u, hu, hfreed⟩
    obtain ⟨hmain, hsame, habsent⟩ := of_printerRun hrun
    refine ⟨?_, ?_, hmain ▸ hmain'⟩
    · intro hpc
      simp [Program.printerUses, habsent hpc] at hu
    · rw [← hsame]
      exact List.ne_nil_of_mem hfreed
  · rintro ⟨hpresent, hne, hmain⟩
    -- the first block that is released is the first connection
    have hfirst : Block.connection ⟨0, hn⟩ ∈ s.freed := by
      obtain ⟨b, freed, hfreed⟩ := List.exists_cons_of_ne_nil hne
      obtain ⟨left, hleft⟩ := hinv.released
      obtain ⟨m, rfl⟩ := Nat.exists_eq_succ_of_ne_zero hn.ne'
      rw [hfreed, deleteOrder, List.finRange_succ, List.map_cons] at hleft
      have hb := (List.cons.inj hleft).1
      rw [hfreed, hb]
      exact List.mem_cons_self
    obtain ⟨ls', t, hexec, ht⟩ :=
      exists_dangling pids hn ⟨hmain, hfirst, hinv.incoming⟩ hpresent
    have hrun := Run.of_exec hexec
    exact ⟨ls', t, hrun, (of_printerRun hrun).1 ▸ hmain, ht⟩

end race

/-- The default mode: one request, and then the first connection is deleted under the printing
thread.
Source: `client.c`, `client`
Kind: C -/
theorem printer_race_after_first_delete :
    ∃ s : Program 2, Run (programStep [7]) (fun _ _ => True)
        (Program.init (.created .normal twoPorts.serverSockaddrs))
        [.start true, .create true, .send sendPidOk, .next, .delete] s ∧
      ∃ ls' s', Run (programStep [7]) (fun _ l => l.ofPrinter = true) s ls' s' ∧
        s'.Dangling s'.printerUses := by
  obtain ⟨s, hrun, hs⟩ := Run.exists_of_exec (show
    (exec (programStep [7]) (fun _ _ => True)
      (Program.init (.created .normal twoPorts.serverSockaddrs))
      [.start true, .create true, .send sendPidOk, .next, .delete]).map
        (fun s => decide (s.printer ≠ .absent ∧ s.freed ≠ [] ∧ s.main ≠ .returned)) = some true by
    decide +kernel)
  obtain ⟨-, -, hiff⟩ := printer_race_iff (by decide) hrun
  obtain ⟨ls', s', hrun', -, hdangling⟩ := hiff.mpr (of_decide_eq_true hs)
  exact ⟨s, hrun, ls', s', hrun', hdangling⟩

end CpuMonitor.Client
