import CpuMonitor.Server.Update

/-!
# The processes of the server

`server/server.c` and `utility/safe_process.c`: `main` creates the journal, forks the workers,
starts the thread that hands the journal out, waits for the first of its children to end, and
returns. A worker looks at its parent between two calls of `server_worker_update(worker, 100)` and
ends when `getppid()` is 1.

* **A worker process** `WorkerProcess`, `jobStep`: the phases of `worker_process_job` around the
  worker's connection (`Conn`), whose threads go on beside them.
* **The tree** `ServerTree n`, `treeStep`: `main` and its `n` workers, with every outcome of `fork`,
  `pthread_create` and of the workers' own calls, and processes killed from outside. `Host` says
  which pid `main` has and who adopts its orphans.
* **Counting** `JobInv`: a worker looks at its parent after every hundred messages, and at no other
  time (`status_checked_every_hundred`).
* **Who ends first** `OrderInv`: while `main` lives no worker takes itself for an orphan, unless
  `main` is process 1 itself (`orphan_check_sound_iff`), and `main` does not return before a worker
  has failed or was killed (`main_outlives_workers`).
* **What is left after `main`** `orphans_stop_serving`: every worker handles at most a hundred
  further messages.
-/

namespace CpuMonitor.Server

open CpuMonitor.Lib CpuMonitor.Network

variable {Q σ ε : Type}

/-! ## A worker process -/

/-- Why a worker process has ended.
Source: `server.c`, `worker_process_job`
Kind: D -/
inductive ExitCause
  /-- `server_worker_create` returned `NULL`. -/
  | createFailed
  /-- `server_worker_start` failed. -/
  | startFailed
  /-- `getppid()` was 1. -/
  | orphaned
  /-- A signal from outside. -/
  | killed
  deriving DecidableEq

/-- Where a worker process is.
Source: `server.c`, `worker_process_job`
Kind: D -/
inductive JobPhase
  /-- Not forked yet. -/
  | unborn
  /-- Before `server_worker_create`. -/
  | creating
  /-- Before the end of `server_worker_start`. -/
  | starting
  /-- Before `safe_process_check_status`. -/
  | checking
  /-- In `server_worker_update`. -/
  | updating
  /-- In `sleep(1)`. -/
  | sleeping
  | exited (cause : ExitCause)
  deriving DecidableEq

/-- A worker process, with the number of status checks it has passed.
Source: `server.c`, `worker_process_job`, `worker_process_clear`
Kind: D -/
structure WorkerProcess (Q σ : Type) where
  phase : JobPhase
  conn : Conn Q σ
  checks : ℕ

/-- The argument of `server_worker_update`.
Source: `server.c`, `worker_process_job`, `worker_process_clear`
Kind: D -/
def updateMaxMessages : ℕ := 100

/-- The steps of a worker process, and what the system answers.
Source: `server.c`, `worker_process_job`
Kind: D -/
inductive JobLabel (ε : Type)
  /-- `server_worker_create` and `server_worker_set_on_message`. -/
  | create (ok : Bool)
  /-- The end of `server_worker_start`. -/
  | start (ok : Bool)
  /-- `safe_process_check_status`, and the call of `server_worker_update` if it returns. -/
  | check
  /-- A step of the worker's connection. -/
  | conn (label : Label ε)
  /-- `server_worker_update` returns. -/
  | updateReturn
  /-- `sleep(1)` returns. -/
  | wake

/-- The steps inside `server_worker_update`.
Source: `server.c`, `worker_process_job`, `worker_process_clear`
Kind: D -/
def Label.insideUpdate : Label ε → Bool
  | .workDequeue _ | .handle _ | .enqueueOutgoing _ => true
  | _ => false

/-- The steps that begin and end a call of `server_worker_update`.
Source: `server.c`, `worker_process_job`, `worker_process_clear`
Kind: D -/
def Label.delimitsUpdate : Label ε → Bool
  | .updateCall _ | .updateReturn _ => true
  | _ => false

/-- The process is forked and has not ended.
Source: `server.c`, `worker_process_job`
Kind: D -/
def JobPhase.alive : JobPhase → Bool
  | .unborn => false
  | .exited _ => false
  | _ => true

/-- The connection's threads run from `server_worker_start` to the end of the process.
Source: `server.c`, `worker_process_job`
Kind: D -/
def JobPhase.threadsRun : JobPhase → Bool
  | .starting | .checking | .updating | .sleeping => true
  | _ => false

section job

variable (ops : QueueOps Q) (handler : Handler ε σ)

/-- One step of a worker process whose `getppid()` returns `ppid`. Nothing sets `is_running` to zero
before the process deletes its worker, so the loop of `server_worker_update` ends at its count.
Source: `server.c`, `worker_process_job`, `worker_process_clear`; `safe_process.c`,
`safe_process_check_status`, `safe_process_delete_this`
Kind: D
Fidelity: exact (`server_worker_delete` before the exit is one step with it) -/
def jobStep (ppid : ℕ) (p : WorkerProcess Q σ) : JobLabel ε → Option (WorkerProcess Q σ)
  | .create ok =>
      match p.phase with
      | .creating => some { p with phase := if ok then .starting else .exited .createFailed }
      | _ => none
  | .start ok =>
      match p.phase with
      | .starting => some { p with phase := if ok then .checking else .exited .startFailed }
      | _ => none
  | .check =>
      match p.phase with
      | .checking =>
          if ppid = 1 then some { p with phase := .exited .orphaned }
          else do
            let conn ← step ops handler p.conn (.updateCall updateMaxMessages)
            some { phase := .updating, conn := conn, checks := p.checks + 1 }
      | _ => none
  | .conn label =>
      if label.delimitsUpdate ∨ !p.phase.threadsRun ∨ label.insideUpdate ∧ p.phase ≠ .updating then
        none
      else do
        let conn ← step ops handler p.conn label
        some { p with conn := conn }
  | .updateReturn =>
      match p.phase with
      | .updating => do
          let conn ← step ops handler p.conn (.updateReturn true)
          some { p with phase := .sleeping, conn := conn }
      | _ => none
  | .wake =>
      match p.phase with
      | .sleeping => some { p with phase := .checking }
      | _ => none

/-- What a step of a worker process can do: one case for each outcome.
Source: `server.c`, `worker_process_job`
Kind: D -/
inductive JobMoved (ppid : ℕ) (p : WorkerProcess Q σ) : JobLabel ε → WorkerProcess Q σ → Prop
  | create (phase : p.phase = .creating) :
      JobMoved ppid p (.create true) { p with phase := .starting }
  | createFailed (phase : p.phase = .creating) :
      JobMoved ppid p (.create false) { p with phase := .exited .createFailed }
  | start (phase : p.phase = .starting) :
      JobMoved ppid p (.start true) { p with phase := .checking }
  | startFailed (phase : p.phase = .starting) :
      JobMoved ppid p (.start false) { p with phase := .exited .startFailed }
  | orphaned (phase : p.phase = .checking) (orphan : ppid = 1) :
      JobMoved ppid p .check { p with phase := .exited .orphaned }
  | check {conn : Conn Q σ} (phase : p.phase = .checking) (parent : ppid ≠ 1)
      (moved : Moved ops handler p.conn (.updateCall updateMaxMessages) conn) :
      JobMoved ppid p .check { phase := .updating, conn := conn, checks := p.checks + 1 }
  | conn {label : Label ε} {conn : Conn Q σ} (running : p.phase.threadsRun = true)
      (inside : label.insideUpdate = true → p.phase = .updating)
      (proper : label.delimitsUpdate = false) (moved : Moved ops handler p.conn label conn) :
      JobMoved ppid p (.conn label) { p with conn := conn }
  | updateReturn {conn : Conn Q σ} (phase : p.phase = .updating)
      (moved : Moved ops handler p.conn (.updateReturn true) conn) :
      JobMoved ppid p .updateReturn { p with phase := .sleeping, conn := conn }
  | wake (phase : p.phase = .sleeping) : JobMoved ppid p .wake { p with phase := .checking }

variable {ops handler}

/-- A step of a worker process does one of these things.
Source: `server.c`, `worker_process_job`
Kind: L -/
theorem jobMoved_of_step {ppid : ℕ} {p p' : WorkerProcess Q σ} {l : JobLabel ε}
    (hs : jobStep ops handler ppid p l = some p') : JobMoved ops handler ppid p l p' := by
  cases l with
  | create ok =>
      simp only [jobStep] at hs
      split at hs
      · rename_i hphase
        obtain rfl := Option.some.inj hs
        cases ok with
        | false => exact .createFailed hphase
        | true => exact .create hphase
      · cases hs
  | start ok =>
      simp only [jobStep] at hs
      split at hs
      · rename_i hphase
        obtain rfl := Option.some.inj hs
        cases ok with
        | false => exact .startFailed hphase
        | true => exact .start hphase
      · cases hs
  | check =>
      simp only [jobStep] at hs
      split at hs
      · rename_i hphase
        split_ifs at hs with hppid
        · obtain rfl := Option.some.inj hs
          exact .orphaned hphase hppid
        · obtain ⟨conn, hconn, hs⟩ := Option.bind_eq_some_iff.mp hs
          obtain rfl := Option.some.inj hs
          exact .check hphase hppid (moved_of_step hconn)
      · cases hs
  | conn label =>
      simp only [jobStep] at hs
      split_ifs at hs with hguard
      obtain ⟨conn, hconn, hs⟩ := Option.bind_eq_some_iff.mp hs
      obtain rfl := Option.some.inj hs
      simp only [not_or, not_and, Bool.not_eq_true, Bool.not_eq_eq_eq_not, Bool.not_true,
        Bool.not_eq_false, not_not] at hguard
      exact .conn hguard.2.1 hguard.2.2 hguard.1 (moved_of_step hconn)
  | updateReturn =>
      simp only [jobStep] at hs
      split at hs
      · rename_i hphase
        obtain ⟨conn, hconn, hs⟩ := Option.bind_eq_some_iff.mp hs
        obtain rfl := Option.some.inj hs
        exact .updateReturn hphase (moved_of_step hconn)
      · cases hs
  | wake =>
      simp only [jobStep] at hs
      split at hs
      · rename_i hphase
        obtain rfl := Option.some.inj hs
        exact .wake hphase
      · cases hs

end job

/-! ## Counting messages -/

section counting

variable {ops : QueueOps Q} {handler : Handler ε σ}

/-- A step that does not begin a call keeps the sum of the messages handled and those the call may
still handle.
Source: `server.c`, `main`, `worker_process_job`
Kind: P -/
theorem Moved.count_eq {s s' : Conn Q σ} {l : Label ε} (hm : Moved ops handler s l s')
    (hcall : ∀ n, l ≠ .updateCall n) (hreturn : l ≠ .updateReturn false) :
    s'.handledLog.length + s'.work.todo = s.handledLog.length + s.work.todo := by
  cases hm with
  | updateCall pc => exact absurd rfl (hcall _)
  | workDequeue pc dequeue => simp [WorkPc.todo, pc]
  | handle pc call =>
      simp only [List.length_append, List.length_singleton, WorkPc.todo, pc]
      omega
  | enqueueOutgoing pc enqueue => simp [WorkPc.todo, pc]
  | @updateReturn isRunning left pc done =>
      rcases done with rfl | rfl
      · simp [WorkPc.todo, pc]
      · exact absurd rfl hreturn
  | _ => rfl

/-- Only a step inside `server_worker_update`, or one that begins or ends it, moves the worker.
Source: `server.c`, `main`, `worker_process_job`
Kind: L -/
theorem Moved.work_eq_of_outside {s s' : Conn Q σ} {l : Label ε} (hm : Moved ops handler s l s')
    (hinside : l.insideUpdate = false) (hproper : l.delimitsUpdate = false) :
    s'.work = s.work := by
  cases hm with
  | updateCall pc => cases hproper
  | workEmpty pc dequeue => cases hinside
  | workDequeue pc dequeue => cases hinside
  | handle pc call => cases hinside
  | enqueueOutgoing pc enqueue => cases hinside
  | updateReturn pc done => cases hproper
  | _ => rfl

/-- Outside `server_worker_update`.
Source: `server.c`, `worker_process_job`
Kind: D -/
def JobPhase.outside : JobPhase → Bool
  | .updating => false
  | .exited _ => false
  | _ => true

/-- What a worker process keeps: outside of a call its loop is not in one, and the messages handled
and those the current call may still handle make up the hundreds of all calls.
Source: `server.c`, `worker_process_job`
Kind: D -/
structure JobInv (p : WorkerProcess Q σ) : Prop where
  outside : p.phase.outside = true ∨ p.phase = .exited .orphaned → p.conn.work = .out
  todo_le : p.conn.work.todo ≤ updateMaxMessages
  count : p.conn.handledLog.length + p.conn.work.todo = updateMaxMessages * p.checks

/-- The call returns at its count.
Source: `server.c`, `main`, `worker_process_job`
Kind: L -/
theorem Moved.work_of_updateReturn {s s' : Conn Q σ}
    (hm : Moved ops handler s (.updateReturn true) s') : s'.work = .out := by
  cases hm with
  | updateReturn pc done => rfl

/-- The call begins with all its messages to do.
Source: `server.c`, `main`, `worker_process_job`
Kind: L -/
theorem Moved.of_updateCall {s s' : Conn Q σ} {n : ℕ}
    (hm : Moved ops handler s (.updateCall n) s') :
    s.work = .out ∧ s'.work.todo = n ∧ s'.handledLog = s.handledLog := by
  cases hm with
  | updateCall pc => exact ⟨pc, rfl, rfl⟩

/-- A step inside or beside a call does not add to what the call may handle.
Source: `server.c`, `main`, `worker_process_job`
Kind: L -/
theorem Moved.todo_le {s s' : Conn Q σ} {l : Label ε} (hm : Moved ops handler s l s')
    (hcall : ∀ n, l ≠ .updateCall n) : s'.work.todo ≤ s.work.todo := by
  cases hm with
  | updateCall pc => exact absurd rfl (hcall _)
  | workDequeue pc dequeue => simp [WorkPc.todo, pc]
  | handle pc call => simp [WorkPc.todo, pc]
  | enqueueOutgoing pc enqueue => simp [WorkPc.todo, pc]
  | updateReturn pc done => exact Nat.zero_le _
  | _ => exact le_rfl

/-- **Every step of a worker process keeps the count.**
Source: `server.c`, `worker_process_job`
Kind: P -/
theorem JobInv.moved {ppid : ℕ} {p p' : WorkerProcess Q σ} {l : JobLabel ε} (h : JobInv p)
    (hm : JobMoved ops handler ppid p l p') : JobInv p' := by
  cases hm with
  | create phase => exact ⟨fun _ => h.outside (.inl (by rw [phase]; rfl)), h.todo_le, h.count⟩
  | createFailed phase => exact ⟨(by rintro (hout | hout) <;> cases hout), h.todo_le, h.count⟩
  | start phase => exact ⟨fun _ => h.outside (.inl (by rw [phase]; rfl)), h.todo_le, h.count⟩
  | startFailed phase => exact ⟨(by rintro (hout | hout) <;> cases hout), h.todo_le, h.count⟩
  | orphaned phase orphan =>
      exact ⟨fun _ => h.outside (.inl (by rw [phase]; rfl)), h.todo_le, h.count⟩
  | check phase parent moved =>
      obtain ⟨hwork, htodo, hlog⟩ := moved.of_updateCall
      refine ⟨(by rintro (hout | hout) <;> cases hout), htodo.le, ?_⟩
      have hcount := h.count
      rw [hwork, WorkPc.todo, Nat.add_zero] at hcount
      show _ + _ = updateMaxMessages * (p.checks + 1)
      rw [htodo, hlog, hcount, Nat.mul_succ]
  | @conn label conn running inside proper moved =>
      have hcall : ∀ n, label ≠ .updateCall n := by
        rintro n rfl
        cases proper
      have hcount := moved.count_eq hcall (by rintro rfl; cases proper)
      refine ⟨fun hout => ?_, (moved.todo_le hcall).trans h.todo_le, hcount.trans h.count⟩
      cases hinside : label.insideUpdate with
      | true =>
          rw [show p.phase = .updating from inside hinside] at hout
          rcases hout with hout | hout <;> cases hout
      | false => exact (moved.work_eq_of_outside hinside proper).trans (h.outside hout)
  | updateReturn phase moved =>
      have hcall : ∀ n, Label.updateReturn (ε := ε) true ≠ .updateCall n := by rintro n ⟨⟩
      have hcount := moved.count_eq hcall (by simp)
      exact ⟨fun _ => moved.work_of_updateReturn, (moved.todo_le hcall).trans h.todo_le,
        hcount.trans h.count⟩
  | wake phase => exact ⟨fun _ => h.outside (.inl (by rw [phase]; rfl)), h.todo_le, h.count⟩

/-- Only a living process takes a step.
Source: `server.c`, `worker_process_job`
Kind: L -/
theorem JobMoved.alive {ppid : ℕ} {p p' : WorkerProcess Q σ} {l : JobLabel ε}
    (hm : JobMoved ops handler ppid p l p') : p.phase.alive = true := by
  cases hm with
  | conn running inside proper moved =>
      cases hphase : p.phase with
      | unborn => rw [hphase] at running; cases running
      | exited cause => rw [hphase] at running; cases running
      | _ => rfl
  | create phase => rw [phase]; rfl
  | createFailed phase => rw [phase]; rfl
  | start phase => rw [phase]; rfl
  | startFailed phase => rw [phase]; rfl
  | orphaned phase orphan => rw [phase]; rfl
  | check phase parent moved => rw [phase]; rfl
  | updateReturn phase moved => rw [phase]; rfl
  | wake phase => rw [phase]; rfl

/-- A process takes itself for an orphan only if `getppid()` is 1.
Source: `server.c`, `worker_process_job`
Kind: L -/
theorem JobMoved.ppid_of_orphaned {ppid : ℕ} {p p' : WorkerProcess Q σ} {l : JobLabel ε}
    (hm : JobMoved ops handler ppid p l p') (h : p'.phase = .exited .orphaned) : ppid = 1 := by
  cases hm with
  | orphaned phase orphan => exact orphan
  | conn running inside proper moved =>
      rw [show p.phase = .exited .orphaned from h] at running
      cases running
  | _ => cases h

/-- A process whose `getppid()` is 1 passes no more checks, and one that looks is gone.
Source: `server.c`, `worker_process_job`
Kind: L -/
theorem JobMoved.of_orphan {p p' : WorkerProcess Q σ} {l : JobLabel ε}
    (hm : JobMoved ops handler 1 p l p') :
    p'.checks = p.checks ∧ (l = .check → p'.phase = .exited .orphaned) := by
  cases hm with
  | orphaned phase orphan => exact ⟨rfl, fun _ => rfl⟩
  | check phase parent moved => exact absurd rfl parent
  | _ => exact ⟨rfl, by rintro ⟨⟩⟩

end counting

/-! ## The tree -/

/-- How `main` has ended.
Source: `server.c`, `main`
Kind: D -/
inductive MainExit
  | journalFailed
  | forkFailed
  | threadFailed
  /-- `main` returned `EXIT_SUCCESS`. -/
  | returned
  /-- A signal from outside. -/
  | killed
  deriving DecidableEq

/-- Where `main` is.
Source: `server.c`, `main`
Kind: D -/
inductive MainPc
  /-- Before `journal_create`. -/
  | creating
  /-- Before the round `i` of the loop, or after the last one. -/
  | forking (i : ℕ)
  /-- In `wait(NULL)`. -/
  | waiting
  /-- Before `journal_delete`. -/
  | deleting
  /-- After it. -/
  | returning
  | exited (cause : MainExit)
  deriving DecidableEq

/-- The processes around the server: the pid of `main`, and the process that orphans are given to.
Source: none: infrastructure
Kind: D -/
structure Host where
  mainPid : ℕ
  reaper : ℕ

/-- `main` and its `n` workers; `journalMapped` and `receiver` are about the mapping of the journal
in `main` and the thread that hands it out.
Source: `server.c`, `main`
Kind: D -/
structure ServerTree (n : ℕ) (Q σ : Type) where
  main : MainPc
  workers : Fin n → WorkerProcess Q σ
  journalMapped : Bool
  receiver : Bool

/-- Who moves, and what the system answers.
Source: `server.c`, `main`
Kind: D -/
inductive TreeLabel (n : ℕ) (ε : Type)
  | journalCreate (ok : Bool)
  | fork (ok : Bool)
  | pthreadCreate (ok : Bool)
  /-- `wait(NULL)` returns. -/
  | wait
  | journalDelete
  /-- `main` returns. -/
  | exit
  /-- A round of `journal_receiver_job`. -/
  | transfer (ok : Bool)
  | killMain
  | worker (i : Fin n) (label : JobLabel ε)
  | kill (i : Fin n)

/-- The process has ended.
Source: `server.c`, `worker_process_job`
Kind: D -/
def JobPhase.ended : JobPhase → Bool
  | .exited _ => true
  | _ => false

/-- `main` has ended.
Source: `server.c`, `main`
Kind: D -/
def MainPc.ended : MainPc → Bool
  | .exited _ => true
  | _ => false

/-- What `getppid()` returns to a worker.
Source: `server.c`, `worker_process_job`, `worker_process_clear`
Kind: D -/
def Host.ppid (host : Host) (main : MainPc) : ℕ := if main.ended then host.reaper else host.mainPid

section tree

variable {n : ℕ} (ops : QueueOps Q) (handler : Handler ε σ) (host : Host)

/-- `main` ends: the thread of the journal ends with it.
Source: `server.c`, `main`
Kind: D -/
def ServerTree.exitMain (s : ServerTree n Q σ) (cause : MainExit) : ServerTree n Q σ :=
  { s with main := .exited cause, receiver := false }

/-- Another state of a worker.
Source: `server.c`, `main`
Kind: D -/
def ServerTree.setWorker (s : ServerTree n Q σ) (i : Fin n) (p : WorkerProcess Q σ) :
    ServerTree n Q σ :=
  { s with workers := Function.update s.workers i p }

/-- One step of one of the processes. `wait` blocks until a child has ended; a transfer after the
journal was unmapped has no defined outcome.
Source: `server.c`, `main`, `journal_receiver_job`; `safe_process.c`, `safe_process_create`
Kind: D
Fidelity: exact (the greeting in the journal is left out; a worker never leaves its loop, so it
never comes back to the loop of `main`; what the workers find in the journal they share is part of
the answers `ε` to the worker function, or of its own state) -/
def treeStep (s : ServerTree n Q σ) : TreeLabel n ε → Option (ServerTree n Q σ)
  | .journalCreate ok =>
      match s.main with
      | .creating =>
          if ok then some { s with main := .forking 0, journalMapped := true }
          else some (s.exitMain .journalFailed)
      | _ => none
  | .fork ok =>
      match s.main with
      | .forking i =>
          if hi : i < n then
            if ok then
              some { s.setWorker ⟨i, hi⟩ { s.workers ⟨i, hi⟩ with phase := .creating } with
                main := .forking (i + 1) }
            else some (s.exitMain .forkFailed)
          else none
      | _ => none
  | .pthreadCreate ok =>
      match s.main with
      | .forking i =>
          if i < n then none
          else if ok then some { s with main := .waiting, receiver := true }
          else some (s.exitMain .threadFailed)
      | _ => none
  | .wait =>
      match s.main with
      | .waiting =>
          if n = 0 ∨ ∃ i, (s.workers i).phase.ended = true then some { s with main := .deleting }
          else none
      | _ => none
  | .journalDelete =>
      match s.main with
      | .deleting => some { s with main := .returning, journalMapped := false }
      | _ => none
  | .exit =>
      match s.main with
      | .returning => some (s.exitMain .returned)
      | _ => none
  | .transfer ok =>
      if s.receiver && s.journalMapped then some { s with receiver := ok } else none
  | .killMain => if s.main.ended then none else some (s.exitMain .killed)
  | .worker i label => do
      let p ← jobStep ops handler (host.ppid s.main) (s.workers i) label
      some (s.setWorker i p)
  | .kill i =>
      if (s.workers i).phase.alive then
        some (s.setWorker i { s.workers i with phase := .exited .killed })
      else none

/-- What a step of the tree can do.
Source: `server.c`, `main`
Kind: D -/
inductive TreeMoved (s : ServerTree n Q σ) : TreeLabel n ε → ServerTree n Q σ → Prop
  | journalCreate (pc : s.main = .creating) :
      TreeMoved s (.journalCreate true) { s with main := .forking 0, journalMapped := true }
  | fork {i : Fin n} (pc : s.main = .forking i) :
      TreeMoved s (.fork true)
        { s.setWorker i { s.workers i with phase := .creating } with main := .forking (i + 1) }
  | pthreadCreate {i : ℕ} (pc : s.main = .forking i) :
      TreeMoved s (.pthreadCreate true) { s with main := .waiting, receiver := true }
  | wait (pc : s.main = .waiting) (child : n = 0 ∨ ∃ i, (s.workers i).phase.ended = true) :
      TreeMoved s .wait { s with main := .deleting }
  | journalDelete (pc : s.main = .deleting) :
      TreeMoved s .journalDelete { s with main := .returning, journalMapped := false }
  | exit (pc : s.main = .returning) : TreeMoved s .exit (s.exitMain .returned)
  | transfer {ok : Bool} (receiver : s.receiver = true) :
      TreeMoved s (.transfer ok) { s with receiver := ok }
  | mainFailed {l : TreeLabel n ε} {cause : MainExit} (alive : s.main.ended = false)
      (early : cause ≠ .returned) : TreeMoved s l (s.exitMain cause)
  | worker {i : Fin n} {label : JobLabel ε} {p : WorkerProcess Q σ}
      (moved : JobMoved ops handler (host.ppid s.main) (s.workers i) label p) :
      TreeMoved s (.worker i label) (s.setWorker i p)
  | kill {i : Fin n} (alive : (s.workers i).phase.alive = true) :
      TreeMoved s (.kill i) (s.setWorker i { s.workers i with phase := .exited .killed })

variable {ops handler host}

/-- A step of the process tree does one of these things.
Source: `server.c`, `main`, `worker_process_job`
Kind: L -/
theorem treeMoved_of_step {s s' : ServerTree n Q σ} {l : TreeLabel n ε}
    (hs : treeStep ops handler host s l = some s') : TreeMoved ops handler host s l s' := by
  cases l with
  | journalCreate ok =>
      simp only [treeStep] at hs
      split at hs
      · rename_i hpc
        split_ifs at hs with hok
        · obtain rfl := Option.some.inj hs
          subst hok
          exact .journalCreate hpc
        · obtain rfl := Option.some.inj hs
          exact .mainFailed (by rw [hpc]; rfl) (by decide)
      · cases hs
  | fork ok =>
      simp only [treeStep] at hs
      split at hs
      · rename_i i hpc
        split_ifs at hs with hi hok
        · obtain rfl := Option.some.inj hs
          subst hok
          exact .fork (i := ⟨i, hi⟩) hpc
        · obtain rfl := Option.some.inj hs
          exact .mainFailed (by rw [hpc]; rfl) (by decide)
      · cases hs
  | pthreadCreate ok =>
      simp only [treeStep] at hs
      split at hs
      · rename_i i hpc
        split_ifs at hs with hi hok
        · obtain rfl := Option.some.inj hs
          subst hok
          exact .pthreadCreate hpc
        · obtain rfl := Option.some.inj hs
          exact .mainFailed (by rw [hpc]; rfl) (by decide)
      · cases hs
  | wait =>
      simp only [treeStep] at hs
      split at hs
      · rename_i hpc
        split_ifs at hs with hchild
        obtain rfl := Option.some.inj hs
        exact .wait hpc hchild
      · cases hs
  | journalDelete =>
      simp only [treeStep] at hs
      split at hs
      · rename_i hpc
        obtain rfl := Option.some.inj hs
        exact .journalDelete hpc
      · cases hs
  | exit =>
      simp only [treeStep] at hs
      split at hs
      · rename_i hpc
        obtain rfl := Option.some.inj hs
        exact .exit hpc
      · cases hs
  | transfer ok =>
      simp only [treeStep] at hs
      split_ifs at hs with hguard
      obtain rfl := Option.some.inj hs
      exact .transfer (Bool.and_eq_true_iff.mp hguard).1
  | killMain =>
      simp only [treeStep] at hs
      split_ifs at hs with hended
      obtain rfl := Option.some.inj hs
      exact .mainFailed (Bool.not_eq_true _ ▸ hended) (by decide)
  | worker i label =>
      simp only [treeStep] at hs
      obtain ⟨p, hjob, hs⟩ := Option.bind_eq_some_iff.mp hs
      obtain rfl := Option.some.inj hs
      exact .worker (jobMoved_of_step hjob)
  | kill i =>
      simp only [treeStep] at hs
      split_ifs at hs with hguard
      obtain rfl := Option.some.inj hs
      exact .kill hguard

end tree

/-! ## What the tree keeps -/

section invariant

variable {n : ℕ} {ops : QueueOps Q} {handler : Handler ε σ} {host : Host}
  {s s' : ServerTree n Q σ} {l : TreeLabel n ε}

/-- The server before `main`: no worker is forked, and nothing has happened to the connections that
the workers will create.
Source: `server.c`, `main`
Kind: D -/
def ServerTree.init (conns : Fin n → Conn Q σ) : ServerTree n Q σ :=
  ⟨.creating, fun i => ⟨.unborn, conns i, 0⟩, false, false⟩

/-- A new connection.
Source: none: infrastructure
Kind: D -/
def Conn.Fresh (s : Conn Q σ) : Prop := s.work = .out ∧ s.handledLog = []

/-- A step of the tree is about one worker, or about none of them.
Source: `server.c`, `main`
Kind: L -/
theorem ServerTree.forall_setWorker {I : Fin n → WorkerProcess Q σ → Prop}
    (h : ∀ i, I i (s.workers i)) {i : Fin n} {p : WorkerProcess Q σ} (hp : I i p) (j : Fin n) :
    I j ((s.setWorker i p).workers j) := by
  by_cases hj : j = i
  · subst hj
    simpa [ServerTree.setWorker] using hp
  · simpa [ServerTree.setWorker, Function.update_of_ne hj] using h j

/-- What every step keeps: the count of each worker, and that a worker is forked once.
Source: none: infrastructure
Kind: D -/
structure TreeInv (s : ServerTree n Q σ) : Prop where
  jobs : ∀ i, JobInv (s.workers i)
  unborn : ∀ i : Fin n, s.main = .creating ∨ (∃ k ≤ i.val, s.main = .forking k) →
    (s.workers i).phase = .unborn

/-- At first no worker is forked.
Source: `server.c`, `main`, `worker_process_job`
Kind: L -/
theorem TreeInv.init {conns : Fin n → Conn Q σ} (hfresh : ∀ i, (conns i).Fresh) :
    TreeInv (ServerTree.init conns) where
  jobs := by
    intro i
    obtain ⟨hwork, hlog⟩ := hfresh i
    refine ⟨fun _ => hwork, ?_, ?_⟩
    · simp [ServerTree.init, hwork, WorkPc.todo]
    · simp [ServerTree.init, hwork, hlog, WorkPc.todo]
  unborn := fun _ _ => rfl

/-- **A step** keeps the counts.
Source: `server.c`, `main`, `worker_process_job`
Kind: P -/
theorem TreeInv.moved (h : TreeInv s) (hm : TreeMoved ops handler host s l s') : TreeInv s' := by
  have hkeep : ∀ {i : Fin n} {p : WorkerProcess Q σ}, (s.workers i).phase.alive = true →
      JobInv p → TreeInv (s.setWorker i p) := by
    intro i p halive hp
    refine ⟨ServerTree.forall_setWorker (I := fun _ => JobInv) h.jobs hp, ?_⟩
    intro j hmain
    have hunborn := h.unborn j hmain
    have hne : j ≠ i := by
      rintro rfl
      rw [hunborn] at halive
      cases halive
    simpa [ServerTree.setWorker, Function.update_of_ne hne] using hunborn
  cases hm with
  | journalCreate pc => exact ⟨h.jobs, fun i _ => h.unborn i (.inl pc)⟩
  | @fork i pc =>
      have hunborn := h.unborn i (.inr ⟨i, le_rfl, pc⟩)
      obtain ⟨houtside, htodo, hcount⟩ := h.jobs i
      have hjob : JobInv { s.workers i with phase := .creating } :=
        ⟨fun _ => houtside (.inl (by rw [hunborn]; rfl)), htodo, hcount⟩
      refine ⟨ServerTree.forall_setWorker (I := fun _ => JobInv) h.jobs hjob, ?_⟩
      rintro j (hmain | ⟨k, hk, hmain⟩)
      · cases hmain
      · -- the round that is left to come is for a later worker
        obtain rfl : i.val + 1 = k := MainPc.forking.inj hmain
        have hne : j ≠ i := by
          rintro rfl
          omega
        have hold := h.unborn j (.inr ⟨i, by omega, pc⟩)
        simpa [ServerTree.setWorker, Function.update_of_ne hne] using hold
  | pthreadCreate pc => exact ⟨h.jobs, by rintro i (hmain | ⟨k, -, hmain⟩) <;> cases hmain⟩
  | wait pc child => exact ⟨h.jobs, by rintro i (hmain | ⟨k, -, hmain⟩) <;> cases hmain⟩
  | journalDelete pc => exact ⟨h.jobs, by rintro i (hmain | ⟨k, -, hmain⟩) <;> cases hmain⟩
  | exit pc => exact ⟨h.jobs, by rintro i (hmain | ⟨k, -, hmain⟩) <;> cases hmain⟩
  | transfer receiver => exact ⟨h.jobs, h.unborn⟩
  | mainFailed alive early => exact ⟨h.jobs, by rintro i (hmain | ⟨k, -, hmain⟩) <;> cases hmain⟩
  | @worker i label p moved => exact hkeep moved.alive ((h.jobs i).moved moved)
  | @kill i alive =>
      obtain ⟨-, htodo, hcount⟩ := h.jobs i
      exact hkeep alive ⟨(by rintro (hout | hout) <;> cases hout), htodo, hcount⟩

/-- The runs of the server.
Source: `server.c`, `main`
Kind: D -/
abbrev TreeRun (ops : QueueOps Q) (handler : Handler ε σ) (host : Host) :=
  Run (treeStep (n := n) ops handler host) fun _ _ => True

/-- **Every run** keeps them.
Source: `server.c`, `main`, `worker_process_job`
Kind: P -/
theorem treeInv_of_run {s₀ : ServerTree n Q σ} (h₀ : TreeInv s₀) {ls : List (TreeLabel n ε)}
    (h : TreeRun ops handler host s₀ ls s) : TreeInv s :=
  h.invariant h₀ fun _ _ _ hinv _ hs => hinv.moved (treeMoved_of_step hs)

/-- **A worker looks at its parent after every hundred messages, and at no other time.** In every
run of the server, for every worker: the messages it has handled are within the last hundred of the
calls it has made, one for each status check it has passed; and when it is before a check, asleep
before the next one, or gone because of one, it has handled exactly a hundred for each.
Source: `server.c`, `worker_process_job`; `server_worker.c`, `server_worker_update`;
`safe_process.c`, `safe_process_check_status`
Kind: P
Hyps: the connections are new -/
theorem status_checked_every_hundred {conns : Fin n → Conn Q σ} (hfresh : ∀ i, (conns i).Fresh)
    {ls : List (TreeLabel n ε)} (h : TreeRun ops handler host (ServerTree.init conns) ls s)
    (i : Fin n) :
    (s.workers i).conn.handledLog.length ≤ 100 * (s.workers i).checks ∧
    100 * (s.workers i).checks ≤ (s.workers i).conn.handledLog.length + 100 ∧
    ((s.workers i).phase = .checking ∨ (s.workers i).phase = .sleeping ∨
        (s.workers i).phase = .exited .orphaned →
      (s.workers i).conn.handledLog.length = 100 * (s.workers i).checks) := by
  obtain ⟨houtside, htodo, hcount⟩ := (treeInv_of_run (.init hfresh) h).jobs i
  rw [updateMaxMessages] at htodo hcount
  refine ⟨by omega, by omega, ?_⟩
  intro hphase
  have hwork : (s.workers i).conn.work = .out := by
    apply houtside
    rcases hphase with hphase | hphase | hphase
    · exact .inl (by rw [hphase]; rfl)
    · exact .inl (by rw [hphase]; rfl)
    · exact .inr hphase
  rw [hwork, WorkPc.todo] at hcount
  omega

/-- Worker `i` is forked as the first one, created and started, and looks at its parent.
Source: none: infrastructure
Kind: D -/
def firstCheck (i : Fin n) : List (TreeLabel n ε) :=
  [.journalCreate true, .fork true, .worker i (.create true), .worker i (.start true),
    .worker i .check]

/-- A machine with its first process beside the server.
Source: none: infrastructure
Kind: D -/
def usualHost : Host := ⟨7, 1⟩

/-- One worker, with a new connection.
Source: none: infrastructure
Kind: D -/
def oneWorker : ServerTree 1 (MessageQueue Tagged) Journal := ServerTree.init fun _ => newWorker

/-- A new worker has not done anything yet.
Source: none: infrastructure
Kind: L -/
theorem newWorker_fresh (_ : Fin 1) : newWorker.Fresh := ⟨rfl, rfl⟩

/-- One request arrives at the first worker and is handled.
Source: none: infrastructure
Kind: D -/
def handleFirst : List (TreeLabel 1 HandlerEnv) :=
  (receiveLabels (unknownRequest firstClient) zeroMemory .allOk ++
    [Label.workDequeue .allOk, Label.handle quietEnv]).map fun label => .worker 0 (.conn label)

/-- A worker with one request of its first hundred.
Source: `server.c`, `main`, `worker_process_job`
Kind: C -/
theorem status_checked_every_hundred_first :
    ∃ s, TreeRun ringOps workerOnMessage usualHost oneWorker (firstCheck 0 ++ handleFirst) s ∧
      (s.workers 0).checks = 1 ∧ (s.workers 0).conn.handledLog.length = 1 ∧
      (s.workers 0).conn.handledLog.length ≤ 100 * (s.workers 0).checks := by
  obtain ⟨s, hrun, hs⟩ := Run.exists_of_exec
    (show (exec (treeStep ringOps workerOnMessage usualHost) (fun _ _ => True) oneWorker
        (firstCheck 0 ++ handleFirst)).map
      (fun s => decide ((s.workers 0).checks = 1 ∧ (s.workers 0).conn.handledLog.length = 1)) =
        some true by decide +kernel)
  obtain ⟨hchecks, hhandled⟩ := of_decide_eq_true hs
  exact ⟨s, hrun, hchecks, hhandled, (status_checked_every_hundred newWorker_fresh hrun 0).1⟩

end invariant

/-! ## Who ends first -/

section order

variable {n : ℕ} {ops : QueueOps Q} {handler : Handler ε σ} {host : Host}
  {s s' : ServerTree n Q σ} {l : TreeLabel n ε}

/-- A worker has failed to start, or was killed.
Source: `server.c`, `main`
Kind: D -/
def ServerTree.WorkerFailed (s : ServerTree n Q σ) : Prop :=
  ∃ i cause, (s.workers i).phase = .exited cause ∧ cause ≠ .orphaned

/-- The end of `main`: it has come back from `wait`.
Source: `server.c`, `main`
Kind: D -/
def MainPc.afterWait : MainPc → Bool
  | .deleting | .returning | .exited .returned => true
  | _ => false

/-- Between `journal_create` and `journal_delete`.
Source: `server.c`, `main`
Kind: D -/
def MainPc.holdsJournal : MainPc → Bool
  | .forking _ | .waiting | .deleting => true
  | _ => false

/-- What every step keeps if `main` is not process 1.
Source: none: infrastructure
Kind: D -/
structure OrderInv (s : ServerTree n Q σ) : Prop where
  /-- Only the orphans of a `main` that has ended take themselves for orphans. -/
  orphaned : ∀ i, (s.workers i).phase = .exited .orphaned → s.main.ended = true
  failed : s.main.afterWait = true → n = 0 ∨ s.WorkerFailed
  mapped : s.main.holdsJournal = true → s.journalMapped = true
  receiver : s.receiver = true → s.main.holdsJournal = true ∨ s.main = .returning

/-- At first `main` has not ended and nothing is mapped.
Source: `server.c`, `main`, `worker_process_job`
Kind: L -/
theorem OrderInv.init (conns : Fin n → Conn Q σ) : OrderInv (ServerTree.init conns) where
  orphaned := by rintro i ⟨⟩
  failed := by rintro ⟨⟩
  mapped := by rintro ⟨⟩
  receiver := by rintro ⟨⟩

/-- A worker that has failed stays so, whatever happens to another one.
Source: `server.c`, `main`
Kind: L -/
theorem ServerTree.WorkerFailed.setWorker (h : s.WorkerFailed) {i : Fin n}
    {p : WorkerProcess Q σ} (halive : (s.workers i).phase.alive = true) :
    (s.setWorker i p).WorkerFailed := by
  obtain ⟨j, cause, hphase, hcause⟩ := h
  have hne : j ≠ i := by
    rintro rfl
    rw [hphase] at halive
    cases halive
  refine ⟨j, cause, ?_, hcause⟩
  simpa [ServerTree.setWorker, Function.update_of_ne hne] using hphase

/-- A step of a living worker that does not make it an orphan under a living `main`.
Source: `server.c`, `main`, `worker_process_job`
Kind: L -/
theorem OrderInv.setWorker (h : OrderInv s) {i : Fin n} {p : WorkerProcess Q σ}
    (halive : (s.workers i).phase.alive = true)
    (hp : p.phase = .exited .orphaned → s.main.ended = true) : OrderInv (s.setWorker i p) where
  orphaned := ServerTree.forall_setWorker
    (I := fun _ p => p.phase = .exited .orphaned → s.main.ended = true) h.orphaned hp
  failed := by
    intro hwait
    rcases h.failed hwait with hzero | hfailed
    · exact .inl hzero
    · exact .inr (hfailed.setWorker halive)
  mapped := h.mapped
  receiver := h.receiver

/-- A worker that has ended while `main` waits for it has failed or was killed.
Source: `server.c`, `main`, `worker_process_job`
Kind: P -/
theorem OrderInv.failed_of_ended (h : OrderInv s) (halive : s.main.ended = false) {i : Fin n}
    (hi : (s.workers i).phase.ended = true) : s.WorkerFailed := by
  cases hphase : (s.workers i).phase with
  | exited cause =>
      refine ⟨i, cause, hphase, ?_⟩
      rintro rfl
      rw [h.orphaned i hphase] at halive
      cases halive
  | _ =>
      rw [hphase] at hi
      cases hi

/-- While `main` lives no worker takes itself for an orphan.
Source: `server.c`, `main`, `worker_process_job`
Kind: L -/
theorem OrderInv.not_orphaned (h : OrderInv s) (halive : s.main.ended = false) (i : Fin n) :
    (s.workers i).phase ≠ .exited .orphaned := by
  intro hi
  rw [h.orphaned i hi] at halive
  cases halive

/-- **A step** keeps the order in which `main` and the workers end.
Source: `server.c`, `main`, `worker_process_job`
Kind: P -/
theorem OrderInv.moved (hpid : host.mainPid ≠ 1) (h : OrderInv s)
    (hm : TreeMoved ops handler host s l s') : OrderInv s' := by
  cases hm with
  | journalCreate pc =>
      have halive := h.not_orphaned (by rw [pc]; rfl)
      refine ⟨fun i hi => absurd hi (halive i), by rintro ⟨⟩, fun _ => rfl, fun _ => .inl rfl⟩
  | @fork i pc =>
      have halive := h.not_orphaned (by rw [pc]; rfl)
      refine ⟨fun j hj => ?_, by rintro ⟨⟩, fun _ => h.mapped (by rw [pc]; rfl), fun _ => .inl rfl⟩
      have hne := ServerTree.forall_setWorker
        (I := fun _ p => p.phase ≠ .exited .orphaned) halive
        (i := i) (p := { s.workers i with phase := .creating }) JobPhase.noConfusion j
      exact absurd hj hne
  | pthreadCreate pc =>
      have halive := h.not_orphaned (by rw [pc]; rfl)
      exact ⟨fun i hi => absurd hi (halive i), by rintro ⟨⟩, fun _ => h.mapped (by rw [pc]; rfl),
        fun _ => .inl rfl⟩
  | wait pc child =>
      have hended : s.main.ended = false := by rw [pc]; rfl
      have halive := h.not_orphaned hended
      refine ⟨fun i hi => absurd hi (halive i), fun _ => ?_, fun _ => h.mapped (by rw [pc]; rfl),
        fun _ => .inl rfl⟩
      rcases child with hzero | ⟨i, hi⟩
      · exact .inl hzero
      · exact .inr (h.failed_of_ended hended hi)
  | journalDelete pc =>
      have halive := h.not_orphaned (by rw [pc]; rfl)
      exact ⟨fun i hi => absurd hi (halive i), fun _ => h.failed (by rw [pc]; rfl), by rintro ⟨⟩,
        fun _ => .inr rfl⟩
  | exit pc =>
      exact ⟨fun _ _ => rfl, fun _ => h.failed (by rw [pc]; rfl), by rintro ⟨⟩, by rintro ⟨⟩⟩
  | transfer receiver =>
      exact ⟨h.orphaned, h.failed, h.mapped, fun _ => h.receiver receiver⟩
  | @mainFailed l cause alive early =>
      refine ⟨fun _ _ => rfl, fun hwait => ?_, by rintro ⟨⟩, by rintro ⟨⟩⟩
      cases cause with
      | returned => exact absurd rfl early
      | _ => cases hwait
  | @worker i label p moved =>
      refine h.setWorker moved.alive fun hphase => ?_
      have hppid := moved.ppid_of_orphaned hphase
      by_contra hended
      rw [Host.ppid, if_neg hended] at hppid
      exact hpid hppid
  | @kill i alive =>
      refine h.setWorker alive fun hphase => ?_
      cases hphase

/-- **Every run** keeps it.
Source: `server.c`, `main`, `worker_process_job`
Kind: P -/
theorem orderInv_of_run (hpid : host.mainPid ≠ 1) {conns : Fin n → Conn Q σ}
    {ls : List (TreeLabel n ε)} (h : TreeRun ops handler host (ServerTree.init conns) ls s) :
    OrderInv s :=
  h.invariant (.init conns) fun _ _ _ hinv _ hs => hinv.moved hpid (treeMoved_of_step hs)

/-- **`main` outlives its workers unless one of them fails.** In every run of the server with at
least one worker: if `main` has come back from `wait`, then some worker has failed to create or
start itself or was killed; and the journal is still mapped whenever its thread is running, unless
that is so. As long as no worker fails, `main` neither returns nor deletes the journal.
Source: `server.c`, `main`, `worker_process_job`, `journal_receiver_job`; `safe_process.c`
Kind: P
Hyps: `main` is not process 1 -/
theorem main_outlives_workers (hn : 0 < n) (hpid : host.mainPid ≠ 1) {conns : Fin n → Conn Q σ}
    {ls : List (TreeLabel n ε)} (h : TreeRun ops handler host (ServerTree.init conns) ls s) :
    (s.main.afterWait = true → s.WorkerFailed) ∧
      (s.receiver = true → s.journalMapped = true ∨ s.WorkerFailed) := by
  have hinv := orderInv_of_run hpid h
  have hfailed : s.main.afterWait = true → s.WorkerFailed := by
    intro hwait
    rcases hinv.failed hwait with hzero | hfailed
    · omega
    · exact hfailed
  refine ⟨hfailed, fun hreceiver => ?_⟩
  rcases hinv.receiver hreceiver with hholds | hreturning
  · exact .inl (hinv.mapped hholds)
  · exact .inr (hfailed (by rw [hreturning]; rfl))

/-- A worker that cannot bind its port.
Source: `server.c`, `main`, `worker_process_job`
Kind: C -/
theorem main_outlives_workers_until_failure :
    ∃ s, TreeRun ringOps workerOnMessage usualHost oneWorker
        [.journalCreate true, .fork true, .worker 0 (.create false), .pthreadCreate true, .wait,
          .journalDelete] s ∧
      s.receiver = true ∧ s.journalMapped = false ∧ s.WorkerFailed := by
  obtain ⟨s, hrun, hs⟩ := Run.exists_of_exec
    (show (exec (treeStep ringOps workerOnMessage usualHost) (fun _ _ => True) oneWorker
        [.journalCreate true, .fork true, .worker 0 (.create false), .pthreadCreate true, .wait,
          .journalDelete]).map
      (fun s => decide (s.receiver = true ∧ s.journalMapped = false ∧ s.main.afterWait = true)) =
        some true by decide +kernel)
  obtain ⟨hreceiver, hmapped, hwait⟩ := of_decide_eq_true hs
  exact ⟨s, hrun, hreceiver, hmapped,
    (main_outlives_workers (by decide) (by decide) hrun).1 hwait⟩

variable (ops handler) in
/-- If `main` is process 1, the first look makes an orphan of the worker.
Source: `server.c`, `main`, `worker_process_job`
Kind: L -/
theorem exists_orphaned (hn : 0 < n) (hpid : host.mainPid = 1) (conns : Fin n → Conn Q σ) :
    ∃ s, TreeRun ops handler host (ServerTree.init conns) (firstCheck ⟨0, hn⟩) s ∧
      (decide ((s.workers ⟨0, hn⟩).phase = .exited .orphaned) && !s.main.ended) = true := by
  apply Run.exists_of_exec
  simp [exec, firstCheck, treeStep, jobStep, ServerTree.init, ServerTree.setWorker, hn, hpid,
    Host.ppid, MainPc.ended]

/-- **The look at the parent is sound exactly if `main` is not process 1.** No worker takes itself
for an orphan while `main` lives, in any run, iff the pid of `main` is not 1: in a container where
`main` is the first process, every worker ends at its first look.
Source: `safe_process.c`, `safe_process_check_status`; `server.c`, `worker_process_job`
Kind: P
Hyps: at least one worker -/
theorem orphan_check_sound_iff (hn : 0 < n) (conns : Fin n → Conn Q σ) :
    (∀ (ls : List (TreeLabel n ε)) (s : ServerTree n Q σ),
      TreeRun ops handler host (ServerTree.init conns) ls s →
      ∀ i, (s.workers i).phase = .exited .orphaned → s.main.ended = true) ↔ host.mainPid ≠ 1 := by
  constructor
  · intro h hpid
    obtain ⟨s, hrun, hs⟩ := exists_orphaned ops handler hn hpid conns
    rw [Bool.and_eq_true, decide_eq_true_iff] at hs
    obtain ⟨horphaned, halive⟩ := hs
    rw [h _ s hrun _ horphaned] at halive
    cases halive
  · intro hpid ls s hrun i hi
    exact (orderInv_of_run hpid hrun).orphaned i hi

/-- Sound beside the first process of the machine, and not as that process.
Source: `server.c`, `main`, `worker_process_job`
Kind: C -/
theorem orphan_check_sound_iff_beside_init :
    (∀ (ls : List (TreeLabel 1 HandlerEnv)) s,
      TreeRun ringOps workerOnMessage usualHost oneWorker ls s →
      ∀ i, (s.workers i).phase = .exited .orphaned → s.main.ended = true) ∧
    ¬∀ (ls : List (TreeLabel 1 HandlerEnv)) s,
      TreeRun ringOps workerOnMessage ⟨1, 1⟩ oneWorker ls s →
      ∀ i, (s.workers i).phase = .exited .orphaned → s.main.ended = true :=
  ⟨(orphan_check_sound_iff (by decide) _).mpr (by decide),
    fun h => (orphan_check_sound_iff (by decide) _).mp h rfl⟩

/-! ## What is left after `main` -/

/-- The label is a status check of worker `i`.
Source: none: infrastructure
Kind: D -/
def TreeLabel.isCheck (i : Fin n) : TreeLabel n ε → Bool
  | .worker j .check => decide (j = i)
  | _ => false

/-- Once `main` has ended it stays so.
Source: `server.c`, `main`, `worker_process_job`
Kind: L -/
theorem TreeMoved.main_ended (hm : TreeMoved ops handler host s l s')
    (hended : s.main.ended = true) : s'.main.ended = true := by
  cases hm with
  | journalCreate pc => rw [pc] at hended; cases hended
  | fork pc => rw [pc] at hended; cases hended
  | pthreadCreate pc => rw [pc] at hended; cases hended
  | wait pc child => rw [pc] at hended; cases hended
  | journalDelete pc => rw [pc] at hended; cases hended
  | exit pc => rfl
  | transfer receiver => exact hended
  | mainFailed alive early => rfl
  | worker moved => exact hended
  | kill alive => exact hended

/-- How many status checks a worker may still make after the end of `main`.
Source: `server.c`, `worker_process_job`
Kind: D -/
def JobPhase.looksLeft (phase : JobPhase) : ℕ := if phase.alive then 1 else 0

/-- After the end of `main` a step passes no check, and a worker that makes one is gone.
Source: `server.c`, `main`, `worker_process_job`
Kind: L -/
theorem TreeMoved.looksLeft_add_le (hreaper : host.reaper = 1)
    (hm : TreeMoved ops handler host s l s') (hended : s.main.ended = true) (i : Fin n) :
    (s'.workers i).checks = (s.workers i).checks ∧
      (s'.workers i).phase.looksLeft + (if l.isCheck i then 1 else 0) ≤
        (s.workers i).phase.looksLeft := by
  have hppid : host.ppid s.main = 1 := by rw [Host.ppid, if_pos hended, hreaper]
  cases hm with
  | journalCreate pc => rw [pc] at hended; cases hended
  | fork pc => rw [pc] at hended; cases hended
  | pthreadCreate pc => rw [pc] at hended; cases hended
  | wait pc child => rw [pc] at hended; cases hended
  | journalDelete pc => rw [pc] at hended; cases hended
  | exit pc => rw [pc] at hended; cases hended
  | transfer receiver => exact ⟨rfl, le_rfl⟩
  | mainFailed alive early => rw [hended] at alive; cases alive
  | @worker j label p moved =>
      rw [hppid] at moved
      obtain ⟨hchecks, hgone⟩ := moved.of_orphan
      by_cases hj : i = j
      · subst hj
        have halive : (s.workers i).phase.looksLeft = 1 := if_pos moved.alive
        rw [halive]
        simp only [ServerTree.setWorker, Function.update_self]
        refine ⟨hchecks, ?_⟩
        by_cases hcheck : label = .check
        · subst hcheck
          rw [hgone rfl]
          simp [JobPhase.looksLeft, JobPhase.alive, TreeLabel.isCheck]
        · have hno : TreeLabel.isCheck i (.worker i label) = false := by
            cases label with
            | check => exact absurd rfl hcheck
            | _ => rfl
          rw [hno, JobPhase.looksLeft]
          split_ifs <;> simp_all
      · have hno : TreeLabel.isCheck i (.worker j label) = false := by
          cases label with
          | check => exact decide_eq_false (Ne.symm hj)
          | _ => rfl
        simp [ServerTree.setWorker, Function.update_of_ne hj, hno]
  | @kill j alive =>
      refine ServerTree.forall_setWorker
        (I := fun k p => p.checks = (s.workers k).checks ∧
          p.phase.looksLeft + (if TreeLabel.isCheck k (.kill (ε := ε) j) then 1 else 0) ≤
            (s.workers k).phase.looksLeft) (fun k => ⟨rfl, le_rfl⟩)
        (i := j) (p := { s.workers j with phase := .exited .killed }) ⟨rfl, Nat.zero_le _⟩ i

/-- **The workers that outlive `main` stop serving, each after the hundred messages it is at.** From
any reachable state in which `main` has ended, in every continuation: a worker looks at its parent
at most once more, handles at most a hundred further messages, and if it does end as an orphan then
only after it has handled all of its current hundred.
Source: `server.c`, `main`, `worker_process_job`; `safe_process.c`, `safe_process_check_status`;
`server_worker.c`, `server_worker_update`
Kind: P
Hyps: orphans are given to process 1 -/
theorem orphans_stop_serving (hreaper : host.reaper = 1) {conns : Fin n → Conn Q σ}
    (hfresh : ∀ i, (conns i).Fresh) {ls₁ ls : List (TreeLabel n ε)} {s₁ : ServerTree n Q σ}
    (h₁ : TreeRun ops handler host (ServerTree.init conns) ls₁ s₁)
    (hended : s₁.main.ended = true) (h : TreeRun ops handler host s₁ ls s) (i : Fin n) :
    ls.countP (TreeLabel.isCheck i) ≤ 1 ∧
    (s.workers i).conn.handledLog.length ≤ (s₁.workers i).conn.handledLog.length + 100 ∧
    ((s.workers i).phase = .exited .orphaned →
      (s.workers i).conn.handledLog.length = 100 * (s₁.workers i).checks) := by
  have hinv₁ := treeInv_of_run (.init hfresh) h₁
  have hinv := treeInv_of_run hinv₁ h
  obtain ⟨⟨-, hchecks⟩, hlooks⟩ := h.countP_add_le
    (I := fun t => t.main.ended = true ∧ (t.workers i).checks = (s₁.workers i).checks)
    (TreeLabel.isCheck i) (fun t => (t.workers i).phase.looksLeft) ⟨hended, rfl⟩ (by
      rintro t l t' ⟨ht, hchecks⟩ - hs
      have hm := treeMoved_of_step hs
      obtain ⟨hkeep, hle⟩ := hm.looksLeft_add_le hreaper ht i
      exact ⟨⟨hm.main_ended ht, hkeep.trans hchecks⟩, hle⟩)
  have hone : (s₁.workers i).phase.looksLeft ≤ 1 := by
    rw [JobPhase.looksLeft]
    split_ifs <;> omega
  obtain ⟨-, htodo₁, hcount₁⟩ := hinv₁.jobs i
  obtain ⟨houtside, -, hcount⟩ := hinv.jobs i
  rw [hchecks] at hcount
  rw [updateMaxMessages] at htodo₁ hcount₁ hcount
  refine ⟨by omega, by omega, fun horphaned => ?_⟩
  rw [houtside (.inr horphaned), WorkPc.todo] at hcount
  exact hcount

/-- `main` is killed, and the worker handles one more request.
Source: `server.c`, `main`, `worker_process_job`
Kind: C -/
theorem orphans_stop_serving_after_one :
    ∃ s₁ s, TreeRun ringOps workerOnMessage usualHost oneWorker (firstCheck 0 ++ [.killMain]) s₁ ∧
      TreeRun ringOps workerOnMessage usualHost s₁ handleFirst s ∧
      (s.workers 0).conn.handledLog.length = 1 ∧
      (s.workers 0).conn.handledLog.length ≤ (s₁.workers 0).conn.handledLog.length + 100 := by
  obtain ⟨s₁, hrun₁, hs₁⟩ := Run.exists_of_exec
    (show (exec (treeStep ringOps workerOnMessage usualHost) (fun _ _ => True) oneWorker
        (firstCheck 0 ++ [.killMain])).map
      (fun s₁ => s₁.main.ended && decide (((exec (treeStep ringOps workerOnMessage usualHost)
        (fun _ _ => True) s₁ handleFirst).map fun s =>
          decide ((s.workers 0).conn.handledLog.length = 1)) = some true)) =
        some true by decide +kernel)
  rw [Bool.and_eq_true, decide_eq_true_iff] at hs₁
  obtain ⟨s, hrun, hs⟩ := Run.exists_of_exec hs₁.2
  exact ⟨s₁, s, hrun₁, hrun, of_decide_eq_true hs,
    (orphans_stop_serving rfl newWorker_fresh hrun₁ hs₁.1 hrun 0).2.1⟩

end order

end CpuMonitor.Server
