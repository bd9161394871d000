import CpuMonitor.Network.Lifecycle

/-!
# Starting and stopping a worker

`server/server_worker.c`, `server_worker_start` and `server_worker_stop`: `is_running` is set before
the threads of the one connection are started, and cleared again if one of them cannot be started.
A thread that already runs then is not stopped.

* **The code's model** `serverWorkerStart`, `serverWorkerStop`, and one call of either,
  `serverWorkerStep`.
* **No stray thread** `ServerWorker.NoStrayThreads`, and the calls that keep it,
  `ServerWorker.Clean`.
-/

namespace CpuMonitor.Server

open CpuMonitor.Network

/-! ## The code's model -/

/-- Source: `server_worker.h`, `server_worker_status_t`. Kind: D -/
inductive ServerWorkerStatus
  | success
  | errorNullPointer
  | errorCreateConnection
  | errorStartThreads
  | errorSocketOperation
  | errorThreadOperation
  deriving DecidableEq

/-- The part of the worker that the two functions use.
Source: `server_worker.h`, `server_worker_t`
Kind: D -/
structure ServerWorker where
  isRunning : Bool
  connection : ThreadFlags
  deriving DecidableEq

/-- Source: `server_worker.c`, `server_worker_create`. Kind: D -/
def ServerWorker.init : ServerWorker := ⟨false, .init⟩

/-- `is_running` is set before the threads are started.
Source: `server_worker.c`, `server_worker_start`
Kind: D
Fidelity: exact (non-null worker) -/
def serverWorkerStart (calls : StartCalls) (worker : ServerWorker) :
    ServerWorkerStatus × ServerWorker :=
  if worker.isRunning then (.success, worker)
  else
    let worker := { worker with isRunning := true }
    let (received, c₁) := netConnectionStartReceiving calls.receive worker.connection
    if received ≠ .success then (.errorStartThreads, ⟨false, c₁⟩)
    else
      let (sent, c₂) := netConnectionStartSending calls.send c₁
      if sent ≠ .success then (.errorStartThreads, ⟨false, c₂⟩)
      else (.success, { worker with connection := c₂ })

/-- Source: `server_worker.c`, `server_worker_stop`. Kind: D
Fidelity: exact (non-null worker; the statuses are only logged) -/
def serverWorkerStop (joins : StopCalls) (worker : ServerWorker) :
    ServerWorkerStatus × ServerWorker :=
  if !worker.isRunning then (.success, worker)
  else (.success, ⟨false, (netConnectionStopSending joins.send
    (netConnectionStopReceiving joins.receive worker.connection).2).2⟩)

/-- A call on a worker.
Source: `server_worker.c`, `server_worker_start`, `server_worker_stop`
Kind: D -/
def serverWorkerStep (s : ServerWorker) : LifecycleCall StartCalls StopCalls → Option ServerWorker
  | .start calls => some (serverWorkerStart calls s).2
  | .stop joins => some (serverWorkerStop joins s).2

/-! ## Threads of a worker that is not running -/

/-- A worker that is not running has no thread.
Source: `server_worker.c`, `server_worker_start`, `server_worker_stop`
Kind: D -/
def ServerWorker.NoStrayThreads (s : ServerWorker) : Prop :=
  s.isRunning = false → s.connection.Quiet

/-- A call that leaves no thread behind: a start of a worker that is running, one whose send thread
is started if its receive thread is, or a stop.
Source: `server_worker.c`, `server_worker_start`, `server_worker_stop`
Kind: D -/
def ServerWorker.Clean (s : ServerWorker) : LifecycleCall StartCalls StopCalls → Prop
  | .start calls => s.isRunning = true ∨ (calls.receive = true → calls.send = true)
  | .stop _ => True

end CpuMonitor.Server
