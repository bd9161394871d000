import CpuMonitor.Network.NetConnection

/-!
# Starting and stopping the threads of a connection

`network/net_connection.c`: a connection has a receive thread and a send thread, each with a flag
that is set before `pthread_create` and cleared again if that fails, or before `pthread_join`. The
four functions are two, each for one of the flags (`startThread`, `stopThread`).
-/

namespace CpuMonitor.Network

/-! ## The flags and the calls -/

/-- `is_receiving` and `is_sending` of a connection.
Source: `net_connection.h`, `net_connection_t`
Kind: D -/
structure ThreadFlags where
  isReceiving : Bool
  isSending : Bool
  deriving DecidableEq

/-- Neither flag is set.
Source: none: infrastructure
Kind: D -/
structure ThreadFlags.Quiet (c : ThreadFlags) : Prop where
  isReceiving : c.isReceiving = false
  isSending : c.isSending = false

/-- Source: `net_connection.c`, `net_connection_create`. Kind: D -/
def ThreadFlags.init : ThreadFlags := ⟨false, false⟩

/-- A connection that has just been created has no thread.
Source: none: infrastructure
Kind: L -/
theorem ThreadFlags.quiet_init : ThreadFlags.init.Quiet := ⟨rfl, rfl⟩

/-- Whether `pthread_create` succeeds, for each of the two threads of a connection.
Source: `net_connection.c`, `net_connection_start_receiving`, `net_connection_start_sending`
Kind: D -/
structure StartCalls where
  receive : Bool
  send : Bool
  deriving DecidableEq

/-- Whether `pthread_join` succeeds, for each of the two threads of a connection.
Source: `net_connection.c`, `net_connection_stop_receiving`, `net_connection_stop_sending`
Kind: D -/
structure StopCalls where
  receive : Bool
  send : Bool

/-! ## The four functions -/

/-- The status and the flag after a start.
Source: `net_connection.c`, the common body of `net_connection_start_receiving` and
`net_connection_start_sending`
Kind: D
Fidelity: exact (non-null connection) -/
def startThread (running create : Bool) : NetConnectionStatus × Bool :=
  if running then (.success, running)
  else if !create then (.errorThread, false)
  else (.success, true)

/-- The status and the flag after a stop.
Source: `net_connection.c`, the common body of `net_connection_stop_receiving` and
`net_connection_stop_sending`
Kind: D
Fidelity: exact (non-null connection) -/
def stopThread (running join : Bool) : NetConnectionStatus × Bool :=
  if !running then (.success, running)
  else if !join then (.errorThread, false)
  else (.success, false)

/-- Source: `net_connection.c`, `net_connection_start_receiving`. Kind: D -/
def netConnectionStartReceiving (create : Bool) (c : ThreadFlags) :
    NetConnectionStatus × ThreadFlags :=
  ((startThread c.isReceiving create).1,
    { c with isReceiving := (startThread c.isReceiving create).2 })

/-- Source: `net_connection.c`, `net_connection_start_sending`. Kind: D -/
def netConnectionStartSending (create : Bool) (c : ThreadFlags) :
    NetConnectionStatus × ThreadFlags :=
  ((startThread c.isSending create).1, { c with isSending := (startThread c.isSending create).2 })

/-- Source: `net_connection.c`, `net_connection_stop_receiving`. Kind: D -/
def netConnectionStopReceiving (join : Bool) (c : ThreadFlags) :
    NetConnectionStatus × ThreadFlags :=
  ((stopThread c.isReceiving join).1, { c with isReceiving := (stopThread c.isReceiving join).2 })

/-- Source: `net_connection.c`, `net_connection_stop_sending`. Kind: D -/
def netConnectionStopSending (join : Bool) (c : ThreadFlags) :
    NetConnectionStatus × ThreadFlags :=
  ((stopThread c.isSending join).1, { c with isSending := (stopThread c.isSending join).2 })

/-! ## What they do to the flags -/

/-- A thread that was not running runs exactly if `pthread_create` succeeds, and the status says so.
Source: `net_connection.c`, `net_connection_start_receiving`, `net_connection_start_sending`
Kind: L -/
theorem startThread_false (create : Bool) :
    startThread false create = (if create then .success else .errorThread, create) := by
  cases create <;> rfl

/-- A stop clears the flag, also when `pthread_join` fails.
Source: `net_connection.c`, `net_connection_stop_receiving`, `net_connection_stop_sending`
Kind: L -/
theorem stopThread_snd (running join : Bool) : (stopThread running join).2 = false := by
  cases running <;> cases join <;> rfl

/-- Both stops leave no flag set, whatever the joins answer.
Source: `net_connection.c`, `net_connection_stop_sending`, `net_connection_stop_receiving`
Kind: L -/
theorem quiet_of_stop (joins : StopCalls) (c : ThreadFlags) :
    (netConnectionStopSending joins.send (netConnectionStopReceiving joins.receive c).2).2.Quiet :=
  ⟨stopThread_snd _ _, stopThread_snd _ _⟩

/-! ## Calls from outside -/

/-- A call of a start or a stop function, with what the `pthread_*` calls in it answer.
Source: `client.c`, `client_start`, `client_stop`; `server_worker.c`, `server_worker_start`,
`server_worker_stop`
Kind: D -/
inductive LifecycleCall (α β : Type)
  | start (creates : α)
  | stop (joins : β)

end CpuMonitor.Network
