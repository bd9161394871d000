import CpuMonitor.Server.JournalContended
import CpuMonitor.Server.JournalTransfer

/-!
# Handing the journal out

`server/server.c`, `journal_receiver_job`: a thread of the parent calls
`journal_transfer_run_receiver` over and over, one client at a time, until a call fails. Meanwhile
the workers write to the journal, any number of them at once.

* **The system** `Exporter ι n`: the journal with its writers and its reader (`Contended`), the
  place of the thread, the sockets and blocks it holds, and what the kernel has taken for each
  client. The parent can be killed: `send` to a client that has closed its end raises `SIGPIPE`,
  which nobody handles, and `main` returns as soon as a worker is gone. `ExporterMoved` says once
  what a step can do.
* `receiver_in_a_row`: undisturbed, the steps of one call are `journalTransferRunReceiver`.
* `exports_grow` — across all calls, as long as no two writes overlap, every client gets a first
  part of what `journal_read` returned for it, which are whole records that were complete, and these
  contents only grow.
* `export_ends_on_failure` — however the writes overlap, the thread ends only because a call of the
  system failed; `journal_read` never refuses and never leaves the region or the block; and between
  two calls the thread holds nothing. If `bind` fails it keeps a socket.
-/

namespace CpuMonitor.Server

open CpuMonitor.Lib

/-! ## The system -/

/-- Where the thread is.
Source: `journal_transfer.c`, `journal_transfer_run_receiver`
Kind: D -/
inductive ReceiverPc
  /-- Before a call of `journal_transfer_run_receiver`. -/
  | calling
  /-- In `journal_read`. -/
  | reading
  /-- Before `send` of this content. -/
  | sending (content : List UInt8)
  /-- A call has failed. -/
  | ended
  /-- The process is gone. -/
  | killed
  deriving DecidableEq

/-- What a call acquires.
Source: `journal_transfer.c`, `journal_transfer_run_receiver`
Kind: D -/
inductive Descriptor
  /-- The socket that listens. -/
  | listening
  /-- The socket of the client. -/
  | client
  /-- The block for the content. -/
  | content
  deriving DecidableEq

/-- Why the process of the thread ends.
Source: `journal_transfer.c`, `journal_transfer_run_receiver`; `server.c`, `main`
Kind: D -/
inductive ParentEnd
  /-- `send` finds that the client has closed its end; no handler is set, and no flag. -/
  | sigpipe
  /-- `wait` in `main` has returned. -/
  | mainReturned
  deriving DecidableEq

/-- The journal, the thread, what it holds, and what the kernel has taken in each call that returned
zero.
Source: `server.c`, `main`; `journal_transfer.c`, `journal_transfer_run_receiver`
Kind: D -/
structure Exporter (ι : Type) (n : ℕ) where
  watched : Contended ι n
  receiver : ReceiverPc
  held : List Descriptor
  exports : List (List UInt8)

/-- The thread is started.
Source: `server.c`, `main`
Kind: D -/
def Exporter.init {ι : Type} {n : ℕ} (region : Region n) : Exporter ι n :=
  ⟨.init region, .calling, [], []⟩

/-- Who moves, and what the system answers.
Source: `server.c`, `journal_receiver_job`, `main`
Kind: D -/
inductive ExportLabel (ι : Type)
  /-- The calls of the thread up to `malloc`. -/
  | accept (calls : TransferServerCalls)
  /-- A step of a worker, or of `journal_read`. -/
  | watch (label : ContendedLabel ι)
  /-- The lock or the unlock of `journal_read` fails. -/
  | mutexFailed
  /-- `send` takes some bytes, or returns `-1`. -/
  | send (sent : Option ℕ)
  /-- The process of the thread ends. -/
  | exit (cause : ParentEnd)

section model

variable {ι : Type} {n : ℕ}

/-- A call of the system fails.
Source: none: infrastructure
Kind: D -/
def ExportLabel.Fails : ExportLabel ι → Prop
  | .accept calls => calls.socket = false ∨ calls.bind = false ∨ calls.listen = false ∨
      calls.accept = false ∨ calls.malloc = none
  | .watch _ => False
  | .mutexFailed => True
  | .send sent => sent = none
  | .exit _ => False

/-- The call fails, and the thread ends.
Source: `journal_transfer.c`, `journal_transfer_run_receiver`; `server.c`, `journal_receiver_job`
Kind: D -/
def Exporter.fail (s : Exporter ι n) (held : List Descriptor) : Exporter ι n :=
  { s with receiver := .ended, held := held }

/-- The process is gone, and with it what the thread held.
Source: `journal_transfer.c`, `journal_transfer_run_receiver`; `server.c`, `main`
Kind: D -/
def Exporter.gone (s : Exporter ι n) : Exporter ι n :=
  { s with watched := { s.watched with reader := .idle }, receiver := .killed, held := [] }

variable [DecidableEq ι]

/-- What a step of `journal_read`, after which the state is `s`, means for the thread. A read is
begun by the thread itself.
Source: `journal_transfer.c`, `journal_transfer_run_receiver`
Kind: D -/
def Exporter.afterRead (s : Exporter ι n) : WatchLabel → Option (Exporter ι n)
  | .readBegin _ _ => none
  -- `JOURNAL_STATUS_ERROR_READ`: the block is too small
  | .readCheck => some (if s.watched.reader = .idle then s.fail [] else s)
  | .readReturn => some { s with receiver := .sending (s.watched.results.getLastD []) }
  | _ => some s

/-- A step in the journal.
Source: `journal.c`, `journal_write`, `journal_read`
Kind: D -/
def Exporter.watchStep (s : Exporter ι n) (label : ContendedLabel ι) : Option (Exporter ι n) := do
  let watched ← s.watched.step label
  match label with
  | .write _ _ => some { s with watched := watched }
  | .read watch => Exporter.afterRead { s with watched := watched } watch

/-- The process of the thread ends.
Source: `journal_transfer.c`, `journal_transfer_run_receiver` (`send`); `server.c`, `main`
Kind: D -/
def Exporter.exitStep (s : Exporter ι n) : ParentEnd → Option (Exporter ι n)
  | .sigpipe =>
      match s.receiver with
      | .sending _ => some s.gone
      | _ => none
  | .mainReturned => if s.receiver = .killed then none else some s.gone

/-- One step of the thread, of a worker or of `journal_read`.
Source: `server.c`, `journal_receiver_job`, `main`; `journal_transfer.c`,
`journal_transfer_run_receiver`
Kind: D
Fidelity: exact (one step up to `malloc`; a client that connects is not modelled beyond what it
gets). The socket that listens is closed after `accept`, and not closed if `bind` fails -/
def exporterStep (s : Exporter ι n) : ExportLabel ι → Option (Exporter ι n)
  | .accept calls =>
      match s.receiver with
      | .calling =>
          if !calls.socket then some (s.fail [])
          else if !calls.bind then some (s.fail [.listening])
          else if !calls.listen then some (s.fail [])
          else if !calls.accept then some (s.fail [])
          else
            match calls.malloc with
            | none => some (s.fail [])
            | some block => do
                let watched ←
                  s.watched.step (.read (.readBegin block.toList serverMaxJournalSize))
                some { s with
                  watched := watched, receiver := .reading, held := [.client, .content] }
      | _ => none
  | .watch label => s.watchStep label
  | .mutexFailed =>
      match s.receiver with
      | .reading => some ({ s with watched := { s.watched with reader := .idle } }.fail [])
      | _ => none
  | .send sent =>
      match s.receiver with
      | .sending content =>
          match sent with
          | none => some (s.fail [])
          | some k =>
              some { s with
                receiver := .calling, held := [], exports := s.exports ++ [content.take k] }
      | _ => none
  | .exit cause => s.exitStep cause

/-! ## What a step can do -/

/-- A step of a worker, or one of the reader after which `journal_read` goes on.
Source: none: infrastructure
Kind: D -/
def ContendedLabel.silent : ContendedLabel ι → Bool
  | .write _ _ => true
  | .read (.readBegin _ _) | .read .readCheck | .read .readReturn => false
  | .read _ => true

/-- What each step can do: one case for each outcome.
Source: `server.c`, `journal_receiver_job`, `main`; `journal_transfer.c`,
`journal_transfer_run_receiver`
Kind: D -/
inductive ExporterMoved (s : Exporter ι n) : ExportLabel ι → Exporter ι n → Prop
  | acceptFailed {calls : TransferServerCalls} {held : List Descriptor} (pc : s.receiver = .calling)
      (fails : (ExportLabel.accept calls : ExportLabel ι).Fails)
      (keeps : held = [] ∨ held = [.listening] ∧ calls.socket = true ∧ calls.bind = false) :
      ExporterMoved s (.accept calls) (s.fail held)
  | accept {calls : TransferServerCalls} {block : List.Vector UInt8 serverMaxJournalSize}
      {watched : Contended ι n} (pc : s.receiver = .calling)
      (moved : ContendedMoved s.watched (.read (.readBegin block.toList serverMaxJournalSize))
        watched) :
      ExporterMoved s (.accept calls)
        { s with watched := watched, receiver := .reading, held := [.client, .content] }
  | silent {label : ContendedLabel ι} {watched : Contended ι n} (silent : label.silent = true)
      (moved : ContendedMoved s.watched label watched) :
      ExporterMoved s (.watch label) { s with watched := watched }
  | refused {watched : Contended ι n} (moved : ContendedMoved s.watched (.read .readCheck) watched)
      (idle : watched.reader = .idle) :
      ExporterMoved s (.watch (.read .readCheck)) ({ s with watched := watched }.fail [])
  | checked {watched : Contended ι n} (moved : ContendedMoved s.watched (.read .readCheck) watched)
      (busy : watched.reader ≠ .idle) :
      ExporterMoved s (.watch (.read .readCheck)) { s with watched := watched }
  | readReturn {watched : Contended ι n}
      (moved : ContendedMoved s.watched (.read .readReturn) watched) :
      ExporterMoved s (.watch (.read .readReturn))
        { s with watched := watched, receiver := .sending (watched.results.getLastD []) }
  | mutexFailed (pc : s.receiver = .reading) :
      ExporterMoved s .mutexFailed
        ({ s with watched := { s.watched with reader := .idle } }.fail [])
  | sendFailed {content : List UInt8} (pc : s.receiver = .sending content) :
      ExporterMoved s (.send none) (s.fail [])
  | send {content : List UInt8} {k : ℕ} (pc : s.receiver = .sending content) :
      ExporterMoved s (.send (some k))
        { s with receiver := .calling, held := [], exports := s.exports ++ [content.take k] }
  | sigpipe {content : List UInt8} (pc : s.receiver = .sending content) :
      ExporterMoved s (.exit .sigpipe) s.gone
  | mainReturned (alive : s.receiver ≠ .killed) : ExporterMoved s (.exit .mainReturned) s.gone

variable {s s' : Exporter ι n} {l : ExportLabel ι}

/-- The calls up to `malloc`.
Source: `journal_transfer.c`, `journal_transfer_run_receiver`
Kind: L -/
theorem exporterMoved_of_accept {calls : TransferServerCalls}
    (h : exporterStep s (.accept calls) = some s') : ExporterMoved s (.accept calls) s' := by
  simp only [exporterStep] at h
  split at h
  · rename_i pc
    split_ifs at h with hsocket hbind hlisten haccept
    · cases h
      exact .acceptFailed pc (.inl (by simpa using hsocket)) (.inl rfl)
    · cases h
      have hbind : calls.bind = false := by simpa using hbind
      exact .acceptFailed pc (.inr (.inl hbind)) (.inr ⟨rfl, by simpa using hsocket, hbind⟩)
    · cases h
      exact .acceptFailed pc (.inr (.inr (.inl (by simpa using hlisten)))) (.inl rfl)
    · cases h
      exact .acceptFailed pc (.inr (.inr (.inr (.inl (by simpa using haccept))))) (.inl rfl)
    · split at h
      · rename_i hmalloc
        cases h
        exact .acceptFailed pc (.inr (.inr (.inr (.inr hmalloc)))) (.inl rfl)
      · obtain ⟨watched, hstep, h⟩ := Option.bind_eq_some_iff.mp h
        cases h
        exact .accept pc (contendedMoved_of_step hstep)
  · cases h

/-- The steps in the journal.
Source: `journal_transfer.c`, `journal_transfer_run_receiver`
Kind: L -/
theorem exporterMoved_of_watch {label : ContendedLabel ι} (h : s.watchStep label = some s') :
    ExporterMoved s (.watch label) s' := by
  obtain ⟨watched, hstep, h⟩ := Option.bind_eq_some_iff.mp h
  have hmoved := contendedMoved_of_step hstep
  cases hmoved with
  | write writer moved =>
      cases h
      exact .silent rfl (.write writer moved)
  | read reader moved =>
      cases moved with
      | readBegin pc => cases h
      | readLoad pc load =>
          cases h
          exact .silent rfl (.read reader (.readLoad pc load))
      | readRefused pc small =>
          cases h
          exact .refused (.read reader (.readRefused pc small)) rfl
      | readCheck pc fits =>
          cases h
          exact .checked (.read reader (.readCheck pc fits)) (by simp [Contended.reads])
      | readByte pc inside load store =>
          cases h
          exact .silent rfl (.read reader (.readByte pc inside load store))
      | readReturn pc all =>
          cases h
          exact .readReturn (.read reader (.readReturn pc all))
      | _ => cases reader

/-- The end of the process.
Source: `journal_transfer.c`, `journal_transfer_run_receiver`; `server.c`, `main`
Kind: L -/
theorem exporterMoved_of_exit {cause : ParentEnd} (h : s.exitStep cause = some s') :
    ExporterMoved s (.exit cause) s' := by
  cases cause with
  | sigpipe =>
      simp only [Exporter.exitStep] at h
      split at h
      · rename_i pc
        cases h
        exact .sigpipe pc
      · cases h
  | mainReturned =>
      simp only [Exporter.exitStep] at h
      split_ifs at h with hkilled
      cases h
      exact .mainReturned hkilled

/-- Every step is one of these.
Source: `server.c`, `journal_receiver_job`; `journal_transfer.c`, `journal_transfer_run_receiver`
Kind: L -/
theorem exporterMoved_of_step (h : exporterStep s l = some s') : ExporterMoved s l s' := by
  cases l with
  | accept calls => exact exporterMoved_of_accept h
  | watch label => exact exporterMoved_of_watch h
  | mutexFailed =>
      simp only [exporterStep] at h
      split at h
      · rename_i pc
        cases h
        exact .mutexFailed pc
      · cases h
  | send sent =>
      simp only [exporterStep] at h
      split at h
      · rename_i pc
        cases sent with
        | none =>
            cases h
            exact .sendFailed pc
        | some k =>
            cases h
            exact .send pc
      · cases h
  | exit cause => exact exporterMoved_of_exit h

/-- What a step does to the journal: a step of it, the same label for a worker; or the reader leaves
`journal_read`; or nothing.
Source: `server.c`, `journal_receiver_job`; `journal_transfer.c`, `journal_transfer_run_receiver`
Kind: L -/
theorem ExporterMoved.watched_cases (hm : ExporterMoved s l s') :
    s'.watched = s.watched ∨ s'.watched = { s.watched with reader := .idle } ∨
      ∃ label, ContendedMoved s.watched label s'.watched ∧
        (l = .watch label ∨ ∃ watch, label = .read watch) := by
  cases hm with
  | acceptFailed pc fails keeps => exact .inl rfl
  | accept pc moved => exact .inr (.inr ⟨_, moved, .inr ⟨_, rfl⟩⟩)
  | silent silent moved => exact .inr (.inr ⟨_, moved, .inl rfl⟩)
  | refused moved idle => exact .inr (.inr ⟨_, moved, .inl rfl⟩)
  | checked moved busy => exact .inr (.inr ⟨_, moved, .inl rfl⟩)
  | readReturn moved => exact .inr (.inr ⟨_, moved, .inl rfl⟩)
  | mutexFailed pc => exact .inr (.inl rfl)
  | sendFailed pc => exact .inl rfl
  | send pc => exact .inl rfl
  | sigpipe pc => exact .inr (.inl rfl)
  | mainReturned alive => exact .inr (.inl rfl)

end model

/-! ## The journal beside the thread -/

section journal

variable {ι : Type} {n : ℕ} {s s' : Exporter ι n} {l : ExportLabel ι}

/-- A worker moves only while the others are between two calls.
Source: none: infrastructure
Kind: D -/
def Exporter.Undisturbed (s : Exporter ι n) : ExportLabel ι → Prop
  | .watch label => s.watched.Undisturbed label
  | _ => True

variable [DecidableEq ι]

/-- As long as no two writes overlap, the journal keeps its invariant.
Source: `journal.c`, `journal_write`, `journal_read`
Kind: P -/
theorem ExporterMoved.journal (hm : ExporterMoved s l s') (h : s.watched.Inv)
    (hundisturbed : s.Undisturbed l) : s'.watched.Inv := by
  rcases hm.watched_cases with hsame | hleft | ⟨label, hmoved, hlabel⟩
  · rw [hsame]
    exact h
  · rw [hleft]
    exact h.leave
  · refine h.moved ?_ hmoved
    rcases hlabel with rfl | ⟨watch, rfl⟩
    · exact hundisturbed
    · trivial

end journal

/-! ## The invariant of the thread -/

/-- The block of a read, and the caller's size before the check.
Source: none: infrastructure
Kind: D -/
def ReadPc.WholeBlock : ReadPc → Prop
  | .begun buffer size | .loaded buffer size _ =>
      buffer.length = serverMaxJournalSize ∧ size = serverMaxJournalSize
  | .copying buffer _ _ => buffer.length = serverMaxJournalSize
  | .idle => True

/-- Which results of `journal_read` have been handed out, after `k` calls that returned zero.
Source: `journal_transfer.c`, `journal_transfer_run_receiver`
Kind: D -/
def ReceiverPc.Handed (k : ℕ) (results : List (List UInt8)) : ReceiverPc → Prop
  | .calling | .reading => results.length = k
  | .sending content => ∃ earlier, results = earlier ++ [content] ∧ earlier.length = k
  | .ended | .killed => k ≤ results.length

/-- What the thread holds.
Source: `journal_transfer.c`, `journal_transfer_run_receiver`
Kind: D -/
def ReceiverPc.Keeps (held : List Descriptor) : ReceiverPc → Prop
  | .calling | .killed => held = []
  | .reading | .sending _ => held = [.client, .content]
  | .ended => held = [] ∨ held = [.listening]

/-- The invariant of the thread beside the workers: a read is on its way exactly in `journal_read`,
with the whole block; every result but the last one was handed out.
Source: none: infrastructure
Kind: D -/
structure Exporter.Inv {ι : Type} {n : ℕ} (s : Exporter ι n) : Prop where
  busy : s.watched.reader ≠ .idle ↔ s.receiver = .reading
  block : s.watched.reader.WholeBlock
  handed : s.receiver.Handed s.exports.length s.watched.results
  exports : List.Forall₂ (· <+: ·) s.exports (s.watched.results.take s.exports.length)
  keeps : s.receiver.Keeps s.held

section invariant

variable {ι : Type} {n : ℕ} {s s' : Exporter ι n} {l : ExportLabel ι}

/-- The thread is started.
Source: `server.c`, `main`
Kind: L -/
theorem Exporter.Inv.init (region : Region n) : (Exporter.init region : Exporter ι n).Inv where
  busy := ⟨fun h => absurd rfl h, fun h => nomatch h⟩
  block := trivial
  handed := rfl
  exports := .nil
  keeps := rfl

/-- Nothing but the end of the thread depends on how a call fails.
Source: none: infrastructure
Kind: L -/
theorem ReceiverPc.Handed.le {pc : ReceiverPc} {k : ℕ} {results : List (List UInt8)}
    (h : pc.Handed k results) : k ≤ results.length := by
  cases pc with
  | calling => exact h.ge
  | reading => exact h.ge
  | sending content =>
      obtain ⟨earlier, rfl, rfl⟩ := h
      simp
  | ended => exact h
  | killed => exact h

/-- The thread leaves the loop, by a failed call or with its process.
Source: `journal_transfer.c`, `journal_transfer_run_receiver`
Kind: L -/
theorem Exporter.Inv.leave (h : s.Inv) (watched : Contended ι n) {pc : ReceiverPc}
    (hpc : pc = .ended ∨ pc = .killed) (hidle : watched.reader = .idle)
    (hresults : watched.results = s.watched.results) {held : List Descriptor}
    (hheld : pc.Keeps held) :
    Exporter.Inv { s with watched := watched, receiver := pc, held := held } where
  busy := by
    refine ⟨fun hbusy => absurd hidle hbusy, fun hreading => ?_⟩
    obtain rfl : pc = .reading := hreading
    rcases hpc with hpc | hpc <;> cases hpc
  block := by
    show watched.reader.WholeBlock
    rw [hidle]
    trivial
  handed := by
    show pc.Handed s.exports.length watched.results
    rw [hresults]
    rcases hpc with rfl | rfl
    · exact h.handed.le
    · exact h.handed.le
  exports := by
    show List.Forall₂ (· <+: ·) s.exports (watched.results.take s.exports.length)
    rw [hresults]
    exact h.exports
  keeps := hheld

/-- A step inside `journal_read`, or of a worker.
Source: `journal.c`, `journal_read`
Kind: L -/
theorem Exporter.Inv.watch (h : s.Inv) {watched : Contended ι n}
    (hbusy : watched.reader ≠ .idle ↔ s.watched.reader ≠ .idle)
    (hblock : watched.reader.WholeBlock) (hresults : watched.results = s.watched.results) :
    Exporter.Inv { s with watched := watched } where
  busy := hbusy.trans h.busy
  block := hblock
  handed := hresults ▸ h.handed
  exports := hresults ▸ h.exports
  keeps := h.keeps

/-- Outside `journal_read` there is no read on its way.
Source: none: infrastructure
Kind: L -/
theorem Exporter.Inv.idle (h : s.Inv) (hpc : s.receiver ≠ .reading) :
    s.watched.reader = .idle := by
  by_contra hbusy
  exact hpc (h.busy.mp hbusy)

/-- The kernel has taken a first part of the last result.
Source: `journal_transfer.c`, `journal_transfer_run_receiver`
Kind: L -/
theorem Exporter.Inv.send (h : s.Inv) {content : List UInt8} (pc : s.receiver = .sending content)
    (k : ℕ) :
    Exporter.Inv { s with
      receiver := .calling, held := [], exports := s.exports ++ [content.take k] } := by
  have hhanded := h.handed
  rw [pc] at hhanded
  obtain ⟨earlier, hresults, hlength⟩ := hhanded
  have hexports := h.exports
  rw [hresults, List.take_append_of_le_length hlength.ge, ← hlength, List.take_length] at hexports
  have hidle := h.idle (by rw [pc]; simp)
  refine ⟨⟨fun hbusy => absurd hidle hbusy, fun hpc => nomatch hpc⟩, h.block, ?_, ?_, rfl⟩
  · show s.watched.results.length = (s.exports ++ [content.take k]).length
    rw [hresults]
    simp [hlength]
  · show List.Forall₂ (· <+: ·) (s.exports ++ [content.take k])
      (s.watched.results.take (s.exports ++ [content.take k]).length)
    have hall : s.watched.results.take (s.exports ++ [content.take k]).length =
        earlier ++ [content] := by
      rw [hresults]
      apply List.take_of_length_le
      simp [hlength]
    rw [hall]
    exact List.rel_append hexports (.cons (List.take_prefix k content) .nil)

variable [DecidableEq ι]

/-- A step after which `journal_read` goes on.
Source: `journal.c`, `journal_write`, `journal_read`
Kind: L -/
theorem Exporter.Inv.silent (h : s.Inv) {label : ContendedLabel ι} (hsilent : label.silent = true)
    {watched : Contended ι n} (hm : ContendedMoved s.watched label watched) :
    Exporter.Inv { s with watched := watched } := by
  cases hm with
  | write writer moved => exact h.watch Iff.rfl h.block rfl
  | @read label w reader moved =>
      have hblock := h.block
      cases moved with
      | readBegin pc => cases hsilent
      | readLoad pc load =>
          have pc : s.watched.reader = _ := pc
          rw [pc] at hblock
          exact h.watch (by simp [Contended.reads, pc]) hblock rfl
      | readRefused pc small => cases hsilent
      | readCheck pc fits => cases hsilent
      | readByte pc inside load store =>
          have pc : s.watched.reader = _ := pc
          rw [pc] at hblock
          refine h.watch (by simp [Contended.reads, pc]) ?_ rfl
          exact (length_of_store store).2.trans hblock
      | readReturn pc all => cases hsilent
      | _ => cases reader

/-- What the return of `journal_read` leaves.
Source: `journal.c`, `journal_read`
Kind: L -/
theorem ContendedMoved.readReturn {w w' : Contended ι n}
    (hm : ContendedMoved w (.read .readReturn) w') :
    w.reader ≠ .idle ∧ w'.reader = .idle ∧ ∃ content, w'.results = w.results ++ [content] := by
  cases hm with
  | read reader moved =>
      cases moved with
      | readReturn pc all =>
          have pc : w.reader = _ := pc
          exact ⟨by rw [pc]; simp, rfl, _, rfl⟩

/-- The content that `journal_read` has returned is the last result.
Source: `journal_transfer.c`, `journal_transfer_run_receiver`
Kind: L -/
theorem Exporter.Inv.readReturn (h : s.Inv) {watched : Contended ι n}
    (hm : ContendedMoved s.watched (.read .readReturn) watched) :
    Exporter.Inv { s with
      watched := watched, receiver := .sending (watched.results.getLastD []) } := by
  obtain ⟨hbusy, hidle, content, hresults⟩ := hm.readReturn
  have hreading := h.busy.mp hbusy
  have hhanded := h.handed
  have hkeeps := h.keeps
  rw [hreading] at hhanded hkeeps
  have hlast : watched.results.getLastD [] = content := by
    rw [hresults, List.getLastD_concat]
  rw [hlast]
  refine ⟨⟨fun hne => absurd hidle hne, fun hpc => nomatch hpc⟩, ?_, ?_, ?_, hkeeps⟩
  · show watched.reader.WholeBlock
    rw [hidle]
    trivial
  · exact ⟨s.watched.results, hresults, hhanded⟩
  · show List.Forall₂ (· <+: ·) s.exports (watched.results.take s.exports.length)
    rw [hresults, List.take_append_of_le_length hhanded.ge]
    exact h.exports

/-- **Every step keeps the invariant of the thread**, however the writes overlap.
Source: `server.c`, `journal_receiver_job`; `journal_transfer.c`, `journal_transfer_run_receiver`
Kind: P -/
theorem Exporter.Inv.moved (h : s.Inv) (hm : ExporterMoved s l s') : s'.Inv := by
  cases hm with
  | acceptFailed pc fails keeps =>
      refine h.leave s.watched (.inl rfl) (h.idle (by rw [pc]; simp)) rfl ?_
      rcases keeps with keeps | ⟨keeps, -⟩
      · exact .inl keeps
      · exact .inr keeps
  | @accept calls block watched pc moved =>
      have hhanded := h.handed
      rw [pc] at hhanded
      cases moved with
      | read reader moved =>
          cases moved with
          | readBegin idle =>
              exact ⟨⟨fun _ => rfl, fun _ hidle => nomatch hidle⟩, ⟨block.toList_length, rfl⟩,
                hhanded, h.exports, rfl⟩
  | silent silent moved => exact h.silent silent moved
  | refused moved idle =>
      cases moved with
      | read reader moved =>
          cases moved with
          | readRefused pc small =>
              exact h.leave { s.watched with reader := .idle } (.inl rfl) rfl rfl (.inl rfl)
          | readCheck pc fits => exact nomatch idle
  | checked moved busy =>
      cases moved with
      | read reader moved =>
          cases moved with
          | readRefused pc small => exact absurd rfl busy
          | readCheck pc fits =>
              have pc : s.watched.reader = _ := pc
              have hblock := h.block
              rw [pc] at hblock
              exact h.watch (by simp [Contended.reads, pc]) hblock.1 rfl
  | readReturn moved => exact h.readReturn moved
  | mutexFailed pc =>
      exact h.leave { s.watched with reader := .idle } (.inl rfl) rfl rfl (.inl rfl)
  | sendFailed pc =>
      exact h.leave s.watched (.inl rfl) (h.idle (by rw [pc]; simp)) rfl (.inl rfl)
  | send pc => exact h.send pc _
  | sigpipe pc => exact h.leave { s.watched with reader := .idle } (.inr rfl) rfl rfl rfl
  | mainReturned alive =>
      exact h.leave { s.watched with reader := .idle } (.inr rfl) rfl rfl rfl

/-! ## `journal_read` beside the workers -/

/-- **A read with the whole block is never refused**, however the writes overlap.
Source: `journal.c`, `journal_read`
Kind: P -/
theorem Exporter.Inv.not_refused (h : s.Inv) (hsized : s.watched.Sized)
    (hmax : n ≤ serverMaxJournalSize) {watched : Contended ι n}
    (hm : ContendedMoved s.watched (.read .readCheck) watched) : watched.reader ≠ .idle := by
  cases hm with
  | read reader moved =>
      cases moved with
      | @readRefused buffer bufferSize curSize pc small =>
          have pc : s.watched.reader = _ := pc
          have hblock := h.block
          rw [pc] at hblock
          have hsize : (ReadPc.loaded buffer bufferSize curSize).Sized n := pc ▸ hsized.quiet.reader
          have hroom := hsize.room
          have hwhole := hblock.2
          omega
      | readCheck pc fits => exact fun hidle => nomatch hidle

/-- **A read stays in bounds**: it always has a next step, in the region and in the block, and that
step does not end the thread.
Source: `journal.c`, `journal_read`; `journal_transfer.c`, `journal_transfer_run_receiver`
Kind: P -/
theorem Exporter.Inv.read_goes_on (h : s.Inv) (hsized : s.watched.Sized)
    (hmax : n ≤ serverMaxJournalSize) (hpc : s.receiver = .reading) :
    ∃ label s', exporterStep s (.watch (.read label)) = some s' ∧ s'.receiver ≠ .ended := by
  have hne : s.receiver ≠ .ended := by
    rw [hpc]
    simp
  have hbuffer : ∀ buffer curSize copied, s.watched.reader = .copying buffer curSize copied →
      n ≤ buffer.length := by
    intro buffer curSize copied hcase
    have hblock := h.block
    rw [hcase] at hblock
    exact hmax.trans_eq (Eq.symm hblock)
  obtain ⟨label, watched, hbegin, hstep⟩ := hsized.read_goes_on (h.busy.mpr hpc) hbuffer
  have hwatch : exporterStep s (.watch (.read label)) =
      Exporter.afterRead { s with watched := watched } label := by
    simp only [exporterStep, Exporter.watchStep, hstep, Option.bind_eq_bind, Option.bind_some]
  refine ⟨label, ?_⟩
  rw [hwatch]
  cases label with
  | readBegin buffer size => exact absurd rfl (hbegin buffer size)
  | readCheck =>
      have hchecked := h.not_refused hsized hmax (contendedMoved_of_step hstep)
      refine ⟨_, rfl, ?_⟩
      rw [if_neg hchecked]
      exact hne
  | readReturn => exact ⟨_, rfl, by simp⟩
  | _ => exact ⟨_, rfl, hne⟩

/-! ## Why the thread ends -/

/-- Why the thread has ended, why its process is gone, and why it keeps a socket.
Source: none: infrastructure
Kind: D -/
structure Exporter.Failed (ls : List (ExportLabel ι)) (s : Exporter ι n) : Prop where
  ended : s.receiver = .ended → ∃ l ∈ ls, l.Fails
  killed : s.receiver = .killed → ∃ cause, .exit cause ∈ ls
  keeps : s.held = [.listening] →
    ∃ calls, .accept calls ∈ ls ∧ calls.socket = true ∧ calls.bind = false

/-- A step gives its reason.
Source: `journal_transfer.c`, `journal_transfer_run_receiver`
Kind: P -/
theorem Exporter.Failed.moved {ls : List (ExportLabel ι)} (h : s.Failed ls) (hinv : s.Inv)
    (hsized : s.watched.Sized) (hmax : n ≤ serverMaxJournalSize) (hl : l ∈ ls)
    (hm : ExporterMoved s l s') : s'.Failed ls := by
  cases hm with
  | @acceptFailed calls held pc fails keeps =>
      refine ⟨fun _ => ⟨_, hl, fails⟩, (fun hpc => nomatch hpc), ?_⟩
      intro hheld
      rcases keeps with rfl | ⟨-, hsocket, hbind⟩
      · exact nomatch hheld
      · exact ⟨calls, hl, hsocket, hbind⟩
  | accept pc moved =>
      exact ⟨(fun hpc => nomatch hpc), (fun hpc => nomatch hpc), (fun hheld => nomatch hheld)⟩
  | silent silent moved => exact ⟨h.ended, h.killed, h.keeps⟩
  | refused moved idle => exact absurd idle (hinv.not_refused hsized hmax moved)
  | checked moved busy => exact ⟨h.ended, h.killed, h.keeps⟩
  | readReturn moved => exact ⟨(fun hpc => nomatch hpc), (fun hpc => nomatch hpc), h.keeps⟩
  | mutexFailed pc =>
      exact ⟨fun _ => ⟨_, hl, trivial⟩, (fun hpc => nomatch hpc), (fun hheld => nomatch hheld)⟩
  | sendFailed pc =>
      exact ⟨fun _ => ⟨_, hl, rfl⟩, (fun hpc => nomatch hpc), (fun hheld => nomatch hheld)⟩
  | send pc =>
      exact ⟨(fun hpc => nomatch hpc), (fun hpc => nomatch hpc), (fun hheld => nomatch hheld)⟩
  | sigpipe pc =>
      exact ⟨(fun hpc => nomatch hpc), fun _ => ⟨_, hl⟩, (fun hheld => nomatch hheld)⟩
  | mainReturned alive =>
      exact ⟨(fun hpc => nomatch hpc), fun _ => ⟨_, hl⟩, (fun hheld => nomatch hheld)⟩

end invariant

/-! ## The steps in a row are the call -/

section calls

variable {ι : Type} [DecidableEq ι] {n : ℕ} {s : Exporter ι n}

/-- Steps that leave the thread where it is.
Source: `journal.c`, `journal_write`, `journal_read`
Kind: L -/
theorem run_watch {labels : List (ContendedLabel ι)}
    (hsilent : ∀ label ∈ labels, label.silent = true) {watched : Contended ι n}
    (h : Run Contended.step (fun s l => s.Undisturbed l) s.watched labels watched) :
    Run exporterStep (fun s l => s.Undisturbed l) s (labels.map .watch)
      { s with watched := watched } := by
  refine (Run.embed (I := fun _ => True) (fun watched => { s with watched := watched })
    ExportLabel.watch trivial ?_ h.mem_labels).2
  rintro watched label watched' - ⟨hundisturbed, hmem⟩ hs
  refine ⟨trivial, hundisturbed, ?_⟩
  have hlabel := hsilent label hmem
  simp only [exporterStep, Exporter.watchStep, hs, Option.bind_eq_bind, Option.bind_some]
  cases label with
  | write i label => rfl
  | read label =>
      cases label with
      | readBegin buffer size => cases hlabel
      | readCheck => cases hlabel
      | readReturn => cases hlabel
      | _ => rfl

/-- The steps of one call, undisturbed, for a content of this length.
Source: `journal_transfer.c`, `journal_transfer_run_receiver`
Kind: D -/
def receiverLabels (calls : TransferServerCalls) (length : ℕ) : List (ExportLabel ι) :=
  [.accept calls, .watch (.read .readLoad), .watch (.read .readCheck)] ++
    (((List.range length).map WatchLabel.readByte).map ContendedLabel.read).map .watch ++
    [.watch (.read .readReturn), .send calls.send]

/-- The calls before `journal_read`, if the function returns zero.
Source: `server.c`, `journal_receiver_job`; `journal_transfer.c`, `journal_transfer_run_receiver`
Kind: L -/
theorem calls_of_zero {calls : TransferServerCalls} {j : Journal} {accepted : List UInt8}
    (h : journalTransferRunReceiver calls j = some (0, accepted)) :
    ∃ block, calls.socket = true ∧ calls.bind = true ∧ calls.listen = true ∧
      calls.accept = true ∧ calls.malloc = some block := by
  unfold journalTransferRunReceiver at h
  split_ifs at h with hsocket hbind hlisten haccept
  · simp at h
  · simp at h
  · simp at h
  · simp at h
  · split at h
    · simp at h
    · rename_i block hmalloc
      exact ⟨block, by simpa using hsocket, by simpa using hbind, by simpa using hlisten,
        by simpa using haccept, hmalloc⟩

section steps

variable {calls : TransferServerCalls} {block : List.Vector UInt8 serverMaxJournalSize}
  {curSize : ℕ}

/-- The thread in `journal_read`, with these bytes in its block.
Source: none: infrastructure
Kind: D -/
def Exporter.copying (s : Exporter ι n) (buffer : List UInt8) (curSize : ℕ) (copied : Finset ℕ) :
    Exporter ι n :=
  { s with
    watched := { s.watched with reader := .copying buffer curSize copied }
    receiver := .reading
    held := [.client, .content] }

/-- Up to the check of `journal_read`.
Source: `journal_transfer.c`, `journal_transfer_run_receiver`; `journal.c`, `journal_read`
Kind: L -/
theorem run_accept (hpc : s.receiver = .calling) (hidle : s.watched.reader = .idle)
    (hsocket : calls.socket = true) (hbind : calls.bind = true) (hlisten : calls.listen = true)
    (haccept : calls.accept = true) (hmalloc : calls.malloc = some block)
    (hsize : loadSize s.watched.region = some curSize)
    (hsmall : ¬serverMaxJournalSize < curSize) :
    Run exporterStep (fun s l => s.Undisturbed l) s
      [.accept calls, .watch (.read .readLoad), .watch (.read .readCheck)]
      (s.copying block.toList curSize ∅) := by
  have hexec : exec exporterStep (fun _ _ => True) s
      [.accept calls, .watch (.read .readLoad), .watch (.read .readCheck)] =
      some (s.copying block.toList curSize ∅) := by
    simp [exec, exporterStep, Exporter.watchStep, Exporter.afterRead, Contended.step, Watched.step,
      Contended.view, Contended.reads, WatchLabel.ofReader, Exporter.copying, hpc, hsocket, hbind,
      hlisten, haccept, hmalloc, hidle, hsize, hsmall]
  refine (Run.of_exec hexec).mem_labels.mono ?_
  rintro s l ⟨-, hl⟩
  simp only [List.mem_cons, List.not_mem_nil, or_false] at hl
  rcases hl with rfl | rfl | rfl <;> trivial

/-- The copy of `journal_read`.
Source: `journal.c`, `journal_read`
Kind: L -/
theorem run_copy {bytes copied : List UInt8}
    (hload : load s.watched.region.toList sizeofSizeT (subSizeT curSize sizeofSizeT) = some bytes)
    (hstore : store block.toList 0 bytes = some copied) :
    Run exporterStep (fun s l => s.Undisturbed l) (s.copying block.toList curSize ∅)
      ((((List.range bytes.length).map WatchLabel.readByte).map ContendedLabel.read).map .watch)
      (s.copying copied curSize (Finset.range bytes.length)) := by
  have hexec := exec_readByte
    (s := ({ s.watched with reader := .copying block.toList curSize ∅ } :
      Contended ι n).view .idle) rfl hload le_rfl (by rw [List.take_length]; exact hstore)
  have hreads : Run Watched.step (fun _ l => l.ofReader = true) _ _ _ :=
    (Run.of_exec hexec).mem_labels.mono (by
      rintro s l ⟨-, hl⟩
      obtain ⟨i, -, rfl⟩ := List.mem_map.mp hl
      rfl)
  refine run_watch (s := s.copying block.toList curSize ∅) ?_ (Contended.run_read hreads)
  intro label hlabel
  obtain ⟨watch, hwatch, rfl⟩ := List.mem_map.mp hlabel
  obtain ⟨i, -, rfl⟩ := List.mem_map.mp hwatch
  rfl

/-- The return of `journal_read`, and `send`.
Source: `journal_transfer.c`, `journal_transfer_run_receiver`; `journal.c`, `journal_read`
Kind: L -/
theorem run_send (hpc : s.receiver = .calling) (hidle : s.watched.reader = .idle)
    {buffer content : List UInt8} {sent : ℕ} (hsend : calls.send = some sent)
    (hlength : subSizeT curSize sizeofSizeT = content.length)
    (hcontent : buffer.take content.length = content) :
    Run exporterStep (fun s l => s.Undisturbed l)
      (s.copying buffer curSize (Finset.range content.length))
      [.watch (.read .readReturn), .send calls.send]
      { s with
        watched := { s.watched with results := s.watched.results ++ [content] }
        held := []
        exports := s.exports ++ [content.take sent] } := by
  have hexec : exec exporterStep (fun _ _ => True)
      (s.copying buffer curSize (Finset.range content.length))
      [.watch (.read .readReturn), .send calls.send] =
      some { s with
        watched := { s.watched with results := s.watched.results ++ [content] }
        held := []
        exports := s.exports ++ [content.take sent] } := by
    simp [exec, exporterStep, Exporter.watchStep, Exporter.afterRead, Contended.step, Watched.step,
      Contended.view, Contended.reads, WatchLabel.ofReader, Exporter.copying, hpc, hidle, hsend,
      hlength, hcontent]
  refine (Run.of_exec hexec).mem_labels.mono ?_
  rintro s l ⟨-, hl⟩
  simp only [List.mem_cons, List.not_mem_nil, or_false] at hl
  rcases hl with rfl | rfl <;> trivial

end steps

/-- **An undisturbed call is `journalTransferRunReceiver`**, if it returns zero: the kernel has
taken what the function says, and the thread is ready for the next call.
Source: `journal_transfer.c`, `journal_transfer_run_receiver`
Kind: P -/
theorem receiver_in_a_row {content : List UInt8} (hholds : Holds s.watched.region content)
    (hmax : n ≤ serverMaxJournalSize) (hpc : s.receiver = .calling)
    (hidle : s.watched.reader = .idle) {calls : TransferServerCalls} {accepted : List UInt8}
    (h : journalTransferRunReceiver calls ⟨n, s.watched.region⟩ = some (0, accepted)) :
    Run exporterStep (fun s l => s.Undisturbed l) s (receiverLabels calls content.length)
      { s with
        watched := { s.watched with results := s.watched.results ++ [content] }
        held := []
        exports := s.exports ++ [accepted] } := by
  obtain ⟨sent, hsend, rfl⟩ := accepted_of_zero hholds hmax h
  obtain ⟨block, hsocket, hbind, hlisten, haccept, hmalloc⟩ := calls_of_zero h
  obtain ⟨buffer, hread, hbuffer⟩ :=
    request_of_journalRead (j := ⟨n, s.watched.region⟩) hholds hmax block
  have hcontent : buffer.take content.length = content := by
    have hslice := load_of_le (length_of_load hbuffer).1
    rw [hbuffer] at hslice
    exact (Option.some.inj hslice).symm
  simp only [journalRead, JournalCalls.allOk_lock, JournalCalls.allOk_unlock, Bool.not_true,
    Bool.false_eq_true, if_false] at hread
  obtain ⟨curSize, hsize, hread⟩ := Option.bind_eq_some_iff.mp hread
  split_ifs at hread with hsmall
  · simp at hread
  obtain ⟨bytes, hload, hread⟩ := Option.bind_eq_some_iff.mp hread
  obtain ⟨copied, hstore, hread⟩ := Option.bind_eq_some_iff.mp hread
  simp only [Option.some.injEq, Prod.mk.injEq, true_and] at hread
  obtain ⟨rfl, hlength⟩ := hread
  have hbytes : bytes.length = content.length := (length_of_load hload).2.trans hlength
  have hcopy := run_copy (s := s) hload hstore
  rw [hbytes] at hcopy
  have hbegin := run_accept hpc hidle hsocket hbind hlisten haccept hmalloc hsize hsmall
  exact (hbegin.trans hcopy).trans (run_send hpc hidle hsend hlength hcontent)

end calls

/-! ## Whole runs -/

section runs

variable {ι : Type} [DecidableEq ι] {maxSize : ℕ} {region : Region maxSize}
  {ls : List (ExportLabel ι)} {s : Exporter ι maxSize}

/-- **What is handed out grows.** In every run of the thread beside the workers, of which at most
one at a time is in `journal_write` and any may be killed: to every client that was served the
kernel has taken a first part of what `journal_read` returned for it; this consists of whole
completed records, and what was returned for an earlier client is a prefix of that for a later one.
Source: `server.c`, `journal_receiver_job`; `journal_transfer.c`, `journal_transfer_run_receiver`;
`journal.c`, `journal_read`
Kind: P
Hyps: `maxSize` is a `size_t`; no two writes overlap -/
theorem exports_grow (h64 : maxSize < 2 ^ 64)
    (hcreate : journalCreate .allOk maxSize = some ⟨maxSize, region⟩)
    (h : Run exporterStep (fun s l => s.Undisturbed l) (Exporter.init region) ls s) :
    List.Forall₂ (· <+: ·) s.exports (s.watched.results.take s.exports.length) ∧
      (s.watched.results.take s.exports.length).Pairwise (· <+: ·) ∧
      ∀ c ∈ s.watched.results.take s.exports.length, Whole s.watched.completed c := by
  have hholds := holds_of_journalCreate h64 hcreate
  obtain ⟨hinv, hjournal⟩ := h.invariant (I := fun s => s.Inv ∧ s.watched.Inv)
    ⟨.init region, .init hholds⟩ fun _ _ _ hinv hundisturbed hs =>
      ⟨hinv.1.moved (exporterMoved_of_step hs),
        (exporterMoved_of_step hs).journal hinv.2 hundisturbed⟩
  refine ⟨hinv.exports, ?_, ?_⟩
  · exact hjournal.quiet.ordered.sublist (List.take_sublist _ _)
  · intro c hc
    exact hjournal.quiet.whole c (List.mem_of_mem_take hc)

end runs

/-! ## Two exports -/

/-- A call in which everything succeeds.
Source: `journal_transfer.c`, `journal_transfer_run_receiver`
Kind: L -/
theorem runReceiver_taking {j : Journal} {content : List UInt8} (h : Holds j.region content)
    (hmax : j.maxSize ≤ serverMaxJournalSize) (sent : ℕ) :
    journalTransferRunReceiver (.taking sent) j = some (0, content.take sent) := by
  obtain ⟨buffer, hread, hload⟩ := request_of_journalRead h hmax
    (List.Vector.replicate serverMaxJournalSize 0)
  unfold journalTransferRunReceiver TransferServerCalls.taking
  dsimp only
  rw [hread, Option.bind_eq_bind, Option.bind_some, hload]
  rfl

/-- The first of two workers writes a record of one byte, with the thread where it is.
Source: `journal.c`, `journal_write`
Kind: L -/
theorem run_record {s : Exporter Bool 10} (hidle : ∀ i, s.watched.writer i = .idle)
    {region : Region 10}
    (h : journalWrite .allOk ⟨10, s.watched.region⟩ [5] = some (.success, ⟨10, region⟩)) :
    Run exporterStep (fun s l => s.Undisturbed l) s
      (((writeLabels [5]).map (.write true)).map .watch)
      { s with watched := { s.watched with
          region := region, completed := s.watched.completed ++ [[5]] } } := by
  have hexec := write_in_a_row (s := s.watched.view (s.watched.writer true)) (hidle true)
    (by decide) h
  have hwriter : ∀ l ∈ writeLabels [5], l.ofReader = false := by decide
  have hwrite : Run Watched.step (fun _ l => l.ofReader = false) _ _ _ :=
    (Run.of_exec hexec).mem_labels.mono fun _ l hl => hwriter l hl.2
  have hrun := run_watch (s := s) (by decide)
    (Contended.run_write (s := s.watched) (i := true) (fun k _ => hidle k) hwrite)
  have hself : s.watched.writes true { s.watched.view (s.watched.writer true) with
      region := region, completed := s.watched.completed ++ [[5]] } =
      { s.watched with region := region, completed := s.watched.completed ++ [[5]] } := by
    simp [Contended.writes, Contended.view]
  rw [← hself]
  exact hrun

/-- One export before and one after a record of one byte, which one of two workers writes.
Source: `server.c`, `journal_receiver_job`; `journal_transfer.c`, `journal_transfer_run_receiver`
Kind: C -/
theorem exports_grow_by_one :
    ∃ (ls : List (ExportLabel Bool)) (s : Exporter Bool 10),
      Run exporterStep (fun s l => s.Undisturbed l) (Exporter.init tenBytes) ls s ∧
      s.exports = [[], [5]] ∧ s.watched.results = [[], [5]] ∧
      List.Forall₂ (· <+: ·) s.exports (s.watched.results.take 2) ∧
      (s.watched.results.take 2).Pairwise (· <+: ·) := by
  have hcreate : journalCreate .allOk 10 = some ⟨10, tenBytes⟩ := rfl
  have hholds := holds_of_journalCreate (by norm_num) hcreate
  have hmax : 10 ≤ serverMaxJournalSize := by decide
  obtain ⟨region, hwrite, hholds'⟩ := journalWrite_of_room (j := ⟨10, tenBytes⟩) hholds
    (show sizeofSizeT + ([] : List UInt8).length + ([5] : List UInt8).length ≤ 10 by decide)
  have hfirst := receiver_in_a_row (s := (Exporter.init tenBytes : Exporter Bool 10)) hholds hmax
    rfl rfl (runReceiver_taking hholds hmax 1)
  have hrecord := run_record
    (s := ⟨⟨tenBytes, fun _ => .idle, .idle, [], [[]]⟩, .calling, [], [[]]⟩) (fun _ => rfl) hwrite
  have hsecond := receiver_in_a_row
    (s := (⟨⟨region, fun _ => .idle, .idle, [[5]], [[]]⟩, .calling, [], [[]]⟩ : Exporter Bool 10))
    hholds' hmax rfl rfl (runReceiver_taking hholds' hmax 1)
  have hrun := (hfirst.trans hrecord).trans hsecond
  obtain ⟨hexports, hgrow, -⟩ := exports_grow (by norm_num) hcreate hrun
  exact ⟨_, _, hrun, rfl, rfl, hexports, hgrow⟩

end CpuMonitor.Server
