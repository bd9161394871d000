import CpuMonitor.Server.Ownership

/-!
# The data buffers of a worker's messages

A message is two blocks, the `message_t` and the buffer at `data`. `message_create` allocates both,
`message_set_data` may move the buffer with `realloc`, and `message_delete` frees the `message_t`
alone (`messageDelete`).

* `BufferLedger` counts the data buffers allocated and freed in a run and lists the messages
  created; `ledgerStep` keeps it beside the connection, step by step.
* `Ledgered` is what every step keeps: each message created still has its buffer, and only created
  messages are deleted.
* `buffers_le_alive_iff` — every run: there are no more buffers than messages alive exactly as long
  as no message has been deleted.
-/

namespace CpuMonitor.Server

open CpuMonitor.Lib CpuMonitor.Network

/-! ## The ledger -/

/-- The account of the data buffers of a run.
Source: `message.c`, `message_create`, `message_delete`; `server.c`, `message_set_data`
Kind: D -/
structure BufferLedger where
  /-- The numbers of the messages `message_create` has returned. -/
  created : List ℕ
  /-- How many data buffers `message_create` and `realloc` have allocated. -/
  allocated : ℕ
  /-- How many data buffers `realloc` and `message_delete` have freed. -/
  freed : ℕ
  deriving DecidableEq

/-- Before the first message.
Source: `message.c`, `message_create`, `message_delete`; `server.c`, `message_set_data`
Kind: D -/
def BufferLedger.empty : BufferLedger := ⟨[], 0, 0⟩

/-- The buffer of the message is moved.
Source: `server.c`, `message_set_data`
Kind: D -/
def messageSetDataReallocs (env : HandlerEnv) (m : Message) (data : CString) : Bool :=
  decide (m.header.capacity.toNat < data.strlen + 1) && env.realloc

/-- The same for a whole call of the handler.
Source: `server.c`, `worker_on_message`
Kind: D -/
def workerReallocs (env : HandlerEnv) (m : Message) : Bool :=
  match workerAnswer env m with
  | some ⟨m', _, some response⟩ => messageSetDataReallocs env m' response.1
  | _ => false

section ledger

variable {Q σ ε : Type} (reallocs : ε → Message → Bool) (ops : QueueOps Q) (handler : Handler ε σ)

/-- What a step allocates: the buffer of a new message, or the one `realloc` moves a buffer to,
which frees the old one.
Source: `message.c`, `message_create`, `message_delete`; `server.c`, `message_set_data`
Kind: D -/
def BufferLedger.allocate (b : BufferLedger) (s : Conn Q σ) : Label ε → BufferLedger
  | .createHeader calls fresh =>
      match s.recv, messageCreate calls fresh .none receiveCapacity with
      | .received id, some _ =>
          { b with created := b.created ++ [id], allocated := b.allocated + 1 }
      | _, _ => b
  | .handle env =>
      match s.work with
      | .got _ t =>
          if reallocs env t.body then
            { b with allocated := b.allocated + 1, freed := b.freed + 1 }
          else b
      | _ => b
  | _ => b

/-- What the calls of `message_delete` free.
Source: `message.c`, `message_create`, `message_delete`; `server.c`, `message_set_data`
Kind: D -/
def BufferLedger.delete (b : BufferLedger) (deleted : List (DeleteSite × Tagged)) : BufferLedger :=
  { b with freed := b.freed + (deleted.flatMap fun _ => messageDelete).count .data }

/-- A step of the connection, with its entries in the ledger.
Source: `message.c`, `message_create`, `message_delete`; `server.c`, `message_set_data`
Kind: D -/
def ledgerStep (x : Conn Q σ × BufferLedger) (l : Label ε) : Option (Conn Q σ × BufferLedger) := do
  let s ← step ops handler x.1 l
  some (s, (x.2.allocate reallocs x.1 l).delete (s.deleted.drop x.1.deleted.length))

end ledger

/-! ## What a step enters -/

section entries

variable {Q σ ε : Type} {reallocs : ε → Message → Bool} {b : BufferLedger}

/-- **`message_delete` frees no data buffer.**
Source: `message.c`, `message_create`, `message_delete`; `server.c`, `message_set_data`
Kind: P -/
theorem BufferLedger.delete_eq (deleted : List (DeleteSite × Tagged)) : b.delete deleted = b := by
  have hcount : (deleted.flatMap fun _ => messageDelete).count MessageBlock.data = 0 := by
    simp [List.count_eq_zero, messageDelete]
  rw [BufferLedger.delete, hcount, Nat.add_zero]

/-- A message is created with a buffer, and `realloc` gives back one buffer for another.
Source: `message.c`, `message_create`, `message_delete`; `server.c`, `message_set_data`
Kind: L -/
theorem BufferLedger.balance_allocate (h : b.allocated = b.freed + b.created.length)
    (s : Conn Q σ) (l : Label ε) :
    (b.allocate reallocs s l).allocated =
      (b.allocate reallocs s l).freed + (b.allocate reallocs s l).created.length := by
  unfold BufferLedger.allocate
  cases l with
  | createHeader calls fresh =>
      dsimp only
      split
      · rw [List.length_append, List.length_singleton]
        exact congrArg (· + 1) h
      · exact h
  | handle env =>
      dsimp only
      split
      · split_ifs
        · dsimp only
          omega
        · exact h
      · exact h
  | _ => exact h

/-- A step forgets no block.
Source: `message.c`, `message_create`, `message_delete`; `server.c`, `message_set_data`
Kind: L -/
theorem BufferLedger.created_subset_allocate (s : Conn Q σ) (l : Label ε) :
    b.created ⊆ (b.allocate reallocs s l).created := by
  unfold BufferLedger.allocate
  cases l with
  | createHeader calls fresh =>
      dsimp only
      split
      · exact List.subset_append_left _ _
      · exact List.Subset.refl _
  | handle env =>
      dsimp only
      split
      · split_ifs <;> exact List.Subset.refl _
      · exact List.Subset.refl _
  | _ => exact List.Subset.refl _

/-- The number of a new message is entered.
Source: `message.c`, `message_create`, `message_delete`; `server.c`, `message_set_data`
Kind: L -/
theorem BufferLedger.mem_created_allocate {s : Conn Q σ} {calls : MessageCreateCalls}
    {fresh : FreshMemory} {id : ℕ} {new : Message} (pc : s.recv = .received id)
    (create : messageCreate calls fresh .none receiveCapacity = some new) :
    id ∈ (b.allocate reallocs s (.createHeader calls fresh)).created := by
  simp [BufferLedger.allocate, pc, create]

end entries

/-! ## What every step keeps -/

section ledgered

variable {σ ε : Type} {handler : Handler ε σ} {reallocs : ε → Message → Bool}

/-- The messages under way and the deleted ones have been created, and each message created has its
buffer.
Source: none: infrastructure
Kind: D -/
structure Ledgered (s : Conn (Fifo Tagged) σ) (b : BufferLedger) : Prop where
  balance : b.allocated = b.freed + b.created.length
  recv : ∀ t ∈ s.recv.hand, t.id ∈ b.created
  requests : ∀ t ∈ s.requests, t.id ∈ b.created
  replies : ∀ t ∈ s.replies, t.id ∈ b.created
  deleted : ∀ id ∈ s.deletedIds, id ∈ b.created

variable {s s' : Conn (Fifo Tagged) σ} {b : BufferLedger} {l : Label ε}

/-- The message in the receive thread's hands after a step was there before, up to its contents, or
it is new.
Source: `message.c`, `message_create`, `message_delete`; `server.c`, `message_set_data`
Kind: L -/
theorem Moved.hand_cases (hm : Moved fifoOps handler s l s') :
    ∀ t ∈ s'.recv.hand, (∃ t₀ ∈ s.recv.hand, t₀.id = t.id) ∨
      ∃ calls fresh new, l = .createHeader calls fresh ∧ s.recv = .received t.id ∧
        messageCreate calls fresh .none receiveCapacity = some new := by
  intro t ht
  cases hm with
  | recvfrom pc => exact absurd ht List.not_mem_nil
  | createFailed pc create => exact absurd ht List.not_mem_nil
  | enqueueIncoming pc enqueue => exact absurd ht List.not_mem_nil
  | createHeader pc create =>
      rw [List.mem_singleton.mp ht]
      exact .inr ⟨_, _, _, rfl, pc, create⟩
  | readOwner pc =>
      rw [List.mem_singleton.mp ht, pc]
      exact .inl ⟨_, List.mem_singleton_self _, rfl⟩
  | readData pc data =>
      rw [List.mem_singleton.mp ht, pc]
      exact .inl ⟨_, List.mem_singleton_self _, rfl⟩
  | _ => exact .inl ⟨t, ht, rfl⟩

/-- The messages an enqueue leads to the deletion of are the new one and those in the queue.
Source: `message.c`, `message_create`, `message_delete`; `server.c`, `message_set_data`
Kind: L -/
theorem mem_of_mem_deletions {overflow : DeleteSite} {sites : List DeleteSite}
    {calls : EnqueueCalls} {q q' : Fifo Tagged} {status : MessageQueueStatus}
    {dropped : List Tagged} {t : Tagged} {d : DeleteSite × Tagged}
    (he : fifoOps.enqueue calls q t = some (status, q', dropped))
    (hd : d ∈ deletions overflow sites status dropped t) : d.2 ∈ q.items ++ [t] := by
  have hsub := Fifo.sublist_of_enqueue (Option.some.inj he)
  rcases List.mem_append.mp hd with hdropped | hnew
  · obtain ⟨m, hm, rfl⟩ := List.mem_map.mp hdropped
    exact hsub.subset (List.mem_append_left _ hm)
  · split_ifs at hnew
    · obtain ⟨site, -, rfl⟩ := List.mem_map.mp hnew
      exact List.mem_append_right _ (List.mem_singleton_self t)
    · exact absurd hnew List.not_mem_nil

/-- A message that a step deletes was under way.
Source: `message.c`, `message_create`, `message_delete`; `server.c`, `message_set_data`
Kind: L -/
theorem Moved.deleted_cases (hm : Moved fifoOps handler s l s') {d : DeleteSite × Tagged}
    (hd : d ∈ s'.deleted) :
    d ∈ s.deleted ∨ d.2 ∈ s.recv.hand ∨ d.2 ∈ s.requests ∨ d.2 ∈ s.replies := by
  cases hm with
  | enqueueIncoming pc enqueue =>
      rcases List.mem_append.mp hd with hold | hnew
      · exact .inl hold
      · rcases List.mem_append.mp (mem_of_mem_deletions enqueue hnew) with hitem | hself
        · exact .inr (.inr (.inl (List.mem_append_right _ hitem)))
        · rw [pc]
          exact .inr (.inl hself)
  | enqueueOutgoing pc enqueue =>
      rcases List.mem_append.mp hd with hold | hnew
      · exact .inl hold
      · have hmem := mem_of_mem_deletions enqueue hnew
        refine .inr (.inr (.inr (List.mem_append_right _ ?_)))
        rw [Conn.waiting, pc, List.append_assoc]
        exact List.mem_append_right _ hmem
  | reject pc header data failed =>
      rcases List.mem_append.mp hd with hold | hnew
      · exact .inl hold
      · rw [List.mem_singleton.mp hnew]
        simp [Conn.replies, Conn.waiting, SendPc.hand, pc]
  | sendto pc send =>
      rcases List.mem_append.mp hd with hold | hnew
      · exact .inl hold
      · rw [List.mem_singleton.mp hnew]
        simp [Conn.replies, Conn.waiting, SendPc.hand, pc]
  | _ => exact .inl hd

/-- **Every step keeps the ledger.**
Source: `message.c`, `message_create`, `message_delete`; `server.c`, `message_set_data`
Kind: P -/
theorem Ledgered.moved (h : Ledgered s b) (hm : Moved fifoOps handler s l s') :
    Ledgered s' (b.allocate reallocs s l) := by
  have hflow := hm.flowed
  have hsub : b.created ⊆ (b.allocate reallocs s l).created := b.created_subset_allocate s l
  refine ⟨b.balance_allocate h.balance s l, ?_, ?_, ?_, ?_⟩
  · intro t ht
    rcases hm.hand_cases t ht with ⟨t₀, ht₀, hid⟩ | ⟨calls, fresh, new, rfl, pc, create⟩
    · exact hsub (hid ▸ h.recv t₀ ht₀)
    · exact BufferLedger.mem_created_allocate pc create
  · apply hflow.forall_requests (fun t ht => hsub (h.requests t ht))
    intro t pc
    exact hsub (h.recv t (by rw [pc]; exact List.mem_singleton_self t))
  · apply hflow.forall_replies (fun t ht => hsub (h.replies t ht))
    intro env t m store ht call
    exact hsub (h.requests t ht)
  · intro id hid
    obtain ⟨d, hd, rfl⟩ := List.mem_map.mp hid
    apply hsub
    rcases hm.deleted_cases hd with hold | hrecv | hrequest | hreply
    · exact h.deleted d.2.id (List.mem_map_of_mem hold)
    · exact h.recv d.2 hrecv
    · exact h.requests d.2 hrequest
    · exact h.replies d.2 hreply

/-- The ledger of a run over ring buffers is the one of the run over abstract queues.
Source: `message.c`, `message_create`, `message_delete`; `server.c`, `message_set_data`
Kind: P -/
theorem ledgered_of_run {calls₁ calls₂ : CreateCalls} {c₁ c₂ : ℤ} {q₁ q₂ : MessageQueue Tagged}
    (hc₁ : c₁ ≤ intMax) (hc₂ : c₂ ≤ intMax) (hq₁ : messageQueueCreate calls₁ c₁ = some q₁)
    (hq₂ : messageQueueCreate calls₂ c₂ = some q₂) {socket : UdpSocket} {store : σ}
    {ls : List (Label ε)} {s : Conn (MessageQueue Tagged) σ} {b : BufferLedger}
    (h : Run (ledgerStep reallocs ringOps handler) (fun _ _ => True)
      (Conn.init socket q₁ q₂ store, .empty) ls (s, b)) : Ledgered s.fifo b := by
  have hinv : (s, b).1.Valid ∧ Ledgered (s, b).1.fifo (s, b).2 := by
    refine h.invariant (I := fun x => x.1.Valid ∧ Ledgered x.1.fifo x.2) ?_ ?_
    · obtain ⟨-, hrep₁⟩ := represents_of_messageQueueCreate hq₁ hc₁
      obtain ⟨-, hrep₂⟩ := represents_of_messageQueueCreate hq₂ hc₂
      refine ⟨⟨hrep₁.valid, hrep₂.valid⟩, rfl, ?_, ?_, ?_, ?_⟩
      · exact fun t ht => absurd ht List.not_mem_nil
      · intro t ht
        rw [Conn.requests, show (Conn.init socket q₁ q₂ store).fifo.incoming.items = [] from
          hrep₁.contents_eq] at ht
        exact absurd ht List.not_mem_nil
      · intro t ht
        rw [Conn.replies, Conn.waiting,
          show (Conn.init socket q₁ q₂ store).fifo.outgoing.items = [] from
            hrep₂.contents_eq] at ht
        exact absurd ht List.not_mem_nil
      · exact fun id hid => absurd hid List.not_mem_nil
    · rintro ⟨s₁, b₁⟩ l ⟨s₂, b₂⟩ ⟨hvalid, hledger⟩ - hs
      obtain ⟨s₃, hstep, hs⟩ := Option.bind_eq_some_iff.mp hs
      obtain ⟨hm, hvalid'⟩ := (moved_of_step hstep).refines hvalid
      rw [Option.some.injEq, Prod.mk.injEq, BufferLedger.delete_eq] at hs
      obtain ⟨rfl, rfl⟩ := hs
      exact ⟨hvalid', hledger.moved hm⟩
  exact hinv.2

end ledgered

/-! ## Every run -/

/-- The messages that have been created and not yet passed to `message_delete`.
Source: `message.c`, `message_create`, `message_delete`; `server.c`, `message_set_data`
Kind: D -/
def BufferLedger.alive {Q σ : Type} (b : BufferLedger) (s : Conn Q σ) : List ℕ :=
  b.created.filter fun id => id ∉ s.deletedIds

/-- **The buffers of a worker's messages are never freed.** In every run of a worker, of any length,
with any outcome of the calls of the system: there are exactly as many data buffers allocated and
not freed as messages created, so they are bounded by the messages alive exactly as long as no
message has been passed to `message_delete`.
Source: `message.c`, `message_create`, `message_delete`; `server.c`, `message_set_data`
Kind: P
Hyps: the capacities of the queues are `int`s -/
theorem buffers_le_alive_iff {calls₁ calls₂ : CreateCalls} {c₁ c₂ : ℤ}
    {q₁ q₂ : MessageQueue Tagged} (hc₁ : c₁ ≤ intMax) (hc₂ : c₂ ≤ intMax)
    (hq₁ : messageQueueCreate calls₁ c₁ = some q₁) (hq₂ : messageQueueCreate calls₂ c₂ = some q₂)
    (socket : UdpSocket) (journal : Journal) {ls : List (Label HandlerEnv)}
    {s : Conn (MessageQueue Tagged) Journal} {b : BufferLedger}
    (h : Run (ledgerStep workerReallocs ringOps workerOnMessage) (fun _ _ => True)
      (Conn.init socket q₁ q₂ journal, .empty) ls (s, b)) :
    b.allocated = b.freed + b.created.length ∧
      (b.allocated - b.freed ≤ (b.alive s).length ↔ s.deleted = []) := by
  have hledger : Ledgered s.fifo b := ledgered_of_run hc₁ hc₂ hq₁ hq₂ h
  refine ⟨hledger.balance, ?_⟩
  rw [hledger.balance, Nat.add_sub_cancel_left]
  constructor
  · intro hle
    by_contra hdeleted
    -- a deleted message has been created and is not alive
    obtain ⟨d, hd⟩ := List.exists_mem_of_ne_nil _ hdeleted
    have hid : d.2.id ∈ s.deletedIds := List.mem_map_of_mem hd
    have hlt : (b.alive s).length < b.created.length := by
      rw [BufferLedger.alive, List.length_filter_lt_length_iff_exists]
      exact ⟨d.2.id, hledger.deleted d.2.id hid, by simpa using hid⟩
    omega
  · intro hdeleted
    have hall : b.alive s = b.created := by
      rw [BufferLedger.alive, Conn.deletedIds, hdeleted, List.filter_eq_self]
      intro id _
      simp
    rw [hall]

/-- A reply that waits to be sent.
Source: `message.c`, `message_create`, `message_delete`; `server.c`, `message_set_data`
Kind: C -/
theorem buffers_le_alive_queued :
    ∃ s b, Run (ledgerStep workerReallocs ringOps workerOnMessage) (fun _ _ => True)
        (newWorker, .empty) (firstRequest .allOk .allOk) (s, b) ∧
      s.deleted = [] ∧ b.created = [0] ∧ b.allocated - b.freed ≤ (b.alive s).length := by
  obtain ⟨⟨s, b⟩, hrun, hs⟩ := Run.exists_of_exec
    (show (exec (ledgerStep workerReallocs ringOps workerOnMessage) (fun _ _ => True)
        (newWorker, .empty) (firstRequest .allOk .allOk)).map
      (fun x => decide (x.1.deleted = [] ∧ x.2.created = [0])) = some true by decide +kernel)
  obtain ⟨hdeleted, hcreated⟩ := of_decide_eq_true hs
  exact ⟨s, b, hrun, hdeleted, hcreated, (buffers_le_alive_iff (by decide) (by decide)
    messageQueueCreate_emptyQueue messageQueueCreate_emptyQueue _ _ hrun).2.mpr hdeleted⟩

/-- **A buffer without a message.** A request is answered, the reply is sent and its message
deleted: no message is left, and one buffer is.
Source: `message.c`, `message_create`, `message_delete`; `server.c`, `message_set_data`
Kind: C -/
theorem buffer_outlives_message :
    ∃ s b, Run (ledgerStep workerReallocs ringOps workerOnMessage) (fun _ _ => True)
        (newWorker, .empty) (firstRequest .allOk .allOk ++ sendLabels true) (s, b) ∧
      b.alive s = [] ∧ b.allocated - b.freed = 1 := by
  obtain ⟨⟨s, b⟩, hrun, hs⟩ := Run.exists_of_exec
    (show (exec (ledgerStep workerReallocs ringOps workerOnMessage) (fun _ _ => True)
        (newWorker, .empty) (firstRequest .allOk .allOk ++ sendLabels true)).map
      (fun x => decide (x.2.alive x.1 = [] ∧ x.2.allocated - x.2.freed = 1)) =
        some true by decide +kernel)
  obtain ⟨halive, hbuffers⟩ := of_decide_eq_true hs
  exact ⟨s, b, hrun, halive, hbuffers⟩

end CpuMonitor.Server
