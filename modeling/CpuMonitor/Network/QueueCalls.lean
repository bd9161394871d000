import CpuMonitor.Lib.Run
import CpuMonitor.Network.MessageQueue

/-!
# A message queue in every state, under calls that can fail

`network/message_queue.c`: what the operations guarantee in every state that a queue of any
accepted capacity reaches, whatever its `pthread_*` calls answer.

* **The states** `MessageQueue.Reachable c q`: from `message_queue_create(c)` by any calls, each
  with any outcome of its `pthread_*` calls. All of them stand for an abstract queue
  (`Reachable.valid`), so what a call does is read off `Fifo`.
* `messageQueueDequeueWaits` — `message_queue_dequeue` through all its waits, with the queue as the
  other threads leave it at each wake-up.
* `enqueued_is_last_iff` — a message that was enqueued is the last one to come out, except from a
  queue with a single slot.
* `failed_call_frame_iff` — which failing calls leave the messages alone: those that fail before
  they touch the ring.
* `index_arithmetic_iff` — up to which capacity every index stays an `int`. The state in which the
  clearing target does not is reached by moving the head once around the ring
  (`exists_full_at_end`).
-/

namespace CpuMonitor.Network

open CpuMonitor.Lib

variable {α : Type}

/-! ## The states of a queue -/

/-- One call, with the outcomes of its `pthread_*` calls.
Source: `message_queue.c`, `message_queue_enqueue`
Kind: D -/
inductive QueueCall (α : Type)
  | enqueue (calls : EnqueueCalls) (message : α)
  | dequeue (calls : DequeueCalls)
  | dequeueNonblocking (calls : DequeueCalls)

/-- The queue after a call; `none` if the call has no defined outcome. A dequeue that waits is, when
it goes on, at the head of its loop with the mutex: in the state of a new call.
Source: `message_queue.c`, `message_queue_enqueue`, `message_queue_dequeue`, `message_queue_wait`
Kind: D -/
def MessageQueue.stepCall (q : MessageQueue α) : QueueCall α → Option (MessageQueue α)
  | .enqueue calls message => (messageQueueEnqueue calls q message).map fun r => r.2.1
  | .dequeue calls => (messageQueueDequeue calls q).map Prod.snd
  | .dequeueNonblocking calls => (messageQueueDequeueNonblocking calls q).map Prod.snd

/-- The states that a queue of capacity `c` can be in.
Source: `message_queue.c`, `message_queue_create`
Kind: D -/
structure MessageQueue.Reachable (c : ℕ) (q : MessageQueue α) : Prop where
  /-- The capacity is an `int`. -/
  capacity_le : c ≤ intMax
  run : ∃ (calls : CreateCalls) (q₀ : MessageQueue α) (ls : List (QueueCall α)),
    messageQueueCreate calls c = some q₀ ∧
      Run MessageQueue.stepCall (fun _ _ => True) q₀ ls q

/-- What the blocking dequeue does to a queue, for every outcome of its calls: nothing, or the
front goes, which a failed unlock loses.
Source: `message_queue.c`, `message_queue_dequeue`, `message_queue_wait`
Kind: L -/
theorem MessageQueue.Represents.dequeue_cases {q : MessageQueue α} {xs : List α}
    (h : q.Represents xs) (calls : DequeueCalls) :
    ∃ result q', messageQueueDequeue calls q = some (result, q') ∧ q'.capacity = q.capacity ∧
      (q' = q ∨ ∃ x rest, xs = x :: rest ∧ q'.Represents rest) := by
  rw [messageQueueDequeue]
  by_cases hlock : calls.lock = true
  · simp only [hlock, Bool.not_true, Bool.false_eq_true, if_false]
    cases xs with
    | nil =>
        rw [if_pos (h.head_eq_tail_iff.mpr rfl)]
        split_ifs
        · exact ⟨_, q, rfl, rfl, .inl rfl⟩
        · exact ⟨_, q, rfl, rfl, .inl rfl⟩
    | cons x rest =>
        have hne : q.head ≠ q.tail := mt h.head_eq_tail_iff.mp (List.cons_ne_nil x rest)
        obtain ⟨q', htake, hcap, hrep⟩ := h.takeHead
        rw [if_neg hne, htake]
        exact ⟨_, q', rfl, hcap, .inr ⟨x, rest, rfl, hrep⟩⟩
  · rw [if_pos (by simpa using hlock)]
    exact ⟨_, q, rfl, rfl, .inl rfl⟩

/-- Every call keeps the capacity and the representation.
Source: `message_queue.c`, `message_queue_enqueue`, `message_queue_dequeue`, `message_queue_wait`
Kind: P -/
theorem MessageQueue.Valid.stepCall {q q' : MessageQueue α} (h : q.Valid) {call : QueueCall α}
    (hs : q.stepCall call = some q') : q'.capacity = q.capacity ∧ q'.Valid := by
  have hq : q.Represents q.contents := h
  cases call with
  | enqueue calls m =>
      obtain ⟨⟨status, q₁, deleted⟩, henqueue, rfl⟩ := Option.map_eq_some_iff.mp hs
      obtain ⟨hfifo, hvalid⟩ := h.enqueue henqueue
      exact ⟨Fifo.capacity_of_enqueue hfifo, hvalid⟩
  | dequeue calls =>
      obtain ⟨⟨result, q₁⟩, hdequeue, rfl⟩ := Option.map_eq_some_iff.mp hs
      obtain ⟨result', q₂, heq, hcap, hcases⟩ := hq.dequeue_cases calls
      rw [hdequeue, Option.some.injEq, Prod.mk.injEq] at heq
      obtain ⟨-, rfl⟩ := heq
      refine ⟨hcap, ?_⟩
      rcases hcases with rfl | ⟨x, rest, -, hrep⟩
      · exact h
      · exact hrep.valid
  | dequeueNonblocking calls =>
      obtain ⟨⟨r, q₁⟩, hdequeue, rfl⟩ := Option.map_eq_some_iff.mp hs
      obtain ⟨r', q₂, heq, hcap, -⟩ := hq.dequeueNonblocking calls
      rw [hdequeue, Option.some.injEq, Prod.mk.injEq] at heq
      obtain ⟨-, rfl⟩ := heq
      exact ⟨hcap, (h.dequeueNonblocking hdequeue).2⟩

namespace MessageQueue.Reachable

variable {c : ℕ} {q q' : MessageQueue α}

/-- **Every state of a queue stands for an abstract queue** of the capacity it was created with.
Source: none: infrastructure
Kind: P -/
theorem valid (h : q.Reachable c) : q.capacity = c ∧ q.Valid := by
  obtain ⟨calls, q₀, ls, hcreate, hrun⟩ := h.run
  obtain ⟨hcap₀, hrep₀⟩ :=
    represents_of_messageQueueCreate hcreate (by exact_mod_cast h.capacity_le)
  refine Run.invariant (I := fun q => q.capacity = c ∧ q.Valid) ?_ ?_ hrun
  · exact ⟨hcap₀, hrep₀.valid⟩
  · intro s call s' hs _ hstep
    obtain ⟨hcap, hvalid⟩ := hs.2.stepCall hstep
    exact ⟨hcap.trans hs.1, hvalid⟩

/-- A reachable queue has the capacity it was created with.
Source: none: infrastructure
Kind: L -/
theorem capacity_eq (h : q.Reachable c) : q.capacity = c := h.valid.1

/-- It represents its contents.
Source: none: infrastructure
Kind: L -/
theorem represents (h : q.Reachable c) : q.Represents q.contents := h.valid.2

/-- That capacity is positive.
Source: none: infrastructure
Kind: L -/
theorem capacity_pos (h : q.Reachable c) : 0 < c := h.capacity_eq ▸ h.represents.capacity_pos

/-- One more call leads to a reachable queue.
Source: `message_queue.c`, `message_queue_enqueue`, `message_queue_dequeue`, `message_queue_wait`
Kind: L -/
theorem stepCall (h : q.Reachable c) (call : QueueCall α) (hs : q.stepCall call = some q') :
    q'.Reachable c := by
  obtain ⟨calls, q₀, ls, hcreate, hrun⟩ := h.run
  exact ⟨h.capacity_le, calls, q₀, ls ++ [call], hcreate, hrun.snoc trivial hs⟩

/-- A queue that was created is reachable.
Source: `message_queue.c`, `message_queue_create`
Kind: L -/
theorem of_create {calls : CreateCalls} (hmax : c ≤ intMax)
    (hcreate : messageQueueCreate calls c = some q) : q.Reachable c :=
  ⟨hmax, calls, q, [], hcreate, .nil⟩

end MessageQueue.Reachable

/-! ## What was enqueued comes out last -/

/-- `n` calls of `message_queue_dequeue_nonblocking`, their `pthread_*` calls succeeding: what they
return and the queue left.
Source: `message_queue.c`, `message_queue_dequeue_nonblocking`
Kind: D -/
def MessageQueue.drain : ℕ → MessageQueue α → Option (List (Option α) × MessageQueue α)
  | 0, q => some ([], q)
  | n + 1, q => do
      let (message, q') ← messageQueueDequeueNonblocking .allOk q
      let (messages, q'') ← q'.drain n
      some (message :: messages, q'')

/-- The calls return the messages in order, and then `NULL`.
Source: `message_queue.c`, `message_queue_dequeue_nonblocking`
Kind: P -/
theorem MessageQueue.Represents.drain {q : MessageQueue α} {xs : List α} (h : q.Represents xs)
    {n : ℕ} (hn : xs.length ≤ n) :
    ∃ q', q.drain n = some (xs.map some ++ List.replicate (n - xs.length) none, q') ∧
      q'.Represents [] := by
  induction n generalizing q xs with
  | zero =>
      obtain rfl : xs = [] := List.length_eq_zero_iff.mp (Nat.le_zero.mp hn)
      exact ⟨q, rfl, h⟩
  | succ n ih =>
      obtain ⟨r, q₁, hdequeue, -, hcases⟩ := h.dequeueNonblocking .allOk
      rcases hcases with ⟨rfl, rfl, hnil⟩ | ⟨x, rest, rfl, hrep, -, rfl⟩
      · obtain rfl : xs = [] := hnil.resolve_left (by simp)
        obtain ⟨q', hdrain, hq'⟩ := ih h (Nat.zero_le n)
        exact ⟨q', by simp [MessageQueue.drain, hdequeue, hdrain, List.replicate_succ], hq'⟩
      · rw [List.length_cons] at hn
        obtain ⟨q', hdrain, hq'⟩ := ih hrep (by omega)
        exact ⟨q', by simp [MessageQueue.drain, hdequeue, hdrain], hq'⟩

/-- The queue is not empty, and however long one goes on dequeuing, `m` is the last message to come
out.
Source: `message_queue.c`, `message_queue_dequeue_nonblocking`
Kind: D -/
def MessageQueue.KeepsLast (q : MessageQueue α) (m : α) : Prop :=
  q.head ≠ q.tail ∧ ∀ n, q.capacity ≤ n →
    ∃ messages q', q.drain n = some (messages, q') ∧ messages.reduceOption.getLast? = some m

/-- A message at the end of the contents is the last one to be dequeued.
Source: `message_queue.c`, `message_queue_dequeue_nonblocking`
Kind: L -/
theorem MessageQueue.Represents.keepsLast {q : MessageQueue α} {xs : List α} {m : α}
    (h : q.Represents (xs ++ [m])) : q.KeepsLast m := by
  have hlen := h.length_lt
  refine ⟨mt h.head_eq_tail_iff.mp (by simp), fun n hn => ?_⟩
  obtain ⟨q', hdrain, -⟩ := h.drain (show (xs ++ [m]).length ≤ n by omega)
  refine ⟨_, q', hdrain, ?_⟩
  rw [List.reduceOption_append, List.reduceOption_replicate_none, List.append_nil]
  simp [List.reduceOption]

/-- An enqueue drops something from a full queue only.
Source: `message_queue.c`, `message_queue_enqueue`
Kind: L -/
theorem Fifo.length_eq_of_dropped {q q' : Fifo α} {m : α} {calls : EnqueueCalls}
    {status : MessageQueueStatus} {dropped : List α}
    (h : q.enqueue calls m = (status, q', dropped)) (hdropped : dropped ≠ []) :
    q.items.length = q.capacity - 1 := by
  by_contra hroom
  unfold enqueue fifoEnqueue at h
  rw [if_neg hroom] at h
  split_ifs at h
  all_goals
    rw [Prod.mk.injEq, Prod.mk.injEq] at h
    exact hdropped h.2.2.symm

/-- The message of an enqueue is the newest one, if there is room for any.
Source: `message_queue.c`, `message_queue_enqueue`
Kind: L -/
theorem Fifo.exists_append_of_enqueue {q q' : Fifo α} {m : α} {calls : EnqueueCalls}
    {status : MessageQueueStatus} {dropped : List α} (hlock : calls.lock = true)
    (hcap : q.capacity ≠ 1) (h : q.enqueue calls m = (status, q', dropped)) :
    ∃ older, q'.items = older ++ [m] := by
  simp only [enqueue, hlock, Bool.not_true, Bool.false_eq_true, if_false, hcap] at h
  cases h
  unfold fifoEnqueue
  split_ifs
  · exact ⟨_, rfl⟩
  · exact ⟨_, rfl⟩

/-- A queue with a single slot stays empty.
Source: none: infrastructure
Kind: L -/
theorem MessageQueue.Reachable.contents_one {q : MessageQueue α} (h : q.Reachable 1) :
    q.contents = [] ∧ q.head = q.tail := by
  have hlen := h.represents.length_lt
  rw [h.capacity_eq] at hlen
  have hnil : q.contents = [] := List.length_eq_zero_iff.mp (by omega)
  exact ⟨hnil, h.represents.head_eq_tail_iff.mpr hnil⟩

/-- **A message whose enqueue succeeded is in the queue**, in every state and for every capacity but
one: `message_queue_create` accepts a queue with a single slot, in which head and tail always meet,
so that it loses what it accepts.
Source: `message_queue.c`, `message_queue_enqueue`, `message_queue_dequeue_nonblocking`
Kind: P -/
theorem enqueued_is_last_iff {c : ℕ} {q q' : MessageQueue α} (hq : q.Reachable c)
    {calls : EnqueueCalls} {m : α} {deleted : List α}
    (h : messageQueueEnqueue calls q m = some (.success, q', deleted)) :
    q'.KeepsLast m ↔ 2 ≤ c := by
  have hq' : q'.Reachable c :=
    hq.stepCall (.enqueue calls m) (by simp [MessageQueue.stepCall, h])
  obtain ⟨hfifo, -⟩ := hq.valid.2.enqueue h
  have hpos := hq.capacity_pos
  constructor
  · intro hkeeps
    by_contra hc
    obtain rfl : c = 1 := by omega
    exact hkeeps.1 hq'.contents_one.2
  · intro hc
    have hone : q.fifo.capacity ≠ 1 := by
      show q.capacity ≠ 1
      rw [hq.capacity_eq]
      omega
    obtain ⟨older, hitems⟩ :=
      Fifo.exists_append_of_enqueue (Fifo.calls_of_enqueue_success hfifo).1 hone hfifo
    have hrep := hq'.represents
    rw [show q'.contents = older ++ [m] from hitems] at hrep
    exact hrep.keepsLast

/-- The queue that `message_queue_create(c)` returns when its calls succeed.
Source: `message_queue.c`, `message_queue_create`
Kind: D -/
def createdQueue (α : Type) (c : ℕ) : MessageQueue α := ⟨List.replicate c none, c, 0, 0⟩

/-- With successful calls `message_queue_create` returns this queue.
Source: `message_queue.c`, `message_queue_create`
Kind: L -/
theorem messageQueueCreate_allOk {c : ℕ} (hc : 0 < c) :
    messageQueueCreate .allOk c = some (createdQueue α c) := by
  simp [messageQueueCreate, CreateCalls.allOk, createdQueue, hc.ne']

/-- It is a reachable queue.
Source: `message_queue.c`, `message_queue_dequeue`
Kind: L -/
theorem createdQueue_reachable {c : ℕ} (hc : 0 < c) (hmax : c ≤ intMax) :
    (createdQueue α c).Reachable c :=
  .of_create hmax (messageQueueCreate_allOk hc)

/-- It is empty.
Source: `message_queue.c`, `message_queue_create`
Kind: L -/
theorem contents_createdQueue (c : ℕ) : (createdQueue α c).contents = [] := by
  simp [MessageQueue.contents, createdQueue, windowList]

/-- Two slots are enough.
Source: `message_queue.c`, `message_queue_enqueue`
Kind: C -/
theorem enqueued_is_last_two :
    ∃ q' : MessageQueue ℕ,
      messageQueueEnqueue .allOk (createdQueue ℕ 2) 7 = some (.success, q', []) ∧
        q'.KeepsLast 7 := by
  refine ⟨⟨[some 7, none], 2, 0, 1⟩, by decide, ?_⟩
  exact (enqueued_is_last_iff (createdQueue_reachable (by decide) (by decide))
    (show messageQueueEnqueue .allOk (createdQueue ℕ 2) 7 =
      some (.success, ⟨[some 7, none], 2, 0, 1⟩, []) by decide)).mpr le_rfl

/-- One is not: the enqueue succeeds, and the next dequeue returns `NULL`.
Source: `message_queue.c`, `message_queue_create`, `message_queue_enqueue`
Kind: C -/
theorem single_slot_loses_message :
    ∃ q q' : MessageQueue ℕ, messageQueueCreate .allOk 1 = some q ∧
      messageQueueEnqueue .allOk q 7 = some (.success, q', []) ∧
      q'.head = q'.tail ∧ q'.drain 1 = some ([none], q') :=
  ⟨createdQueue ℕ 1, ⟨[some 7], 1, 0, 0⟩, by decide, by decide, by decide, by decide⟩

/-! ## The blocking dequeue through its waits -/

/-- How one `pthread_cond_wait` ends.
Source: `message_queue.c`, `message_queue_dequeue`
Kind: D -/
inductive WaitResult (α : Type)
  /-- It returns an error. -/
  | failed
  /-- It returns with the mutex, and the queue is as the other threads have left it. -/
  | woken (q : MessageQueue α)

/-- The end of a dequeue that finds a message.
Source: `message_queue.c`, `message_queue_dequeue`
Kind: D -/
def dequeueTake (unlock : Bool) (q : MessageQueue α) :
    Option (DequeueResult α × MessageQueue α) := do
  let (message, q') ← takeHead q
  some (.returned (if !unlock then none else some message), q')

/-- The loop of `message_queue_dequeue`; it is `blocked` in a wait that does not end.
Source: `message_queue.c`, `message_queue_dequeue` (the `while` and what follows)
Kind: D -/
def dequeueLoop (unlock : Bool) :
    List (WaitResult α) → MessageQueue α → Option (DequeueResult α × MessageQueue α)
  | [], q => if q.head = q.tail then some (.blocked, q) else dequeueTake unlock q
  | .failed :: _, q => if q.head = q.tail then some (.returned none, q) else dequeueTake unlock q
  | .woken q' :: waits, q =>
      if q.head = q.tail then dequeueLoop unlock waits q' else dequeueTake unlock q

/-- Source: `message_queue.c`, `message_queue_dequeue`. Kind: D
Fidelity: exact -/
def messageQueueDequeueWaits (lock : Bool) (waits : List (WaitResult α)) (unlock : Bool)
    (q : MessageQueue α) : Option (DequeueResult α × MessageQueue α) :=
  if !lock then some (.returned none, q) else dequeueLoop unlock waits q

/-- Up to its first wait it is the dequeue of the calls.
Source: `message_queue.c`, `message_queue_dequeue`, `message_queue_wait`
Kind: L -/
theorem messageQueueDequeue_eq_waits (calls : DequeueCalls) (q : MessageQueue α) :
    messageQueueDequeue calls q =
      messageQueueDequeueWaits calls.lock (if calls.wait then [] else [.failed]) calls.unlock
        q := by
  unfold messageQueueDequeue messageQueueDequeueWaits
  cases calls.wait <;> simp only [dequeueLoop, dequeueTake, Bool.false_eq_true, if_true, if_false,
    Bool.not_true, Bool.not_false]

/-- The queue as the loop last found it.
Source: none: infrastructure
Kind: D -/
def loopSeen : List (WaitResult α) → MessageQueue α → MessageQueue α
  | [], q => q
  | .failed :: _, q => q
  | .woken q' :: waits, q => if q.head = q.tail then loopSeen waits q' else q

/-- The queue as a dequeue last found it; without the mutex it looks at none.
Source: none: infrastructure
Kind: D -/
def lastSeen (lock : Bool) (waits : List (WaitResult α)) (q : MessageQueue α) : MessageQueue α :=
  if !lock then q else loopSeen waits q

section waits

variable {c : ℕ} {q q' : MessageQueue α} {unlock : Bool}

/-- Of a queue with a message the front goes; `NULL` is returned for it if the unlock fails.
Source: `message_queue.c`, `message_queue_dequeue`
Kind: L -/
theorem MessageQueue.Reachable.dequeueTake (h : q.Reachable c) (hne : q.head ≠ q.tail)
    (hs : dequeueTake unlock q = some (.returned none, q')) :
    ∃ x, q.contents = x :: q'.contents := by
  have hrep := h.represents
  cases hcontents : q.contents with
  | nil =>
      rw [hcontents] at hrep
      exact absurd (hrep.head_eq_tail_iff.mpr rfl) hne
  | cons x rest =>
      rw [hcontents] at hrep
      obtain ⟨q₁, htake, -, hrep'⟩ := hrep.takeHead
      simp only [Network.dequeueTake, htake, Option.bind_eq_bind, Option.bind_some,
        Option.some.injEq, Prod.mk.injEq] at hs
      obtain ⟨-, rfl⟩ := hs
      exact ⟨x, by rw [hrep'.contents_eq]⟩

/-- A loop that returns `NULL` leaves an empty queue as it found it, or has lost the front.
Source: `message_queue.c`, `message_queue_dequeue`
Kind: P -/
theorem MessageQueue.Reachable.dequeueLoop (h : q.Reachable c) {waits : List (WaitResult α)}
    (hwaits : ∀ q₁, .woken q₁ ∈ waits → q₁.Reachable c)
    (hs : dequeueLoop unlock waits q = some (.returned none, q')) :
    (q' = loopSeen waits q ∧ (loopSeen waits q).contents = []) ∨
      ∃ x, (loopSeen waits q).contents = x :: q'.contents := by
  induction waits generalizing q with
  | nil =>
      rw [Network.dequeueLoop] at hs
      split_ifs at hs with hempty
      · simp at hs
      · exact .inr (h.dequeueTake hempty hs)
  | cons wait waits ih =>
      cases wait with
      | failed =>
          rw [Network.dequeueLoop] at hs
          split_ifs at hs with hempty
          · cases hs
            exact .inl ⟨rfl, h.represents.head_eq_tail_iff.mp hempty⟩
          · exact .inr (h.dequeueTake hempty hs)
      | woken q₁ =>
          rw [Network.dequeueLoop] at hs
          rw [loopSeen]
          split_ifs at hs ⊢ with hempty
          · exact ih (hwaits q₁ List.mem_cons_self)
              (fun q₂ hq₂ => hwaits q₂ (List.mem_cons_of_mem _ hq₂)) hs
          · exact .inr (h.dequeueTake hempty hs)

end waits

/-! ## What a failing call leaves -/

section frame

variable {c : ℕ} {q q' : MessageQueue α}

/-- An enqueue leaves the contents as they are exactly if the lock fails or there is one slot only.
Source: `message_queue.c`, `message_queue_enqueue`
Kind: L -/
theorem MessageQueue.Reachable.enqueue_frame_iff (hq : q.Reachable c) {calls : EnqueueCalls} {m : α}
    {status : MessageQueueStatus} {deleted : List α}
    (h : messageQueueEnqueue calls q m = some (status, q', deleted)) :
    q'.contents = q.contents ∧ deleted = [] ↔ calls.lock = false ∨ c = 1 := by
  obtain ⟨hfifo, -⟩ := hq.valid.2.enqueue h
  constructor
  · rintro ⟨hcontents, rfl⟩
    by_contra hno
    rw [not_or, Bool.not_eq_false] at hno
    have hone : q.fifo.capacity ≠ 1 := by
      show q.capacity ≠ 1
      rw [hq.capacity_eq]
      exact hno.2
    have happend := Fifo.append_of_enqueue hno.1 hone hfifo
    rw [List.nil_append, show q'.fifo.items = q.fifo.items from hcontents] at happend
    exact absurd happend.symm (by simp)
  · intro hno
    have hkept : ∃ status', q.fifo.enqueue calls m = (status', q.fifo, []) := by
      by_cases hlock : calls.lock = true
      · have hone : c = 1 := hno.resolve_left (by simp [hlock])
        exact ⟨_, Fifo.enqueue_of_one hlock (hq.capacity_eq.trans hone)⟩
      · exact ⟨_, Fifo.enqueue_of_not_lock (by simpa using hlock)⟩
    obtain ⟨status', hkept⟩ := hkept
    rw [hkept] at hfifo
    simp only [Prod.mk.injEq] at hfifo
    exact ⟨congrArg Fifo.items hfifo.2.1.symm, hfifo.2.2.symm⟩

/-- A dequeue that returns `NULL` leaves the contents as they are exactly if the lock fails or the
queue is empty.
Source: `message_queue.c`, `message_queue_dequeue_nonblocking`
Kind: L -/
theorem MessageQueue.Reachable.dequeueNonblocking_frame_iff (hq : q.Reachable c)
    {calls : DequeueCalls} (h : messageQueueDequeueNonblocking calls q = some (none, q')) :
    q'.contents = q.contents ↔ calls.lock = false ∨ q.contents = [] := by
  obtain ⟨r, q₁, heq, -, hcases⟩ := hq.represents.dequeueNonblocking calls
  rw [h, Option.some.injEq, Prod.mk.injEq] at heq
  obtain ⟨rfl, rfl⟩ := heq
  rcases hcases with ⟨-, rfl, hnone⟩ | ⟨x, rest, hcons, hrep, hlock, -⟩
  · exact ⟨fun _ => hnone, fun _ => rfl⟩
  · rw [hrep.contents_eq, hcons, hlock]
    simp

/-- The same for the waiting dequeue, measured from the queue that it saw last.
Source: `message_queue.c`, `message_queue_dequeue`
Kind: L -/
theorem MessageQueue.Reachable.dequeueWaits_frame_iff (hq : q.Reachable c) {lock unlock : Bool}
    {waits : List (WaitResult α)} (hwaits : ∀ q₁, .woken q₁ ∈ waits → q₁.Reachable c)
    (h : messageQueueDequeueWaits lock waits unlock q = some (.returned none, q')) :
    q'.contents = (lastSeen lock waits q).contents ↔
      lock = false ∨ (lastSeen lock waits q).contents = [] := by
  unfold messageQueueDequeueWaits at h
  unfold lastSeen
  cases lock with
  | false =>
      cases h
      simp
  | true =>
      rcases hq.dequeueLoop hwaits h with ⟨hsame, hnil⟩ | ⟨x, hcons⟩
      · simp [hsame, hnil]
      · simp [hcons]

/-- **Which failing calls leave the messages alone.** In every state and for every outcome of the
`pthread_*` calls: an enqueue that does not return success has neither inserted nor dropped anything
exactly if it did not get the mutex (or there is a single slot, which holds nothing anyway); a
dequeue that returns `NULL` has removed nothing exactly if it did not get the mutex or last found
the queue empty. A signal or an unlock that fails comes after the ring has been changed.
Source: `message_queue.c`, `message_queue_enqueue`, `message_queue_dequeue`,
`message_queue_dequeue_nonblocking`
Kind: P -/
theorem failed_call_frame_iff (hq : q.Reachable c) :
    (∀ calls m status q' deleted,
      messageQueueEnqueue calls q m = some (status, q', deleted) → status ≠ .success →
      (q'.contents = q.contents ∧ deleted = [] ↔ calls.lock = false ∨ c = 1)) ∧
    (∀ calls q', messageQueueDequeueNonblocking calls q = some (none, q') →
      (q'.contents = q.contents ↔ calls.lock = false ∨ q.contents = [])) ∧
    (∀ lock waits unlock q', (∀ q₁, .woken q₁ ∈ waits → q₁.Reachable c) →
      messageQueueDequeueWaits lock waits unlock q = some (.returned none, q') →
      (q'.contents = (lastSeen lock waits q).contents ↔
        lock = false ∨ (lastSeen lock waits q).contents = [])) := by
  refine ⟨?_, ?_, ?_⟩
  · intro calls m status q' deleted h _
    exact hq.enqueue_frame_iff h
  · intro calls q' h
    exact hq.dequeueNonblocking_frame_iff h
  · intro lock waits unlock q' hwaits h
    exact hq.dequeueWaits_frame_iff hwaits h

end frame

/-- An enqueue that does not get the mutex.
Source: `message_queue.c`, `message_queue_enqueue`
Kind: C -/
theorem failed_call_frame_at_lock :
    ∃ q' : MessageQueue ℕ, messageQueueEnqueue ⟨false, true, true⟩ (createdQueue ℕ 4) 7 =
      some (.errorMutex, q', []) ∧ q'.contents = (createdQueue ℕ 4).contents := by
  have hframe := failed_call_frame_iff
    (createdQueue_reachable (α := ℕ) (show 0 < 4 by decide) (by decide))
  refine ⟨createdQueue ℕ 4, by decide, ?_⟩
  exact ((hframe.1 ⟨false, true, true⟩ 7 .errorMutex (createdQueue ℕ 4) [] (by decide)
    (by decide)).mpr (.inl rfl)).1

/-- A failed signal has inserted the message, at a full queue after having dropped two; a failed
unlock of a dequeue has removed one.
Source: `message_queue.c`, `message_queue_enqueue`, `message_queue_dequeue_nonblocking`,
`message_queue_dequeue`
Kind: C -/
theorem failed_call_changes_queue :
    ∃ q₁ q₂ q₃ q₄ : MessageQueue ℕ,
      messageQueueEnqueue ⟨true, false, true⟩ (createdQueue ℕ 4) 7 =
        some (.errorCondvar, q₁, []) ∧ q₁.contents = [7] ∧
      (createdQueue ℕ 4).runOps [.enqueue 1, .enqueue 2, .enqueue 3] =
        some ([.enqueued .success [], .enqueued .success [], .enqueued .success []], q₂) ∧
      messageQueueEnqueue ⟨true, true, false⟩ q₂ 4 = some (.errorMutex, q₃, [1, 2]) ∧
      q₃.contents = [3, 4] ∧
      messageQueueDequeueNonblocking ⟨true, true, false⟩ q₂ = some (none, q₄) ∧
      q₂.contents = [1, 2, 3] ∧ q₄.contents = [2, 3] ∧
      messageQueueDequeueWaits true [] false q₂ = some (.returned none, q₄) :=
  ⟨⟨[some 7, none, none, none], 4, 0, 1⟩, ⟨[some 1, some 2, some 3, none], 4, 0, 3⟩,
    ⟨[some 1, some 2, some 3, some 4], 4, 2, 0⟩, ⟨[some 1, some 2, some 3, none], 4, 1, 3⟩,
    by decide, by decide, by decide, by decide, by decide, by decide, by decide, by decide,
    by decide⟩

/-! ## Index arithmetic -/

/-- Every call on the queue has a defined outcome whatever its `pthread_*` calls answer: no index
sum passes `INT_MAX` and every access is in the ring. A clearing loop ends after `capacity / 2`
rounds, each of which deletes one message.
Source: `message_queue.c`, `message_queue_enqueue`, `message_queue_dequeue`, `message_queue_wait`
Kind: D -/
structure MessageQueue.IndexSafe (q : MessageQueue α) : Prop where
  enqueue : ∀ calls m, ∃ status q' deleted,
    messageQueueEnqueue calls q m = some (status, q', deleted) ∧
      (calls.lock = true → (q.tail + 1) % q.capacity = q.head →
        deleted.length = q.capacity / 2)
  dequeue : ∀ calls, ∃ r, messageQueueDequeue calls q = some r
  dequeueNonblocking : ∀ calls, ∃ r, messageQueueDequeueNonblocking calls q = some r
  delete : ∃ deleted, messageQueueDelete q = some deleted

section indices

variable {c : ℕ} {q : MessageQueue α}

/-- A full queue clears exactly `capacity / 2` messages.
Source: `message_queue.c`, `message_queue_enqueue`
Kind: L -/
theorem MessageQueue.Represents.enqueue_full {xs : List α} (h : q.Represents xs)
    (hfit : q.head + q.capacity / 2 ≤ intMax) (hfull : (q.tail + 1) % q.capacity = q.head)
    {calls : EnqueueCalls} (hlock : calls.lock = true) (m : α) :
    ∃ status q' deleted, messageQueueEnqueue calls q m = some (status, q', deleted) ∧
      deleted.length = q.capacity / 2 := by
  have hpos := h.capacity_pos
  have hlen := h.nextTail_eq_head_iff.mp hfull
  by_cases hone : q.capacity = 1
  · obtain ⟨q', henqueue, -⟩ := h.enqueue_one hone hlock m
    exact ⟨_, q', [], henqueue, by simp [hone]⟩
  · obtain ⟨q', henqueue, -⟩ := h.enqueue (by omega) hlock m (fun _ => hfit)
    refine ⟨_, q', _, henqueue, ?_⟩
    rw [fifoEnqueue, if_pos hlen, List.length_take]
    omega

/-- Below the bound every state is safe.
Source: none: infrastructure
Kind: P -/
theorem MessageQueue.Reachable.indexSafe (hq : q.Reachable c) (hfit : c - 1 + c / 2 ≤ intMax) :
    q.IndexSafe := by
  have hrep := hq.represents
  have hcap := hq.capacity_eq
  have hhead := hrep.head_lt
  have htarget : q.head + q.capacity / 2 ≤ intMax := by
    rw [hcap] at hhead ⊢
    omega
  refine ⟨?_, ?_, ?_, ⟨_, hrep.delete⟩⟩
  · intro calls m
    by_cases hfull : calls.lock = true ∧ (q.tail + 1) % q.capacity = q.head
    · obtain ⟨status, q', deleted, henqueue, hdeleted⟩ :=
        hrep.enqueue_full htarget hfull.2 hfull.1 m
      exact ⟨status, q', deleted, henqueue, fun _ _ => hdeleted⟩
    · obtain ⟨⟨status, q', deleted⟩, henqueue⟩ :=
        hq.valid.2.exists_enqueue (by rwa [hcap]) calls m
      exact ⟨status, q', deleted, henqueue, fun hlock hnext => absurd ⟨hlock, hnext⟩ hfull⟩
  · intro calls
    obtain ⟨result, q', hdequeue, -⟩ := hrep.dequeue_cases calls
    exact ⟨_, hdequeue⟩
  · intro calls
    obtain ⟨r, q', hdequeue, -⟩ := hrep.dequeueNonblocking calls
    exact ⟨_, hdequeue⟩

/-- Messages added to a queue with room for them leave the head where it is.
Source: none: infrastructure
Kind: L -/
theorem MessageQueue.Reachable.exists_filled (hq : q.Reachable c) {xs : List α}
    (hrep : q.Represents xs) (m : α) {k : ℕ} (hroom : xs.length + k < c) :
    ∃ q' : MessageQueue α, q'.Reachable c ∧ q'.head = q.head ∧
      q'.Represents (xs ++ List.replicate k m) := by
  induction k with
  | zero => exact ⟨q, hq, rfl, by simpa using hrep⟩
  | succ k ih =>
      obtain ⟨q₁, hq₁, hhead, hrep₁⟩ := ih (by omega)
      have hlen : (xs ++ List.replicate k m).length + 1 < q₁.capacity := by
        rw [hq₁.capacity_eq, List.length_append, List.length_replicate]
        omega
      have henqueue := hrep₁.enqueue_of_room hlen EnqueueCalls.allOk_lock m
      refine ⟨q₁.pushed 0 m, ?_, ?_, ?_⟩
      · exact hq₁.stepCall (.enqueue .allOk m) (by simp [MessageQueue.stepCall, henqueue])
      · show (q₁.head + 0) % q₁.capacity = q.head
        rw [Nat.add_zero, Nat.mod_eq_of_lt hrep₁.head_lt, hhead]
      · have hpushed := hrep₁.pushed (Nat.zero_le _) (by omega) m
        rwa [List.drop_zero, List.append_assoc, ← List.replicate_succ'] at hpushed

/-- A message that goes in and comes out moves the head by one slot.
Source: none: infrastructure
Kind: L -/
theorem MessageQueue.Reachable.exists_moved (hq : q.Reachable c) (hrep : q.Represents [])
    (hroom : q.head + 1 < c) (m : α) :
    ∃ q' : MessageQueue α, q'.Reachable c ∧ q'.head = q.head + 1 ∧ q'.Represents [] := by
  obtain ⟨q₁, hq₁, hhead, hrep₁⟩ :=
    hq.exists_filled hrep m (k := 1) (by rw [List.length_nil]; omega)
  have hne : q₁.head ≠ q₁.tail := mt hrep₁.head_eq_tail_iff.mp (by simp)
  obtain ⟨q₂, htake, -, hrep₂⟩ := hrep₁.takeHead
  have hq₂ : q₂ = { q₁ with head := (q₁.head + 1) % q₁.capacity } := by
    rw [hrep₁.takeHead_eq] at htake
    simpa using htake.symm
  refine ⟨q₂, ?_, ?_, hrep₂⟩
  · refine hq₁.stepCall (.dequeueNonblocking .allOk) ?_
    simp [MessageQueue.stepCall, messageQueueDequeueNonblocking, hne, htake]
  · rw [hq₂, hq₁.capacity_eq, hhead]
    exact Nat.mod_eq_of_lt hroom

/-- An empty queue can have its head anywhere.
Source: none: infrastructure
Kind: L -/
theorem exists_empty_at (hc : 0 < c) (hmax : c ≤ intMax) (m : α) {k : ℕ} (hk : k < c) :
    ∃ q : MessageQueue α, q.Reachable c ∧ q.head = k ∧ q.Represents [] := by
  induction k with
  | zero =>
      obtain ⟨-, hrep⟩ := represents_of_messageQueueCreate (messageQueueCreate_allOk (α := α) hc)
        (by exact_mod_cast hmax)
      exact ⟨createdQueue α c, createdQueue_reachable hc hmax, rfl, hrep⟩
  | succ k ih =>
      obtain ⟨q, hq, hhead, hrep⟩ := ih (by omega)
      obtain ⟨q', hq', hhead', hrep'⟩ := hq.exists_moved hrep (by omega) m
      exact ⟨q', hq', by omega, hrep'⟩

/-- **The worst position**: a full queue whose head is in the last slot.
Source: none: infrastructure
Kind: P -/
theorem exists_full_at_end (hc : 0 < c) (hmax : c ≤ intMax) (m : α) :
    ∃ q : MessageQueue α, q.Reachable c ∧ q.head = c - 1 ∧
      q.Represents (List.replicate (c - 1) m) := by
  obtain ⟨q, hq, hhead, hrep⟩ := exists_empty_at hc hmax m (show c - 1 < c by omega)
  obtain ⟨q', hq', hhead', hrep'⟩ := hq.exists_filled hrep m (k := c - 1) (by simpa using hc)
  exact ⟨q', hq', by omega, by simpa using hrep'⟩

/-- In that position the clearing target of a large queue is no `int`.
Source: `message_queue.c`, `message_queue_enqueue`
Kind: P -/
theorem exists_overflow (hc : 0 < c) (hmax : c ≤ intMax) (hover : intMax < c - 1 + c / 2) (m : α) :
    ∃ q : MessageQueue α, q.Reachable c ∧ (q.tail + 1) % q.capacity = q.head ∧
      addInt ((q.tail + 1) % q.capacity) (q.capacity / 2) = none ∧
      ∀ calls : EnqueueCalls, calls.lock = true → messageQueueEnqueue calls q m = none := by
  obtain ⟨q, hq, hhead, hrep⟩ := exists_full_at_end hc hmax m
  have hcap := hq.capacity_eq
  have hfull : (List.replicate (c - 1) m).length = q.capacity - 1 := by
    rw [List.length_replicate, hcap]
  have hnext := hrep.nextTail_eq_head_iff.mpr hfull
  have htarget : intMax < q.head + q.capacity / 2 := by
    rw [hhead, hcap]
    exact hover
  refine ⟨q, hq, hnext, ?_, fun calls hlock => hrep.enqueue_of_overflow hfull htarget hlock m⟩
  rw [hnext]
  exact if_neg (Nat.not_le.mpr htarget)

/-- **Up to which capacity the indices stay `int`s.** Every call in every state of a queue of
capacity `c` is free of signed overflow, with clearing loops of exactly `c / 2` rounds, exactly if
the clearing target of the worst position fits; `message_queue_create` accepts larger capacities.
Source: `message_queue.c`, `message_queue_enqueue` (`next_tail + queue->capacity / 2`)
Kind: P
Hyps: `c` is an accepted `int` -/
theorem index_arithmetic_iff [Inhabited α] (hc : 1 ≤ c) (hmax : c ≤ intMax) :
    (∀ q : MessageQueue α, q.Reachable c → q.IndexSafe) ↔ c - 1 + c / 2 ≤ intMax := by
  constructor
  · intro hsafe
    by_contra hover
    obtain ⟨q, hq, -, -, hnone⟩ :=
      exists_overflow (α := α) hc hmax (Nat.not_le.mp hover) default
    obtain ⟨status, q', deleted, henqueue, -⟩ := (hsafe q hq).enqueue .allOk default
    rw [hnone .allOk rfl] at henqueue
    cases henqueue
  · intro hfit q hq
    exact hq.indexSafe hfit

end indices

/-- A queue as the worker creates it, with 128 slots.
Source: `message_queue.c`, `message_queue_enqueue`
Kind: C -/
theorem index_arithmetic_worker : (createdQueue ℕ 128).IndexSafe := by
  have hsafe := (index_arithmetic_iff (α := ℕ) (c := 128) (by decide) (by decide)).mpr (by decide)
  exact hsafe _ (createdQueue_reachable (by decide) (by decide))

/-- The largest accepted capacity: a full queue with its head in the last slot is reached, and the
next enqueue computes a sum above `INT_MAX`.
Source: `message_queue.c`, `message_queue_enqueue`
Kind: C -/
theorem clearing_target_overflows :
    ∃ q : MessageQueue ℕ, q.Reachable intMax ∧ (q.tail + 1) % q.capacity = q.head ∧
      addInt ((q.tail + 1) % q.capacity) (q.capacity / 2) = none ∧
      messageQueueEnqueue .allOk q 7 = none := by
  obtain ⟨q, hq, hnext, htarget, hnone⟩ :=
    exists_overflow (α := ℕ) (c := intMax) (by decide) le_rfl (by decide) 7
  exact ⟨q, hq, hnext, htarget, hnone .allOk rfl⟩

end CpuMonitor.Network
