import CpuMonitor.Lib.Ring

/-!
# The ring-buffer message queue refines a bounded FIFO

`network/message_queue.c` keeps messages in a ring of `capacity` slots, one of which stays free,
and clears half of the ring when a message arrives at a full queue.

* **The code's model**: `messageQueueCreate`, `messageQueueEnqueue`, `messageQueueDequeue`,
  `messageQueueDequeueNonblocking`, `messageQueueDelete`. Indices are the source's `int`s:
  every signed addition goes through `addInt`, which is `none` (undefined) past `INT_MAX`. Each
  `pthread_*` call answers through a flag of `EnqueueCalls` / `DequeueCalls`. Messages are an
  arbitrary type `α` (the source stores pointers), and every `message_delete` is reported.
* **The abstract queue**: a list `xs`; `fifoEnqueue`, `fifoStep`, `fifoRun`.
* **The connection**: `Represents q xs`, kept by every operation (`Represents.enqueue`,
  `Represents.takeHead`, `Represents.delete`), hence by every sequence of operations
  (`Represents.runOps`).
-/

namespace CpuMonitor.Network

open CpuMonitor.Lib

variable {α : Type}

/-! ## Signed machine integers -/

/-- `INT_MAX` of a 32-bit `int`.
Source: none: infrastructure
Kind: D -/
def intMax : ℕ := 2 ^ 31 - 1

/-- Addition of non-negative `int`s: undefined (`none`) past `INT_MAX`.
Source: `message_queue.c`, `message_queue_enqueue`
Kind: D -/
def addInt (a b : ℕ) : Option ℕ := if a + b ≤ intMax then some (a + b) else none

/-- A sum that is an `int` is defined.
Source: `message_queue.c`, `message_queue_enqueue`
Kind: L -/
theorem addInt_of_le {a b : ℕ} (h : a + b ≤ intMax) : addInt a b = some (a + b) := if_pos h

/-! ## The data model -/

/-- Source: `message_queue.h`, `message_queue_status_t`. Kind: D -/
inductive MessageQueueStatus
  | success
  | errorNullPointer
  | errorMemoryAlloc
  | errorMutex
  | errorCondvar
  | errorQueueFull
  deriving DecidableEq, Repr

/-- The queue without its mutex and condition variable (their calls are inputs of the
operations). A slot is `none` until the first store into it: `malloc` leaves it undefined.
Source: `message_queue.h`, `message_queue_t`
Kind: D -/
structure MessageQueue (α : Type) where
  /-- `queue->buffer`, of `capacity` slots. -/
  buffer : List (Option α)
  /-- `queue->capacity`. -/
  capacity : ℕ
  /-- `queue->head`. -/
  head : ℕ
  /-- `queue->tail`. -/
  tail : ℕ
  deriving DecidableEq

/-- Which calls of `message_queue_create` succeed.
Source: `message_queue.c`, `message_queue_create`
Kind: D -/
structure CreateCalls where
  mallocQueue : Bool
  mallocBuffer : Bool
  mutexInit : Bool
  condInit : Bool

/-- Which `pthread_*` calls of one `message_queue_enqueue` return zero.
Source: `message_queue.c`, `message_queue_enqueue`
Kind: D -/
structure EnqueueCalls where
  lock : Bool
  signal : Bool
  unlock : Bool
  deriving DecidableEq

/-- Which `pthread_*` calls of one dequeue return zero (`wait` only in the blocking one).
Source: `message_queue.c`, `message_queue_dequeue`, `message_queue_wait`
Kind: D -/
structure DequeueCalls where
  lock : Bool
  wait : Bool
  unlock : Bool
  deriving DecidableEq

/-- Every call succeeds.
Source: none: infrastructure
Kind: D -/
def CreateCalls.allOk : CreateCalls := ⟨true, true, true, true⟩

/-- Every call succeeds.
Source: none: infrastructure
Kind: D -/
def EnqueueCalls.allOk : EnqueueCalls := ⟨true, true, true⟩

/-- Every call succeeds.
Source: none: infrastructure
Kind: D -/
def DequeueCalls.allOk : DequeueCalls := ⟨true, true, true⟩

/-- The lock is among the calls that succeed.
Source: none: infrastructure
Kind: L -/
@[simp] theorem EnqueueCalls.allOk_lock : EnqueueCalls.allOk.lock = true := rfl

/-- The lock is among the calls that succeed.
Source: none: infrastructure
Kind: L -/
@[simp] theorem DequeueCalls.allOk_lock : DequeueCalls.allOk.lock = true := rfl

/-- So is the wait.
Source: none: infrastructure
Kind: L -/
@[simp] theorem DequeueCalls.allOk_wait : DequeueCalls.allOk.wait = true := rfl

/-- So is the unlock.
Source: none: infrastructure
Kind: L -/
@[simp] theorem DequeueCalls.allOk_unlock : DequeueCalls.allOk.unlock = true := rfl

/-! ## The operations -/

/-- Source: `message_queue.c`, `message_queue_create`. Kind: D
Fidelity: exact (every failing branch releases what it took and returns `NULL`) -/
def messageQueueCreate (calls : CreateCalls) (capacity : ℤ) : Option (MessageQueue α) :=
  if capacity ≤ 0 then none
  else if !calls.mallocQueue then none
  else if !calls.mallocBuffer then none
  else if !calls.mutexInit then none
  else if !calls.condInit then none
  else some ⟨List.replicate capacity.toNat none, capacity.toNat, 0, 0⟩

/-- The clearing loop of `message_queue_enqueue`: delete from `head` up to `target`; the new head
and the messages passed to `message_delete`, in order. After `capacity` rounds the head has seen
every slot, so a loop that has not met its target by then never ends: `none` when the fuel runs
out.
Source: `message_queue.c`, `message_queue_enqueue` (the `while`)
Kind: D -/
def clearLoop (q : MessageQueue α) (target : ℕ) : ℕ → ℕ → Option (ℕ × List α)
  | 0, _ => none
  | fuel + 1, head =>
      if head = target then some (head, [])
      else do
        let tmp ← readCell q.buffer head
        let next ← addInt head 1
        let (head', deleted) ← clearLoop q target fuel (next % q.capacity)
        some (head', tmp :: deleted)

/-- The status `message_queue_enqueue` returns after the insertion. A failed
`pthread_cond_signal` returns before the result of the unlock is looked at.
Source: `message_queue.c`, `message_queue_enqueue` (the two last tests)
Kind: D -/
def enqueueStatus (calls : EnqueueCalls) : MessageQueueStatus :=
  if !calls.signal then .errorCondvar
  else if !calls.unlock then .errorMutex
  else .success

/-- An enqueue whose calls succeed returns success.
Source: `message_queue.c`, `message_queue_enqueue`
Kind: L -/
@[simp] theorem enqueueStatus_allOk : enqueueStatus .allOk = .success := rfl

/-- The status, the queue and the messages deleted by an overflow, in order.
Source: `message_queue.c`, `message_queue_enqueue`
Kind: D
Fidelity: exact (both pointers non-null) -/
def messageQueueEnqueue (calls : EnqueueCalls) (q : MessageQueue α) (message : α) :
    Option (MessageQueueStatus × MessageQueue α × List α) :=
  if !calls.lock then some (.errorMutex, q, [])
  else do
    let sum ← addInt q.tail 1
    let nextTail := sum % q.capacity
    let (head, deleted) ←
      if nextTail = q.head then do
        let target ← addInt nextTail (q.capacity / 2)
        clearLoop q (target % q.capacity) q.capacity q.head
      else some (q.head, [])
    let buffer ← writeCell q.buffer q.tail message
    some (enqueueStatus calls, { q with buffer := buffer, head := head, tail := nextTail },
      deleted)

/-- The front of a non-empty queue and the queue without it.
Source: `message_queue.c`, the common part of the two dequeues
Kind: D -/
def takeHead (q : MessageQueue α) : Option (α × MessageQueue α) := do
  let message ← readCell q.buffer q.head
  let next ← addInt q.head 1
  some (message, { q with head := next % q.capacity })

/-- What one call of a dequeue does: return a pointer (`none` is `NULL`), or block in
`pthread_cond_wait`.
Source: `message_queue.c`, `message_queue_dequeue`, `message_queue_wait`
Kind: D -/
inductive DequeueResult (α : Type)
  | returned (message : Option α)
  | blocked
  deriving DecidableEq

/-- Source: `message_queue.c`, `message_queue_dequeue` (and `message_queue_wait`, which only
calls it). Kind: D
Fidelity: exact up to the first wait: a call that waits is `blocked`, with the queue untouched -/
def messageQueueDequeue (calls : DequeueCalls) (q : MessageQueue α) :
    Option (DequeueResult α × MessageQueue α) :=
  if !calls.lock then some (.returned none, q)
  else if q.head = q.tail then
    if !calls.wait then some (.returned none, q) else some (.blocked, q)
  else do
    let (message, q') ← takeHead q
    some (.returned (if !calls.unlock then none else some message), q')

/-- Source: `message_queue.c`, `message_queue_dequeue_nonblocking`. Kind: D
Fidelity: exact -/
def messageQueueDequeueNonblocking (calls : DequeueCalls) (q : MessageQueue α) :
    Option (Option α × MessageQueue α) :=
  if !calls.lock then some (none, q)
  else if q.head = q.tail then some (none, q)
  else do
    let (message, q') ← takeHead q
    some (if !calls.unlock then none else some message, q')

/-- The deletion loop of `message_queue_delete`, from `i` up to the tail (fuel as in
`clearLoop`).
Source: `message_queue.c`, `message_queue_delete` (the `while`)
Kind: D -/
def deleteLoop (q : MessageQueue α) : ℕ → ℕ → Option (List α)
  | 0, _ => none
  | fuel + 1, i =>
      if i = q.tail then some []
      else do
        let tmp ← readCell q.buffer i
        let next ← addInt i 1
        let deleted ← deleteLoop q fuel (next % q.capacity)
        some (tmp :: deleted)

/-- The messages passed to `message_delete`, in order. The results of the lock and the unlock
are only logged.
Source: `message_queue.c`, `message_queue_delete`
Kind: D -/
def messageQueueDelete (q : MessageQueue α) : Option (List α) := deleteLoop q q.capacity q.head

/-! ## The abstract queue -/

/-- What a queue of capacity `c` deletes, and what it holds afterwards, when `m` arrives: at
`c - 1` messages the oldest `c / 2` go first.
Source: none: infrastructure
Kind: D -/
def fifoEnqueue (c : ℕ) (xs : List α) (m : α) : List α × List α :=
  if xs.length = c - 1 then (xs.take (c / 2), xs.drop (c / 2) ++ [m]) else ([], xs ++ [m])

/-- Nothing appears or disappears: the deleted and the kept messages are the old ones and the
new one, in order.
Source: none: infrastructure
Kind: L -/
theorem fifoEnqueue_append (c : ℕ) (xs : List α) (m : α) :
    (fifoEnqueue c xs m).1 ++ (fifoEnqueue c xs m).2 = xs ++ [m] := by
  unfold fifoEnqueue
  split_ifs
  · rw [← List.append_assoc, List.take_append_drop]
  · rfl

/-! ## The representation relation -/

/-- The queue `q` holds the messages `xs`, oldest first. The size of an `int` bounds the
capacity, and one slot stays free.
Source: none: infrastructure
Kind: D -/
structure MessageQueue.Represents (q : MessageQueue α) (xs : List α) : Prop where
  capacity_le : q.capacity ≤ intMax
  length_buffer : q.buffer.length = q.capacity
  head_lt : q.head < q.capacity
  length_lt : xs.length < q.capacity
  tail_eq : q.tail = (q.head + xs.length) % q.capacity
  window : Window q.buffer q.head xs

/-- The messages a queue holds, oldest first.
Source: none: infrastructure
Kind: D -/
def MessageQueue.contents (q : MessageQueue α) : List α :=
  windowList q.buffer q.head ((q.tail + q.capacity - q.head) % q.capacity)

namespace MessageQueue.Represents

variable {q : MessageQueue α} {xs : List α}

/-- A queue that represents a list has a slot.
Source: none: infrastructure
Kind: L -/
theorem capacity_pos (h : q.Represents xs) : 0 < q.capacity :=
  lt_of_le_of_lt (Nat.zero_le _) h.head_lt

/-- Its tail is one of its slots.
Source: none: infrastructure
Kind: L -/
theorem tail_lt (h : q.Represents xs) : q.tail < q.capacity := by
  rw [h.tail_eq]
  exact Nat.mod_lt _ h.capacity_pos

/-- The tail either is ahead of the head or has wrapped around once.
Source: none: infrastructure
Kind: L -/
theorem tail_cases (h : q.Represents xs) :
    q.tail = q.head + xs.length ∨ q.tail + q.capacity = q.head + xs.length := by
  have hh := h.head_lt
  have hx := h.length_lt
  have ht := h.tail_eq
  rcases Nat.lt_or_ge (q.head + xs.length) q.capacity with hlt | hge
  · rw [Nat.mod_eq_of_lt hlt] at ht
    exact .inl ht
  · rw [Nat.mod_eq_sub_mod hge, Nat.mod_eq_of_lt (by omega)] at ht
    exact .inr (by omega)

/-- The queue is empty exactly when the indices meet.
Source: none: infrastructure
Kind: L -/
theorem head_eq_tail_iff (h : q.Represents xs) : q.head = q.tail ↔ xs = [] := by
  have hh := h.head_lt
  have hx := h.length_lt
  rw [← List.length_eq_zero_iff]
  rcases h.tail_cases with ht | ht <;> omega

/-- Its contents are the list it represents.
Source: none: infrastructure
Kind: L -/
theorem contents_eq (h : q.Represents xs) : q.contents = xs := by
  have hh := h.head_lt
  have hx := h.length_lt
  have hcount : (q.tail + q.capacity - q.head) % q.capacity = xs.length := by
    rcases h.tail_cases with ht | ht
    · rw [show q.tail + q.capacity - q.head = xs.length + q.capacity by omega,
        Nat.add_mod_right, Nat.mod_eq_of_lt hx]
    · rw [show q.tail + q.capacity - q.head = xs.length by omega, Nat.mod_eq_of_lt hx]
  rw [contents, hcount, h.window.windowList_eq]

end MessageQueue.Represents

/-- A queue that was created is empty, with the capacity asked for.
Source: `message_queue.c`, `message_queue_create`
Kind: L -/
theorem represents_of_messageQueueCreate {calls : CreateCalls} {c : ℤ} {q : MessageQueue α}
    (h : messageQueueCreate calls c = some q) (hmax : c ≤ intMax) :
    q.capacity = c.toNat ∧ q.Represents [] := by
  unfold messageQueueCreate at h
  split_ifs at h with hpos
  cases h
  have hc : 0 < c.toNat := by omega
  exact ⟨rfl, show c.toNat ≤ intMax by omega, by simp, hc, hc, by simp, Window.nil _ _⟩

/-- A queue that is created represents the empty list.
Source: `message_queue.c`, `message_queue_create`
Kind: L -/
theorem messageQueueCreate_represents {c : ℕ} (hc : 0 < c) (hmax : c ≤ intMax) :
    ∃ q : MessageQueue α, messageQueueCreate .allOk c = some q ∧ q.capacity = c ∧
      q.Represents [] := by
  have hcreate : messageQueueCreate .allOk c =
      some (⟨List.replicate c none, c, 0, 0⟩ : MessageQueue α) := by
    simp [messageQueueCreate, CreateCalls.allOk, hc.ne']
  obtain ⟨hcap, hrep⟩ := represents_of_messageQueueCreate hcreate (by exact_mod_cast hmax)
  exact ⟨_, hcreate, hcap, hrep⟩

/-! ## The loops -/

section loops

variable {q : MessageQueue α}

/-- Moving the head to a slot `k + 1` ahead, one round at a time.
Source: none: infrastructure
Kind: L -/
theorem succ_mod_add_mod (h k c : ℕ) : ((h + 1) % c + k) % c = (h + (k + 1)) % c := by
  rw [Nat.mod_add_mod]
  congr 1
  omega

/-- **The clearing loop.** From a head in front of the messages `xs`, with a target `k` slots
ahead, it stops after `k` rounds, at the target, having deleted exactly the `k` oldest messages in
order.
Source: `message_queue.c`, `message_queue_enqueue`
Kind: P -/
theorem clearLoop_eq (hcap : q.capacity ≤ intMax) (hlen : q.buffer.length = q.capacity)
    {fuel head k : ℕ} {xs : List α} (hhead : head < q.capacity) (hk : k ≤ xs.length)
    (hxs : xs.length < q.capacity) (hwin : Window q.buffer head xs) (hfuel : k < fuel) :
    clearLoop q ((head + k) % q.capacity) fuel head =
      some ((head + k) % q.capacity, xs.take k) := by
  induction fuel generalizing head k xs with
  | zero => omega
  | succ fuel ih =>
      rw [clearLoop]
      cases k with
      | zero => simp [Nat.mod_eq_of_lt hhead]
      | succ k =>
          -- the target is ahead, so the loop does not stop here
          have hne : head ≠ (head + (k + 1)) % q.capacity := by
            have := add_mod_ne (h := head) (Nat.succ_pos k) (show k + 1 < q.capacity by omega)
            rwa [Nat.add_zero, Nat.mod_eq_of_lt hhead] at this
          cases xs with
          | nil => simp at hk
          | cons x xs =>
              rw [List.length_cons] at hk hxs
              have hread := hwin.head (hlen ▸ hhead)
              have hnext : addInt head 1 = some (head + 1) := addInt_of_le (by omega)
              have hwin' : Window q.buffer ((head + 1) % q.capacity) xs := by
                have := hwin.drop 1
                rwa [hlen] at this
              have hrest := ih (Nat.mod_lt (head + 1) (by omega))
                (show k ≤ xs.length by omega) (by omega) hwin' (by omega)
              rw [succ_mod_add_mod] at hrest
              rw [if_neg hne, hread, hnext]
              simp [hrest]

/-- The deletion loop deletes exactly the messages from `i` up to the tail, in order, and stops.
Source: `message_queue.c`, `message_queue_delete`
Kind: P -/
theorem deleteLoop_eq (hcap : q.capacity ≤ intMax) (hlen : q.buffer.length = q.capacity)
    {fuel i : ℕ} {xs : List α} (hi : i < q.capacity) (hxs : xs.length < q.capacity)
    (htail : q.tail = (i + xs.length) % q.capacity) (hwin : Window q.buffer i xs)
    (hfuel : xs.length < fuel) : deleteLoop q fuel i = some xs := by
  induction fuel generalizing i xs with
  | zero => omega
  | succ fuel ih =>
      rw [deleteLoop]
      cases xs with
      | nil =>
          have : i = q.tail := by simpa [Nat.mod_eq_of_lt hi] using htail.symm
          simp [this]
      | cons x xs =>
          rw [List.length_cons] at hxs htail hfuel
          have hne : i ≠ q.tail := by
            have := add_mod_ne (h := i) (Nat.succ_pos xs.length) hxs
            rwa [Nat.add_zero, Nat.mod_eq_of_lt hi, ← htail] at this
          have hread := hwin.head (hlen ▸ hi)
          have hnext : addInt i 1 = some (i + 1) := addInt_of_le (by omega)
          have hwin' : Window q.buffer ((i + 1) % q.capacity) xs := by
            have := hwin.drop 1
            rwa [hlen] at this
          have hrest := ih (Nat.mod_lt (i + 1) (by omega)) (show xs.length < q.capacity by omega)
            (by rw [succ_mod_add_mod]; exact htail) hwin' (by omega)
          rw [if_neg hne, hread, hnext]
          simp [hrest]

end loops

/-! ## The operations on a represented queue -/

/-- The queue after the head has moved by `k` slots and `m` has been stored at the tail.
Source: `message_queue.c`, `message_queue_enqueue`
Kind: D -/
def MessageQueue.pushed (q : MessageQueue α) (k : ℕ) (m : α) : MessageQueue α :=
  { q with
    buffer := q.buffer.set q.tail (some m)
    head := (q.head + k) % q.capacity
    tail := (q.tail + 1) % q.capacity }

namespace MessageQueue.Represents

variable {q : MessageQueue α} {xs : List α}

/-- The slot after the tail, counted from the head.
Source: `message_queue.c`, `message_queue_enqueue`
Kind: L -/
theorem nextTail_eq (h : q.Represents xs) :
    (q.tail + 1) % q.capacity = (q.head + (xs.length + 1)) % q.capacity := by
  rw [h.tail_eq, Nat.mod_add_mod, Nat.add_assoc]

/-- The code's full test holds exactly when one slot is free.
Source: `message_queue.c`, `message_queue_enqueue`
Kind: L -/
theorem nextTail_eq_head_iff (h : q.Represents xs) :
    (q.tail + 1) % q.capacity = q.head ↔ xs.length = q.capacity - 1 := by
  have hh := h.head_lt
  have hx := h.length_lt
  rw [h.nextTail_eq]
  constructor
  · intro heq
    by_contra hne
    have := add_mod_ne (h := q.head) (Nat.succ_pos xs.length)
      (show xs.length + 1 < q.capacity by omega)
    rw [Nat.add_zero, Nat.mod_eq_of_lt hh] at this
    exact this heq.symm
  · intro heq
    rw [show q.head + (xs.length + 1) = q.head + q.capacity by omega, Nat.add_mod_right,
      Nat.mod_eq_of_lt hh]

/-- Moving the head by `k` and storing `m` at the tail represents the list without its `k`
oldest messages, followed by `m`.
Source: `message_queue.c`, `message_queue_enqueue`
Kind: L -/
theorem pushed (h : q.Represents xs) {k : ℕ} (hk : k ≤ xs.length)
    (hroom : xs.length - k + 1 < q.capacity) (m : α) :
    (q.pushed k m).Represents (xs.drop k ++ [m]) := by
  have hpos := h.capacity_pos
  have hdrop := h.window.drop k
  rw [h.length_buffer] at hdrop
  have htail : ((q.head + k) % q.capacity + (xs.drop k).length) % q.capacity = q.tail := by
    rw [Nat.mod_add_mod, List.length_drop, h.tail_eq]
    congr 1
    omega
  have hsnoc := hdrop.snoc (by rw [List.length_drop, h.length_buffer]; omega) m
  rw [h.length_buffer, htail] at hsnoc
  refine ⟨h.capacity_le, ?_, Nat.mod_lt _ hpos, ?_, ?_, hsnoc⟩
  · show (q.buffer.set q.tail (some m)).length = q.capacity
    rw [List.length_set, h.length_buffer]
  · show (xs.drop k ++ [m]).length < q.capacity
    simpa using hroom
  · show (q.tail + 1) % q.capacity =
      ((q.head + k) % q.capacity + (xs.drop k ++ [m]).length) % q.capacity
    rw [← htail, List.length_append, List.length_singleton, Nat.mod_add_mod, Nat.add_assoc]

section enqueue

variable {calls : EnqueueCalls}

/-- The index behind the tail is an `int`.
Source: `message_queue.c`, `message_queue_enqueue`
Kind: L -/
theorem addInt_tail (h : q.Represents xs) : addInt q.tail 1 = some (q.tail + 1) := by
  have htail := h.tail_lt
  have hcap := h.capacity_le
  exact addInt_of_le (by omega)

/-- The slot at the tail can be written.
Source: `message_queue.c`, `message_queue_enqueue`
Kind: L -/
theorem writeCell_tail (h : q.Represents xs) (m : α) :
    writeCell q.buffer q.tail m = some (q.buffer.set q.tail (some m)) := by
  rw [writeCell, h.length_buffer, if_pos h.tail_lt]

/-- A queue that is not full takes the message and stays where it is.
Source: `message_queue.c`, `message_queue_enqueue`
Kind: L -/
theorem enqueue_of_room (h : q.Represents xs) (hroom : xs.length + 1 < q.capacity)
    (hlock : calls.lock = true) (m : α) :
    messageQueueEnqueue calls q m = some (enqueueStatus calls, q.pushed 0 m, []) := by
  have hnext : (q.tail + 1) % q.capacity ≠ q.head := by
    apply mt h.nextTail_eq_head_iff.mp
    omega
  rw [messageQueueEnqueue]
  simp [hlock, h.addInt_tail, hnext, h.writeCell_tail, Nat.mod_eq_of_lt h.head_lt,
    MessageQueue.pushed]

/-- A full queue whose clearing target is no `int`: the call has no defined outcome.
Source: `message_queue.c`, `message_queue_enqueue`
Kind: L -/
theorem enqueue_of_overflow (h : q.Represents xs) (hfull : xs.length = q.capacity - 1)
    (hover : intMax < q.head + q.capacity / 2) (hlock : calls.lock = true) (m : α) :
    messageQueueEnqueue calls q m = none := by
  have hnext := h.nextTail_eq_head_iff.mpr hfull
  have htarget : addInt q.head (q.capacity / 2) = none := if_neg (Nat.not_le.mpr hover)
  simp [messageQueueEnqueue, hlock, h.addInt_tail, hnext, htarget]

end enqueue

/-- **Enqueue.** With the lock taken and no signed overflow in the clearing target, the
abstract enqueue happens, whatever the later calls answer.
Source: `message_queue.c`, `message_queue_enqueue`
Kind: P -/
theorem enqueue (h : q.Represents xs) (hc : 2 ≤ q.capacity) {calls : EnqueueCalls}
    (hlock : calls.lock = true) (m : α)
    (hfit : xs.length = q.capacity - 1 → q.head + q.capacity / 2 ≤ intMax) :
    ∃ q', messageQueueEnqueue calls q m =
        some (enqueueStatus calls, q', (fifoEnqueue q.capacity xs m).1) ∧
      q'.capacity = q.capacity ∧ q'.Represents (fifoEnqueue q.capacity xs m).2 := by
  have hx := h.length_lt
  by_cases hfull : xs.length = q.capacity - 1
  · -- overflow: the target is `capacity / 2` slots ahead of the head
    have hnext := h.nextTail_eq_head_iff.mpr hfull
    have htarget : addInt q.head (q.capacity / 2) = some (q.head + q.capacity / 2) :=
      addInt_of_le (hfit hfull)
    have hclear := clearLoop_eq h.capacity_le h.length_buffer h.head_lt
      (show q.capacity / 2 ≤ xs.length by omega) hx h.window (show _ < q.capacity by omega)
    refine ⟨q.pushed (q.capacity / 2) m, ?_, rfl, ?_⟩
    · rw [messageQueueEnqueue, fifoEnqueue, if_pos hfull]
      simp [hlock, h.addInt_tail, hnext, htarget, hclear, h.writeCell_tail, MessageQueue.pushed]
    · rw [fifoEnqueue, if_pos hfull]
      exact h.pushed (by omega) (by omega) m
  · refine ⟨q.pushed 0 m, ?_, rfl, ?_⟩
    · rw [fifoEnqueue, if_neg hfull]
      exact h.enqueue_of_room (by omega) hlock m
    · rw [fifoEnqueue, if_neg hfull]
      exact h.pushed (Nat.zero_le _) (by omega) m

/-- The front is taken by moving the head.
Source: `message_queue.c`, `message_queue_dequeue`, `message_queue_dequeue_nonblocking`
Kind: L -/
theorem takeHead_eq {x : α} (h : q.Represents (x :: xs)) :
    Network.takeHead q = some (x, { q with head := (q.head + 1) % q.capacity }) := by
  have hh := h.head_lt
  have hcap := h.capacity_le
  have hread := h.window.head (h.length_buffer ▸ hh)
  have hnext : addInt q.head 1 = some (q.head + 1) := addInt_of_le (by omega)
  simp [Network.takeHead, hread, hnext]

/-- Taking the front of a non-empty queue.
Source: `message_queue.c`, `message_queue_dequeue`, `message_queue_dequeue_nonblocking`
Kind: P -/
theorem takeHead {x : α} (h : q.Represents (x :: xs)) :
    ∃ q', Network.takeHead q = some (x, q') ∧ q'.capacity = q.capacity ∧ q'.Represents xs := by
  have hx := h.length_lt
  rw [List.length_cons] at hx
  have hdrop : Window q.buffer ((q.head + 1) % q.capacity) xs := by
    have := h.window.drop 1
    rwa [h.length_buffer] at this
  refine ⟨_, h.takeHead_eq, rfl, ?_⟩
  refine ⟨h.capacity_le, h.length_buffer, Nat.mod_lt _ h.capacity_pos, Nat.lt_of_succ_lt hx, ?_,
    hdrop⟩
  show q.tail = ((q.head + 1) % q.capacity + xs.length) % q.capacity
  rw [succ_mod_add_mod, h.tail_eq, List.length_cons]

/-- **The non-blocking dequeue.** It never leaves the ring; it returns `NULL` and changes nothing
when the lock fails or the queue is empty, and else removes the front, which a failed unlock
loses.
Source: `message_queue.c`, `message_queue_dequeue_nonblocking`
Kind: P -/
theorem dequeueNonblocking (h : q.Represents xs) (calls : DequeueCalls) :
    ∃ r q', messageQueueDequeueNonblocking calls q = some (r, q') ∧ q'.capacity = q.capacity ∧
      ((r = none ∧ q' = q ∧ (calls.lock = false ∨ xs = [])) ∨
        ∃ x rest, xs = x :: rest ∧ q'.Represents rest ∧ calls.lock = true ∧
          r = if calls.unlock then some x else none) := by
  rw [messageQueueDequeueNonblocking]
  cases hlock : calls.lock with
  | false => exact ⟨none, q, by simp, rfl, .inl ⟨rfl, rfl, .inl rfl⟩⟩
  | true =>
      cases xs with
      | nil => exact ⟨none, q, by simp [h.head_eq_tail_iff.mpr rfl], rfl, .inl ⟨rfl, rfl, .inr rfl⟩⟩
      | cons x rest =>
          have hne : q.head ≠ q.tail := mt h.head_eq_tail_iff.mp (List.cons_ne_nil x rest)
          obtain ⟨q', htake, hcap, hrep⟩ := h.takeHead
          refine ⟨if calls.unlock then some x else none, q', ?_, hcap,
            .inr ⟨x, rest, rfl, hrep, rfl, rfl⟩⟩
          cases hunlock : calls.unlock <;> simp [hne, htake]

/-- **The blocking dequeue**, all calls succeeding: it waits when the queue is empty and removes the
front otherwise.
Source: `message_queue.c`, `message_queue_dequeue`, `message_queue_wait`
Kind: P -/
theorem dequeue (h : q.Represents xs) :
    ∃ result q', messageQueueDequeue .allOk q = some (result, q') ∧ q'.capacity = q.capacity ∧
      ((xs = [] ∧ result = .blocked ∧ q' = q) ∨
        ∃ x rest, xs = x :: rest ∧ result = .returned (some x) ∧ q'.Represents rest) := by
  cases xs with
  | nil =>
      refine ⟨.blocked, q, ?_, rfl, .inl ⟨rfl, rfl, rfl⟩⟩
      simp [messageQueueDequeue, h.head_eq_tail_iff.mpr rfl]
  | cons x rest =>
      have hne : q.head ≠ q.tail := mt h.head_eq_tail_iff.mp (List.cons_ne_nil x rest)
      obtain ⟨q', htake, hcap, hrep⟩ := h.takeHead
      refine ⟨.returned (some x), q', ?_, hcap, .inr ⟨x, rest, rfl, rfl, hrep⟩⟩
      simp [messageQueueDequeue, hne, htake]

/-- The deletion of a queue deletes its messages, in order, each once.
Source: `message_queue.c`, `message_queue_delete`
Kind: P -/
theorem delete (h : q.Represents xs) : messageQueueDelete q = some xs :=
  deleteLoop_eq h.capacity_le h.length_buffer h.head_lt h.length_lt h.tail_eq h.window h.length_lt

end MessageQueue.Represents

/-! ## The abstract queue as a state -/

/-- A bounded first-in first-out queue: what a message queue is for.
Source: none: infrastructure
Kind: D -/
structure Fifo (α : Type) where
  capacity : ℕ
  items : List α

namespace Fifo

/-- What an enqueue does to the abstract queue, for every outcome of its `pthread_*` calls: the
status, the queue and the messages deleted. With a single slot the queue looks empty as soon as
that slot is written, and the message is lost.
Source: `message_queue.c`, `message_queue_enqueue`
Kind: D -/
def enqueue (calls : EnqueueCalls) (q : Fifo α) (m : α) :
    MessageQueueStatus × Fifo α × List α :=
  if !calls.lock then (.errorMutex, q, [])
  else if q.capacity = 1 then (enqueueStatus calls, q, [])
  else (enqueueStatus calls, { q with items := (fifoEnqueue q.capacity q.items m).2 },
    (fifoEnqueue q.capacity q.items m).1)

/-- What a non-blocking dequeue does to it: a failed unlock loses the message.
Source: none: infrastructure
Kind: D -/
def dequeueNonblocking (calls : DequeueCalls) (q : Fifo α) : Option α × Fifo α :=
  match q.items with
  | [] => (none, q)
  | x :: rest =>
      if !calls.lock then (none, q)
      else (if calls.unlock then some x else none, { q with items := rest })

/-- An enqueue keeps the order, and at most drops messages.
Source: `message_queue.c`, `message_queue_enqueue`
Kind: L -/
theorem enqueue_sublist (calls : EnqueueCalls) (q : Fifo α) (m : α) :
    ((q.enqueue calls m).2.2 ++ (q.enqueue calls m).2.1.items).Sublist (q.items ++ [m]) := by
  unfold enqueue
  split_ifs
  · exact List.sublist_append_left _ _
  · exact List.sublist_append_left _ _
  · exact (fifoEnqueue_append q.capacity q.items m) ▸ List.Sublist.refl _

section inversion

variable {q q' : Fifo α} {m : α} {calls : EnqueueCalls} {status : MessageQueueStatus}
  {dropped : List α}

/-- What an enqueue deletes and keeps was there before, in this order, or is the new message.
Source: `message_queue.c`, `message_queue_enqueue`
Kind: L -/
theorem sublist_of_enqueue (h : q.enqueue calls m = (status, q', dropped)) :
    (dropped ++ q'.items).Sublist (q.items ++ [m]) := by
  have := enqueue_sublist calls q m
  rwa [h] at this

/-- An enqueue keeps the capacity.
Source: `message_queue.c`, `message_queue_enqueue`
Kind: L -/
theorem capacity_of_enqueue (h : q.enqueue calls m = (status, q', dropped)) :
    q'.capacity = q.capacity := by
  unfold enqueue at h
  split_ifs at h <;> cases h <;> rfl

/-- Without the lock nothing happens.
Source: `message_queue.c`, `message_queue_enqueue`
Kind: L -/
theorem enqueue_of_not_lock (hlock : calls.lock = false) :
    q.enqueue calls m = (.errorMutex, q, []) := by
  simp [enqueue, hlock]

/-- With a single slot nothing is kept.
Source: `message_queue.c`, `message_queue_enqueue`
Kind: L -/
theorem enqueue_of_one (hlock : calls.lock = true) (hcap : q.capacity = 1) :
    q.enqueue calls m = (enqueueStatus calls, q, []) := by
  simp [enqueue, hlock, hcap]

/-- Once the lock is taken, the status depends on the calls alone.
Source: `message_queue.c`, `message_queue_enqueue`
Kind: L -/
theorem status_of_enqueue (hlock : calls.lock = true)
    (h : q.enqueue calls m = (status, q', dropped)) : status = enqueueStatus calls := by
  unfold enqueue at h
  simp only [hlock, Bool.not_true, Bool.false_eq_true, if_false] at h
  split_ifs at h <;> cases h <;> rfl

/-- An enqueue reports success only if every call succeeded.
Source: `message_queue.c`, `message_queue_enqueue`
Kind: L -/
theorem calls_of_enqueue_success (h : q.enqueue calls m = (.success, q', dropped)) :
    calls.lock = true ∧ enqueueStatus calls = .success := by
  cases hlock : calls.lock with
  | false =>
      rw [enqueue_of_not_lock hlock] at h
      cases h
  | true => exact ⟨rfl, (status_of_enqueue hlock h).symm⟩

/-- With the lock and more than one slot no message is lost silently.
Source: `message_queue.c`, `message_queue_enqueue`
Kind: L -/
theorem append_of_enqueue (hlock : calls.lock = true) (hcap : q.capacity ≠ 1)
    (h : q.enqueue calls m = (status, q', dropped)) : dropped ++ q'.items = q.items ++ [m] := by
  simp only [enqueue, hlock, Bool.not_true, Bool.false_eq_true, if_false, hcap] at h
  cases h
  exact fifoEnqueue_append q.capacity q.items m

/-- The new message itself is kept.
Source: `message_queue.c`, `message_queue_enqueue`
Kind: L -/
theorem mem_of_enqueue (hlock : calls.lock = true) (hcap : q.capacity ≠ 1)
    (h : q.enqueue calls m = (status, q', dropped)) : m ∈ q'.items := by
  simp only [enqueue, hlock, Bool.not_true, Bool.false_eq_true, if_false, hcap] at h
  cases h
  unfold fifoEnqueue
  split_ifs <;> simp

/-- A dequeue that returns a message takes the oldest one.
Source: none: infrastructure
Kind: L -/
theorem items_of_dequeue_some {calls : DequeueCalls}
    (h : q.dequeueNonblocking calls = (some m, q')) :
    q.items = m :: q'.items ∧ q'.capacity = q.capacity := by
  unfold dequeueNonblocking at h
  split at h
  · simp at h
  · rename_i x rest hitems
    split_ifs at h
    all_goals cases h
    exact ⟨hitems, rfl⟩

/-- A dequeue that returns `NULL` leaves the queue as it was, or loses a message to a failed
unlock.
Source: none: infrastructure
Kind: L -/
theorem items_of_dequeue_none {calls : DequeueCalls}
    (h : q.dequeueNonblocking calls = (none, q')) :
    q'.items.Sublist q.items ∧ q'.capacity = q.capacity ∧ (calls.unlock = true → q' = q) := by
  unfold dequeueNonblocking at h
  split at h
  · cases h
    exact ⟨.refl _, rfl, fun _ => rfl⟩
  · rename_i x rest hitems
    split_ifs at h with hlock hunlock
    · cases h
      exact ⟨.refl _, rfl, fun _ => rfl⟩
    · cases h
    · cases h
      refine ⟨?_, rfl, fun hunlock' => absurd hunlock' hunlock⟩
      rw [hitems]
      exact List.sublist_cons_self x rest

/-- With the lock taken and released, only an empty queue returns `NULL`.
Source: none: infrastructure
Kind: L -/
theorem items_eq_nil_of_dequeue_none (h : q.dequeueNonblocking .allOk = (none, q')) :
    q.items = [] ∧ q' = q := by
  unfold dequeueNonblocking at h
  split at h
  · rename_i hitems
    cases h
    exact ⟨hitems, rfl⟩
  · cases h

end inversion

end Fifo

/-- The abstract queue a ring stands for.
Source: none: infrastructure
Kind: D -/
def MessageQueue.fifo (q : MessageQueue α) : Fifo α := ⟨q.capacity, q.contents⟩

/-- The ring stands for some abstract queue.
Source: none: infrastructure
Kind: D -/
def MessageQueue.Valid (q : MessageQueue α) : Prop := q.Represents q.contents

/-- A queue that represents some list is valid.
Source: none: infrastructure
Kind: L -/
theorem MessageQueue.Represents.valid {q : MessageQueue α} {xs : List α} (h : q.Represents xs) :
    q.Valid := by
  rw [MessageQueue.Valid, h.contents_eq]
  exact h

/-- Its abstraction is the capacity and the list.
Source: none: infrastructure
Kind: L -/
theorem MessageQueue.Represents.fifo_eq {q : MessageQueue α} {xs : List α}
    (h : q.Represents xs) : q.fifo = ⟨q.capacity, xs⟩ := by
  rw [MessageQueue.fifo, h.contents_eq]

section valid

variable {q q' : MessageQueue α} {m : α}

/-- With a single slot an enqueue writes the slot and leaves the queue empty.
Source: `message_queue.c`, `message_queue_enqueue`
Kind: L -/
theorem MessageQueue.Represents.enqueue_one {xs : List α} (h : q.Represents xs)
    (hc : q.capacity = 1) {calls : EnqueueCalls} (hlock : calls.lock = true) (m : α) :
    ∃ q', messageQueueEnqueue calls q m = some (enqueueStatus calls, q', []) ∧
      q'.capacity = 1 ∧ q'.Represents xs := by
  have hh : q.head = 0 := by
    have := h.head_lt
    omega
  have hx : xs = [] := by
    have := h.length_lt
    exact List.length_eq_zero_iff.mp (by omega)
  have ht : q.tail = 0 := by
    have := h.tail_lt
    omega
  subst hx
  have hone : (1 : ℕ) ≤ intMax := by decide
  have hsum : addInt 0 1 = some 1 := addInt_of_le hone
  have hzero : addInt 0 0 = some 0 := addInt_of_le (Nat.zero_le _)
  have hwrite : writeCell q.buffer 0 m = some (q.buffer.set 0 (some m)) := by
    rw [writeCell, h.length_buffer, if_pos (by omega)]
  refine ⟨{ q with buffer := q.buffer.set 0 (some m) }, ?_, hc, ?_⟩
  · simp [messageQueueEnqueue, hlock, hh, ht, hc, hsum, hzero, hwrite, clearLoop]
  · refine ⟨h.capacity_le, ?_, h.head_lt, h.length_lt, h.tail_eq, Window.nil _ _⟩
    rw [List.length_set]
    exact h.length_buffer

/-- **Every defined enqueue is the abstract one**, for every capacity and every outcome of the
`pthread_*` calls.
Source: `message_queue.c`, `message_queue_enqueue`
Kind: P -/
theorem MessageQueue.Valid.enqueue (h : q.Valid) {calls : EnqueueCalls}
    {status : MessageQueueStatus} {deleted : List α}
    (he : messageQueueEnqueue calls q m = some (status, q', deleted)) :
    q.fifo.enqueue calls m = (status, q'.fifo, deleted) ∧ q'.Valid := by
  have hq : q.Represents q.contents := h
  unfold Fifo.enqueue MessageQueue.fifo
  cases hlock : calls.lock with
  | false =>
      simp only [messageQueueEnqueue, hlock, Bool.not_false, if_true, Option.some.injEq,
        Prod.mk.injEq] at he
      obtain ⟨rfl, rfl, rfl⟩ := he
      exact ⟨rfl, h⟩
  | true =>
      by_cases hc : q.capacity = 1
      · obtain ⟨q₁, heq, hcap, hrep⟩ := hq.enqueue_one hc hlock m
        rw [heq, Option.some.injEq, Prod.mk.injEq, Prod.mk.injEq] at he
        obtain ⟨rfl, rfl, rfl⟩ := he
        exact ⟨by simp [hc, hcap, hrep.contents_eq], hrep.valid⟩
      · have hpos := hq.capacity_pos
        by_cases hfit : q.contents.length = q.capacity - 1 → q.head + q.capacity / 2 ≤ intMax
        · obtain ⟨q₁, heq, hcap, hrep⟩ := hq.enqueue (by omega) hlock m hfit
          rw [heq, Option.some.injEq, Prod.mk.injEq, Prod.mk.injEq] at he
          obtain ⟨rfl, rfl, rfl⟩ := he
          exact ⟨by simp [hc, hcap, hrep.contents_eq], hrep.valid⟩
        · rw [Classical.not_imp] at hfit
          rw [hq.enqueue_of_overflow hfit.1 (Nat.not_le.mp hfit.2) hlock m] at he
          cases he

/-- An enqueue has a defined outcome, whatever the `pthread_*` calls answer, if the clearing target
cannot overflow.
Source: `message_queue.c`, `message_queue_enqueue`
Kind: L -/
theorem MessageQueue.Valid.exists_enqueue (h : q.Valid)
    (hfit : q.capacity - 1 + q.capacity / 2 ≤ intMax) (calls : EnqueueCalls) (m : α) :
    ∃ r, messageQueueEnqueue calls q m = some r := by
  have hq : q.Represents q.contents := h
  cases hlock : calls.lock with
  | false => exact ⟨_, by simp [messageQueueEnqueue, hlock]; rfl⟩
  | true =>
      have hpos := hq.capacity_pos
      have hhead := hq.head_lt
      by_cases hc : q.capacity = 1
      · obtain ⟨q', henqueue, -⟩ := hq.enqueue_one hc hlock m
        exact ⟨_, henqueue⟩
      · obtain ⟨q', henqueue, -⟩ := hq.enqueue (by omega) hlock m (fun _ => by omega)
        exact ⟨_, henqueue⟩

/-- **Every non-blocking dequeue is the abstract one.**
Source: `message_queue.c`, `message_queue_dequeue_nonblocking`
Kind: P -/
theorem MessageQueue.Valid.dequeueNonblocking (h : q.Valid) {calls : DequeueCalls}
    {r : Option α} (he : messageQueueDequeueNonblocking calls q = some (r, q')) :
    q.fifo.dequeueNonblocking calls = (r, q'.fifo) ∧ q'.Valid := by
  have hq : q.Represents q.contents := h
  obtain ⟨r₁, q₁, heq, hcap, hcases⟩ := hq.dequeueNonblocking calls
  rw [heq, Option.some.injEq, Prod.mk.injEq] at he
  obtain ⟨rfl, rfl⟩ := he
  rcases hcases with ⟨rfl, rfl, hnone⟩ | ⟨x, rest, hx, hrep, hlock, rfl⟩
  · refine ⟨?_, h⟩
    unfold Fifo.dequeueNonblocking
    rcases hnone with hlock | hnil
    · cases hitems : q₁.fifo.items <;> simp [hlock]
    · simp [MessageQueue.fifo, hnil]
  · refine ⟨?_, hrep.valid⟩
    simp [Fifo.dequeueNonblocking, MessageQueue.fifo, hx, hlock, hcap, hrep.contents_eq]

end valid

/-! ## Sequences of operations -/

/-- One call on the queue.
Source: `message_queue.c`, `message_queue_enqueue`
Kind: D -/
inductive QueueOp (α : Type)
  | enqueue (message : α)
  | dequeue
  | dequeueNonblocking

/-- What a caller sees of one call, and what the call deletes.
Source: none: infrastructure
Kind: D -/
inductive QueueEvent (α : Type)
  | enqueued (status : MessageQueueStatus) (deleted : List α)
  | dequeued (result : DequeueResult α)
  deriving DecidableEq

/-- One operation of the code, all `pthread_*` calls succeeding.
Source: `message_queue.c`, `message_queue_enqueue`, `message_queue_dequeue`, `message_queue_wait`
Kind: D -/
def MessageQueue.stepOp (q : MessageQueue α) : QueueOp α → Option (QueueEvent α × MessageQueue α)
  | .enqueue m => do
      let (status, q', deleted) ← messageQueueEnqueue .allOk q m
      some (.enqueued status deleted, q')
  | .dequeue => do
      let (result, q') ← messageQueueDequeue .allOk q
      some (.dequeued result, q')
  | .dequeueNonblocking => do
      let (message, q') ← messageQueueDequeueNonblocking .allOk q
      some (.dequeued (.returned message), q')

/-- The same operation on the abstract queue of capacity `c`: an enqueue deletes the oldest
`c / 2` messages first when `c - 1` are held; a dequeue takes the oldest; on the empty queue the
blocking one waits and the other returns `NULL`.
Source: none: infrastructure
Kind: D -/
def fifoStep (c : ℕ) (xs : List α) : QueueOp α → QueueEvent α × List α
  | .enqueue m => (.enqueued .success (fifoEnqueue c xs m).1, (fifoEnqueue c xs m).2)
  | .dequeue =>
      match xs with
      | [] => (.dequeued .blocked, [])
      | x :: rest => (.dequeued (.returned (some x)), rest)
  | .dequeueNonblocking =>
      match xs with
      | [] => (.dequeued (.returned none), [])
      | x :: rest => (.dequeued (.returned (some x)), rest)

/-- A sequence of operations of the code: the events and the queue left.
Source: `message_queue.c`, `message_queue_enqueue`, `message_queue_dequeue`, `message_queue_wait`
Kind: D -/
def MessageQueue.runOps (q : MessageQueue α) :
    List (QueueOp α) → Option (List (QueueEvent α) × MessageQueue α)
  | [] => some ([], q)
  | op :: ops => do
      let (event, q') ← q.stepOp op
      let (events, q'') ← q'.runOps ops
      some (event :: events, q'')

/-- The same sequence on the abstract queue.
Source: none: infrastructure
Kind: D -/
def fifoRun (c : ℕ) (xs : List α) : List (QueueOp α) → List (QueueEvent α) × List α
  | [] => ([], xs)
  | op :: ops =>
      ((fifoStep c xs op).1 :: (fifoRun c (fifoStep c xs op).2 ops).1,
        (fifoRun c (fifoStep c xs op).2 ops).2)

/-- One operation simulates the abstract one.
Source: `message_queue.c`, `message_queue_enqueue`, `message_queue_dequeue`, `message_queue_wait`
Kind: P -/
theorem MessageQueue.Represents.stepOp {q : MessageQueue α} {xs : List α} (h : q.Represents xs)
    (hc : 2 ≤ q.capacity) (hfit : q.capacity - 1 + q.capacity / 2 ≤ intMax) (op : QueueOp α) :
    ∃ q', q.stepOp op = some ((fifoStep q.capacity xs op).1, q') ∧ q'.capacity = q.capacity ∧
      q'.Represents (fifoStep q.capacity xs op).2 := by
  have hh := h.head_lt
  cases op with
  | enqueue m =>
      obtain ⟨q', heq, hcap, hrep⟩ :=
        h.enqueue hc EnqueueCalls.allOk_lock m (fun _ => by omega)
      exact ⟨q', by simp [MessageQueue.stepOp, heq, fifoStep], hcap, hrep⟩
  | dequeue =>
      obtain ⟨result, q', heq, hcap, ⟨rfl, rfl, rfl⟩ | ⟨x, rest, rfl, rfl, hrep⟩⟩ := h.dequeue
      · exact ⟨q', by simp [MessageQueue.stepOp, heq, fifoStep], rfl, h⟩
      · exact ⟨q', by simp [MessageQueue.stepOp, heq, fifoStep], hcap, hrep⟩
  | dequeueNonblocking =>
      obtain ⟨r, q', heq, hcap, hcases⟩ := h.dequeueNonblocking .allOk
      refine ⟨q', ?_, hcap, ?_⟩
      · rcases hcases with ⟨rfl, -, hnil⟩ | ⟨x, rest, rfl, -, -, rfl⟩
        · obtain rfl : xs = [] := hnil.resolve_left (by simp)
          simp [MessageQueue.stepOp, heq, fifoStep]
        · simp [MessageQueue.stepOp, heq, fifoStep]
      · rcases hcases with ⟨-, rfl, hnil⟩ | ⟨x, rest, rfl, hrep, -, -⟩
        · obtain rfl : xs = [] := hnil.resolve_left (by simp)
          exact h
        · exact hrep

/-- Every sequence of operations simulates the abstract one.
Source: `message_queue.c`, `message_queue_enqueue`, `message_queue_dequeue`, `message_queue_wait`
Kind: P -/
theorem MessageQueue.Represents.runOps {q : MessageQueue α} {xs : List α} (h : q.Represents xs)
    (hc : 2 ≤ q.capacity) (hfit : q.capacity - 1 + q.capacity / 2 ≤ intMax)
    (ops : List (QueueOp α)) :
    ∃ q', q.runOps ops = some ((fifoRun q.capacity xs ops).1, q') ∧ q'.capacity = q.capacity ∧
      q'.Represents (fifoRun q.capacity xs ops).2 := by
  induction ops generalizing q xs with
  | nil => exact ⟨q, rfl, rfl, h⟩
  | cons op ops ih =>
      obtain ⟨q₁, hstep, hcap₁, hrep₁⟩ := h.stepOp hc hfit op
      obtain ⟨q₂, hrun, hcap₂, hrep₂⟩ := ih hrep₁ (by omega) (by omega)
      rw [hcap₁] at hrun hcap₂ hrep₂
      exact ⟨q₂, by simp [MessageQueue.runOps, hstep, hrun, fifoRun], hcap₂, hrep₂⟩

/-- **The message queue refines a bounded FIFO.** From `message_queue_create(c)`, every sequence
of operations runs without leaving the ring or overflowing an index, shows exactly the events of
the abstract queue (what each enqueue deletes, what each dequeue returns), and ends with both
indices in range, at most `c - 1` messages, and a deletion that deletes exactly those.
Source: `message_queue.c`; `test_message_queue.c` tries one overflow at `c = 4`
Kind: P
Hyps: `2 ≤ c`; the clearing target's sum stays an `int` -/
theorem messageQueue_refines_fifo (c : ℕ) (hc : 2 ≤ c) (hfit : c - 1 + c / 2 ≤ intMax)
    (ops : List (QueueOp α)) :
    ∃ q₀ q : MessageQueue α, messageQueueCreate .allOk c = some q₀ ∧
      q₀.runOps ops = some ((fifoRun c [] ops).1, q) ∧
      q.head < c ∧ q.tail < c ∧
      q.contents = (fifoRun c [] ops).2 ∧ (fifoRun c [] ops).2.length ≤ c - 1 ∧
      messageQueueDelete q = some (fifoRun c [] ops).2 := by
  obtain ⟨q₀, hcreate, hcap₀, hrep₀⟩ :=
    messageQueueCreate_represents (α := α) (show 0 < c by omega) (by omega)
  obtain ⟨q, hrun, hcap, hrep⟩ := hrep₀.runOps (by omega) (by omega) ops
  rw [hcap₀] at hrun hcap hrep
  have hhead := hrep.head_lt
  have htail := hrep.tail_lt
  have hlen := hrep.length_lt
  rw [hcap] at hhead htail hlen
  exact ⟨q₀, q, hcreate, hrun, hhead, htail, hrep.contents_eq, by omega, hrep.delete⟩

/-- Four enqueues at `c = 4`: the fourth finds three messages and deletes the oldest two.
Source: `message_queue.c`, `message_queue_create`, `message_queue_delete`
Kind: C -/
theorem messageQueue_overflow_at_four :
    ∃ q₀ q : MessageQueue ℕ, messageQueueCreate .allOk 4 = some q₀ ∧
      q₀.runOps [.enqueue 1, .enqueue 2, .enqueue 3, .enqueue 4, .dequeueNonblocking] =
        some ([.enqueued .success [], .enqueued .success [], .enqueued .success [],
          .enqueued .success [1, 2], .dequeued (.returned (some 3))], q) ∧
      q.contents = [4] ∧ messageQueueDelete q = some [4] := by
  obtain ⟨q₀, q, hcreate, hrun, -, -, hcontents, -, hdelete⟩ :=
    messageQueue_refines_fifo 4 (by decide) (by decide)
      [.enqueue 1, .enqueue 2, .enqueue 3, .enqueue 4, .dequeueNonblocking]
  exact ⟨q₀, q, hcreate, hrun, hcontents, hdelete⟩

end CpuMonitor.Network
