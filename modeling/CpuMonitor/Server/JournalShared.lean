import CpuMonitor.Lib.Run
import CpuMonitor.Server.Journal

/-!
# The journal written by several worker processes

`main` creates the journal and then forks the workers (`server.c`, `safe_process.c`). After the
fork the mapped region is shared, but `journal_t` was `malloc`ed: every process has its own copy
of it, mutex included. So a worker that calls `journal_write` locks a mutex nobody else uses.

* **The system** `Shared n maxSize`: one region, and for each worker its private mutex, the point
  it has reached in `journal_write` and the records it has still to write. `Shared.step s i` is the
  next step of worker `i`: lock, load, check, copy, store, unlock.
* **Undisturbed writes** (`NoOverlap`): a worker loads the size only while no other accepted write
  is between its load and its store (a write that will be refused disturbs nobody).
* Under `NoOverlap` every run keeps `Serial` (`Serial.step`), hence no record is lost
  (`no_record_lost`); without it two workers can store on top of each other
  (`record_lost_by_overlap`).
* `solo_write`: the steps of one worker, taken in a row, are `journalWrite`.
-/

namespace CpuMonitor.Server

open CpuMonitor.Lib

/-! ## The system -/

/-- Where a worker is in `journal_write`: the local variables are those of the call.
Source: `journal.c`, `journal_write`
Kind: D -/
inductive WritePc
  /-- Between two calls. -/
  | idle
  /-- The own mutex is locked. -/
  | locked (data : List UInt8)
  /-- `cur_size` is loaded. -/
  | loaded (data : List UInt8) (curSize : ℕ)
  /-- The capacity check has passed. -/
  | fits (data : List UInt8) (curSize : ℕ)
  /-- The data is copied at `cur_size`. -/
  | copied (data : List UInt8) (curSize : ℕ)
  /-- The new size is stored. -/
  | stored (data : List UInt8)
  /-- The capacity check has failed. -/
  | refused (data : List UInt8)
  deriving DecidableEq

/-- One worker process.
Source: `journal.c`, `journal_write`; `server.c`, `main`
Kind: D -/
structure Writer where
  /-- Its own copy of `journal->mutex`, locked or not. -/
  mutex : Bool
  pc : WritePc
  /-- The records it has still to pass to `journal_write`. -/
  pending : List (List UInt8)

/-- The processes after the forks: the region is shared, everything else is private. `returned` is
the history of the calls that have returned.
Source: `journal.c`, `journal_write`; `server.c`, `main`
Kind: D -/
structure Shared (n maxSize : ℕ) where
  region : Region maxSize
  writer : Fin n → Writer
  returned : List (Fin n × List UInt8 × JournalStatus)

variable {n maxSize : ℕ}

/-- The forked workers, each with a copy of the unlocked mutex and its own records.
Source: `server.c`, `main`
Kind: D -/
def Shared.init (region : Region maxSize) (records : Fin n → List (List UInt8)) :
    Shared n maxSize :=
  ⟨region, fun i => ⟨false, .idle, records i⟩, []⟩

/-- Worker `i` becomes `w`.
Source: `journal.c`, `journal_write`; `server.c`, `main`
Kind: D -/
def Shared.set (s : Shared n maxSize) (i : Fin n) (w : Writer) : Shared n maxSize :=
  { s with writer := Function.update s.writer i w }

/-- Worker `i`'s call returns `status`.
Source: `journal.c`, `journal_write`; `server.c`, `main`
Kind: D -/
def Shared.returns (s : Shared n maxSize) (i : Fin n) (data : List UInt8)
    (status : JournalStatus) (pending : List (List UInt8)) : Shared n maxSize :=
  { s.set i ⟨false, .idle, pending⟩ with returned := s.returned ++ [(i, data, status)] }

/-- The next step of worker `i`; `none` when it has nothing to do, waits for its own mutex or
would copy outside the region.
Source: `journal.c`, `journal_write`
Kind: D
Fidelity: exact (the `pthread_*` calls on the own mutex succeed) -/
def Shared.step (s : Shared n maxSize) (i : Fin n) : Option (Shared n maxSize) :=
  let w := s.writer i
  match w.pc with
  | .idle =>
      match w.pending with
      | [] => none
      | data :: rest =>
          if data.length = 0 then some (s.returns i data .success rest)
          else if w.mutex then none
          else some (s.set i ⟨true, .locked data, rest⟩)
  | .locked data => do
      let curSize ← loadSize s.region
      some (s.set i { w with pc := .loaded data curSize })
  | .loaded data curSize =>
      if addSizeT curSize data.length > maxSize then some (s.set i { w with pc := .refused data })
      else some (s.set i { w with pc := .fits data curSize })
  | .fits data curSize => do
      let region ← storeVec s.region curSize data
      some ({ s with region := region }.set i { w with pc := .copied data curSize })
  | .copied data curSize => do
      let region ← storeSize s.region (addSizeT curSize data.length)
      some ({ s with region := region }.set i { w with pc := .stored data })
  | .stored data => some (s.returns i data .success w.pending)
  | .refused data => some (s.returns i data .errorNoSpace w.pending)

/-- All calls have returned.
Source: `journal.c`, `journal_write`
Kind: D -/
def Shared.AllReturned (s : Shared n maxSize) : Prop :=
  ∀ i, (s.writer i).pc = .idle ∧ (s.writer i).pending = []

/-- The records whose `journal_write` returned `JOURNAL_STATUS_SUCCESS`, with their writers.
Source: `journal.c`, `journal_write`
Kind: D -/
def Shared.succeeded (s : Shared n maxSize) : List (Fin n × List UInt8) :=
  (s.returned.filter fun r => r.2.2 = .success).map fun r => (r.1, r.2.1)

/-- The journal content is the concatenation, in some order, of exactly the records whose write
succeeded, each once.
Source: `journal.c`, `journal_write`
Kind: D -/
def Shared.NoRecordLost (s : Shared n maxSize) : Prop :=
  ∃ order : List (Fin n × List UInt8), order.Perm s.succeeded ∧
    journalContent s.region = (order.map Prod.snd).flatten

/-! ## Undisturbed writes -/

/-- The worker is between the load and the store of a write that passes the capacity check.
Source: `journal.c`, `journal_write`
Kind: D -/
def Writer.inFlight (maxSize : ℕ) (w : Writer) : Bool :=
  match w.pc with
  | .loaded data curSize => decide (addSizeT curSize data.length ≤ maxSize)
  | .fits _ _ => true
  | .copied _ _ => true
  | _ => false

/-- A write of `data` loading the size now would pass the capacity check.
Source: `journal.c`, `journal_write`
Kind: D -/
def accepts (region : Region maxSize) (data : List UInt8) : Bool :=
  match loadSize region with
  | some curSize => decide (addSizeT curSize data.length ≤ maxSize)
  | none => false

/-- The record a worker is about to load the size for.
Source: `journal.c`, `journal_write`
Kind: D -/
def Writer.loading (w : Writer) : Option (List UInt8) :=
  match w.pc with
  | .locked data => some data
  | _ => none

/-- **Undisturbed.** If worker `i` is about to load the size for a write that will be accepted, no
other accepted write is in flight.
Source: `journal.c`, `journal_write`
Kind: D -/
def Shared.NoOverlap (s : Shared n maxSize) (i : Fin n) : Prop :=
  ∀ data ∈ (s.writer i).loading, accepts s.region data = true →
    ∀ k, k ≠ i → (s.writer k).inFlight maxSize = false

/-- Whether another process is writing can be computed.
Source: none: infrastructure
Kind: D -/
instance (s : Shared n maxSize) (i : Fin n) : Decidable (s.NoOverlap i) :=
  inferInstanceAs (Decidable (∀ data ∈ (s.writer i).loading, accepts s.region data = true →
    ∀ k, k ≠ i → (s.writer k).inFlight maxSize = false))

/-! ## The invariant of undisturbed runs -/

/-- What a worker in flight relies on: the size it loaded is still the stored one, and what it
copied is still there.
Source: `journal.c`, `journal_write`
Kind: D -/
def Writer.Sound (region : Region maxSize) (size : ℕ) (w : Writer) : Prop :=
  match w.pc with
  | .loaded data curSize => addSizeT curSize data.length ≤ maxSize → curSize = size
  | .fits _ curSize => curSize = size
  | .copied data curSize => curSize = size ∧ curSize + data.length ≤ maxSize ∧
      slice region.toList curSize data.length = data
  | _ => True

/-- The record a worker has stored in a call that has not returned yet.
Source: `journal.c`, `journal_write`
Kind: D -/
def Writer.unreturned (i : Fin n) (w : Writer) : List (Fin n × List UInt8) :=
  match w.pc with
  | .stored data => [(i, data)]
  | _ => []

/-- The invariant: the region holds the stored records in the order of their stores; at most one
accepted write is in flight, and nothing it relies on has changed; and the stored records of each
worker are those whose call has succeeded, in order, and the one about to return.
Source: none: infrastructure
Kind: D -/
structure Serial (s : Shared n maxSize) (order : List (Fin n × List UInt8)) : Prop where
  holds : Holds s.region (order.map Prod.snd).flatten
  sound : ∀ i, (s.writer i).Sound s.region
    (sizeofSizeT + (order.map Prod.snd).flatten.length)
  unique : ∀ i k, (s.writer i).inFlight maxSize = true → (s.writer k).inFlight maxSize = true →
    i = k
  order_eq : ∀ i, order.filter (fun r => r.1 = i) =
    s.succeeded.filter (fun r => r.1 = i) ++ (s.writer i).unreturned i

/-- A worker that is not in flight relies on nothing.
Source: `journal.c`, `journal_write`
Kind: L -/
theorem Writer.sound_of_not_inFlight {w : Writer} (h : w.inFlight maxSize = false)
    (region : Region maxSize) (size : ℕ) : w.Sound region size := by
  unfold Writer.inFlight at h
  unfold Writer.Sound
  split <;> simp_all

/-- A new journal holds no record.
Source: `journal.c`, `journal_write`
Kind: L -/
theorem Serial.init {region : Region maxSize} (h : Holds region [])
    (records : Fin n → List (List UInt8)) : Serial (Shared.init region records) [] := by
  refine ⟨h, fun _ => trivial, fun i k hi _ => ?_, fun _ => rfl⟩
  simp [Shared.init, Writer.inFlight] at hi

section step

variable {s : Shared n maxSize} {order : List (Fin n × List UInt8)} {i : Fin n}

/-- While worker `i` is in flight no other worker is.
Source: `journal.c`, `journal_write`
Kind: L -/
theorem Serial.not_inFlight (h : Serial s order) (hi : (s.writer i).inFlight maxSize = true)
    {k : Fin n} (hk : k ≠ i) : (s.writer k).inFlight maxSize = false := by
  by_contra hne
  exact hk (h.unique k i (by simpa using hne) hi)

/-- **One worker moves.** What has to be shown for a step of worker `i` to `w`, with the region
`region'` and the stored records `order'` afterwards.
Source: `journal.c`, `journal_write`
Kind: L -/
theorem Serial.move (h : Serial s order) {w : Writer} {region' : Region maxSize}
    {order' : List (Fin n × List UInt8)} {returned' : List (Fin n × List UInt8 × JournalStatus)}
    (hholds : Holds region' (order'.map Prod.snd).flatten)
    (hsound : w.Sound region' (sizeofSizeT + (order'.map Prod.snd).flatten.length))
    (hothers : ∀ k, k ≠ i → (s.writer k).Sound region'
      (sizeofSizeT + (order'.map Prod.snd).flatten.length))
    (hflight : w.inFlight maxSize = true → ∀ k, k ≠ i → (s.writer k).inFlight maxSize = false)
    (horder : ∀ k, order'.filter (fun r => r.1 = k) =
      (Shared.succeeded ⟨region', Function.update s.writer i w, returned'⟩).filter
        (fun r => r.1 = k) ++ (Function.update s.writer i w k).unreturned k) :
    Serial ⟨region', Function.update s.writer i w, returned'⟩ order' := by
  refine ⟨hholds, ?_, ?_, horder⟩
  · intro k
    by_cases hk : k = i
    · subst hk
      simpa using hsound
    · simpa [Function.update_of_ne hk] using hothers k hk
  · -- two workers in flight: at most one of them is `i`, and then the other is not in flight
    intro a b ha hb
    simp only [Function.update_apply] at ha hb
    split_ifs at ha hb with hai hbi hbi
    · rw [hai, hbi]
    · simp [hflight ha b hbi] at hb
    · simp [hflight hb a hai] at ha
    · exact h.unique a b ha hb

/-- A step that stores no record and returns from no call.
Source: `journal.c`, `journal_write`
Kind: L -/
theorem Serial.move_silent (h : Serial s order) {w : Writer} {region' : Region maxSize}
    (hholds : Holds region' (order.map Prod.snd).flatten)
    (hsound : w.Sound region' (sizeofSizeT + (order.map Prod.snd).flatten.length))
    (hothers : ∀ k, k ≠ i → (s.writer k).Sound region'
      (sizeofSizeT + (order.map Prod.snd).flatten.length))
    (hflight : w.inFlight maxSize = true → ∀ k, k ≠ i → (s.writer k).inFlight maxSize = false)
    (hpc : (s.writer i).unreturned i = w.unreturned i) :
    Serial ⟨region', Function.update s.writer i w, s.returned⟩ order := by
  apply h.move hholds hsound hothers hflight
  intro k
  rw [h.order_eq k]
  by_cases hk : k = i
  · subst hk
    simp [hpc, Shared.succeeded]
  · simp [Function.update_of_ne hk, Shared.succeeded]

/-- The return of a call: the records stored by each worker are still those that succeeded.
Source: `journal.c`, `journal_write`
Kind: L -/
theorem Serial.move_returns (h : Serial s order) {data : List UInt8} {status : JournalStatus}
    {pending : List (List UInt8)} {order' : List (Fin n × List UInt8)}
    (hflat : (order'.map Prod.snd).flatten = (order.map Prod.snd).flatten)
    (hne : ∀ k, k ≠ i → order'.filter (fun r => r.1 = k) = order.filter (fun r => r.1 = k))
    (heq : order'.filter (fun r => r.1 = i) = s.succeeded.filter (fun r => r.1 = i) ++
      if status = .success then [(i, data)] else []) :
    Serial (s.returns i data status pending) order' := by
  have hsucc : (s.returns i data status pending).succeeded =
      s.succeeded ++ if status = .success then [(i, data)] else [] := by
    simp only [Shared.returns, Shared.succeeded, List.filter_append, List.map_append]
    congr 1
    split_ifs with hs <;> simp [hs]
  refine h.move (hflat ▸ h.holds) trivial (fun k _ => hflat ▸ h.sound k) (fun hw => ?_)
    fun k => ?_
  · simp [Writer.inFlight] at hw
  · change _ = (s.returns i data status pending).succeeded.filter (fun r => r.1 = k) ++ _
    rw [hsucc, List.filter_append]
    by_cases hk : k = i
    · subst hk
      rw [heq]
      split_ifs <;> simp [Writer.unreturned]
    · rw [hne k hk, h.order_eq k, Function.update_of_ne hk]
      have hnone : ([(i, data)] : List (Fin n × List UInt8)).filter (fun r => r.1 = k) = [] := by
        simp [Ne.symm hk]
      split_ifs <;> simp [hnone]

/-- A process that takes its next record: an empty one returns at once, another one waits for the
mutex.
Source: `journal.c`, `journal_write`
Kind: L -/
theorem Serial.step_idle {s' : Shared n maxSize} (h : Serial s order)
    (hpc : (s.writer i).pc = .idle) (hstep : s.step i = some s') :
    ∃ order', Serial s' order' := by
  simp only [Shared.step, hpc] at hstep
  have hnone : (s.writer i).unreturned i = [] := by simp [Writer.unreturned, hpc]
  cases hpend : (s.writer i).pending with
  | nil => simp [hpend] at hstep
  | cons data rest =>
      simp only [hpend] at hstep
      split_ifs at hstep with hzero hmutex
      · -- an empty record: the call returns at once and stores nothing
        obtain rfl := Option.some.inj hstep
        have hdata := List.length_eq_zero_iff.mp hzero
        refine ⟨order ++ [(i, data)], h.move_returns ?_ ?_ ?_⟩
        · simp [hdata]
        · intro k hk
          simp [List.filter_append, Ne.symm hk]
        · rw [List.filter_append, h.order_eq i, hnone]
          simp
      · obtain rfl := Option.some.inj hstep
        refine ⟨order, h.move_silent h.holds trivial (fun k _ => h.sound k) (fun hw => ?_) ?_⟩
        · simp [Writer.inFlight] at hw
        · simp [Writer.unreturned, hpc]

/-- The store of the new size, which makes the record the last one.
Source: `journal.c`, `journal_write`
Kind: L -/
theorem Serial.step_copied {s' : Shared n maxSize} (h : Serial s order) {data : List UInt8}
    {curSize : ℕ} (hpc : (s.writer i).pc = .copied data curSize) (hstep : s.step i = some s') :
    ∃ order', Serial s' order' := by
  have hsound := h.sound i
  simp only [Shared.step, hpc, Option.bind_eq_bind, Option.bind_eq_some_iff] at hstep
  obtain ⟨region, hstore, hs'⟩ := hstep
  obtain rfl := Option.some.inj hs'
  simp only [Writer.Sound, hpc] at hsound
  obtain ⟨rfl, hroom, hdata⟩ := hsound
  have hflight : (s.writer i).inFlight maxSize = true := by simp [Writer.inFlight, hpc]
  have h64 := h.holds.size_t
  have hadd : addSizeT (sizeofSizeT + (order.map Prod.snd).flatten.length) data.length =
      sizeofSizeT + (order.map Prod.snd).flatten.length + data.length :=
    addSizeT_of_lt (by omega)
  obtain ⟨region', hstore', hholds⟩ := h.holds.storeSize hdata hroom
  rw [hadd, hstore'] at hstore
  obtain rfl := Option.some.inj hstore
  have hflat : ((order ++ [(i, data)]).map Prod.snd).flatten =
      (order.map Prod.snd).flatten ++ data := by simp
  refine ⟨order ++ [(i, data)], h.move (hflat ▸ hholds) trivial
    (fun k hk => Writer.sound_of_not_inFlight (h.not_inFlight hflight hk) _ _)
    (fun hw => by simp [Writer.inFlight] at hw) fun k => ?_⟩
  rw [List.filter_append, h.order_eq k]
  by_cases hk : k = i
  · subst hk
    simp [Writer.unreturned, hpc, Shared.succeeded]
  · simp [Function.update_of_ne hk, Ne.symm hk, Shared.succeeded]

/-- **One step keeps the invariant**, if it is undisturbed.
Source: `journal.c`, `journal_write`
Kind: P -/
theorem Serial.step {s' : Shared n maxSize} (h : Serial s order) (hno : s.NoOverlap i)
    (hstep : s.step i = some s') : ∃ order', Serial s' order' := by
  have hsound := h.sound i
  cases hpc : (s.writer i).pc with
  | idle => exact h.step_idle hpc hstep
  | locked data =>
      -- the load: the size is the stored one, and nobody else is in flight if it will be accepted
      simp only [Shared.step, hpc, h.holds.loadSize, Option.bind_some, Option.bind_eq_bind] at hstep
      obtain rfl := Option.some.inj hstep
      refine ⟨order, h.move_silent h.holds (fun _ => rfl) (fun k _ => h.sound k) (fun hw => ?_) ?_⟩
      · refine hno data (by simp [Writer.loading, hpc]) ?_
        simpa [accepts, h.holds.loadSize, Writer.inFlight] using hw
      · simp [Writer.unreturned, hpc]
  | loaded data curSize =>
      simp only [Shared.step, hpc] at hstep
      simp only [Writer.Sound, hpc] at hsound
      split_ifs at hstep with hfull
      · obtain rfl := Option.some.inj hstep
        refine ⟨order, h.move_silent h.holds trivial (fun k _ => h.sound k) (fun hw => ?_) ?_⟩
        · simp [Writer.inFlight] at hw
        · simp [Writer.unreturned, hpc]
      · obtain rfl := Option.some.inj hstep
        have hle : addSizeT curSize data.length ≤ maxSize := not_lt.mp hfull
        have hflight : (s.writer i).inFlight maxSize = true := by simp [Writer.inFlight, hpc, hle]
        refine ⟨order, h.move_silent h.holds (hsound hle) (fun k _ => h.sound k)
          (fun _ k hk => h.not_inFlight hflight hk) ?_⟩
        simp [Writer.unreturned, hpc]
  | fits data curSize =>
      simp only [Shared.step, hpc, Option.bind_eq_bind, Option.bind_eq_some_iff] at hstep
      obtain ⟨region, hstore, hs'⟩ := hstep
      obtain rfl := Option.some.inj hs'
      simp only [Writer.Sound, hpc] at hsound
      subst hsound
      have hflight : (s.writer i).inFlight maxSize = true := by simp [Writer.inFlight, hpc]
      obtain ⟨hholds, hdata⟩ := h.holds.copy hstore
      refine ⟨order, h.move_silent hholds ⟨rfl, (storeVec_eq_some hstore).1, hdata⟩
        (fun k hk => Writer.sound_of_not_inFlight (h.not_inFlight hflight hk) _ _)
        (fun _ k hk => h.not_inFlight hflight hk) ?_⟩
      simp [Writer.unreturned, hpc]
  | copied data curSize => exact h.step_copied hpc hstep
  | stored data =>
      simp only [Shared.step, hpc] at hstep
      obtain rfl := Option.some.inj hstep
      refine ⟨order, h.move_returns rfl (fun _ _ => rfl) ?_⟩
      rw [h.order_eq i]
      simp [Writer.unreturned, hpc]
  | refused data =>
      simp only [Shared.step, hpc] at hstep
      obtain rfl := Option.some.inj hstep
      refine ⟨order, h.move_returns rfl (fun _ _ => rfl) ?_⟩
      rw [h.order_eq i]
      simp [Writer.unreturned, hpc]

end step

/-- Two histories with the same records of every worker have the same records.
Source: `journal.c`, `journal_write`
Kind: L -/
theorem perm_of_filter_eq {l l' : List (Fin n × List UInt8)}
    (h : ∀ i, l.filter (fun r => r.1 = i) = l'.filter (fun r => r.1 = i)) : l.Perm l' := by
  rw [List.perm_iff_count]
  rintro ⟨i, data⟩
  have hcount : ∀ l : List (Fin n × List UInt8),
      (l.filter fun r => r.1 = i).count (i, data) = l.count (i, data) :=
    fun l => List.count_filter (by simp)
  rw [← hcount l, h i, hcount l']

/-- **No record is lost by undisturbed writers.** For every number of workers, every assignment of
records and every interleaving in which accepted writes are undisturbed: once all calls have
returned, the journal is the concatenation, in some order, of exactly the records whose write
succeeded.
Source: `journal.c`, `journal_write`; `server.c`, `main`
Kind: P
Hyps: `NoOverlap` before every step -/
theorem no_record_lost (n maxSize : ℕ) (h64 : maxSize < 2 ^ 64)
    (records : Fin n → List (List UInt8)) (region : Region maxSize)
    (hcreate : journalCreate .allOk maxSize = some ⟨maxSize, region⟩) (sched : List (Fin n))
    (s : Shared n maxSize)
    (hrun : Run Shared.step Shared.NoOverlap (Shared.init region records) sched s)
    (hdone : s.AllReturned) : s.NoRecordLost := by
  have hholds := holds_of_journalCreate h64 hcreate
  obtain ⟨order, h⟩ := hrun.invariant (I := fun s => ∃ order, Serial s order)
    ⟨[], Serial.init hholds records⟩ (fun _ _ _ ⟨_, h⟩ hno hstep => h.step hno hstep)
  refine ⟨order, ?_, h.holds.journalContent⟩
  apply perm_of_filter_eq
  intro i
  rw [h.order_eq i]
  simp [Writer.unreturned, (hdone i).1]

/-! ## Two workers with one record each -/

/-- A fresh region of ten bytes.
Source: none: infrastructure
Kind: D -/
def tenBytes : Region 10 := ⟨[8, 0, 0, 0, 0, 0, 0, 0, 0, 0], rfl⟩

/-- Worker `0` writes the record `1`, worker `1` the record `2`.
Source: none: infrastructure
Kind: D -/
def oneRecordEach : Fin 2 → List (List UInt8) := ![[[1]], [[2]]]

/-- All calls have returned, both with success, and the journal is `content`.
Source: none: infrastructure
Kind: D -/
def bothSucceeded (content : List UInt8) (s : Shared 2 10) : Bool :=
  decide (∀ i, (s.writer i).pc = .idle ∧ (s.writer i).pending = []) &&
    decide (s.succeeded = [(0, [1]), (1, [2])]) && decide (journalContent s.region = content)

/-- One after the other, both records are there.
Source: `journal.c`, `journal_write`
Kind: C -/
theorem no_record_lost_in_turn :
    ∃ s : Shared 2 10, s.AllReturned ∧ s.succeeded = [(0, [1]), (1, [2])] ∧ s.NoRecordLost := by
  have htrace : (exec Shared.step Shared.NoOverlap (Shared.init tenBytes oneRecordEach)
      [0, 0, 0, 0, 0, 0, 1, 1, 1, 1, 1, 1]).map (bothSucceeded [1, 2]) = some true := by decide
  obtain ⟨s, hrun, hs⟩ := Run.exists_of_exec htrace
  simp only [bothSucceeded, Bool.and_eq_true, decide_eq_true_eq] at hs
  exact ⟨s, hs.1.1, hs.1.2,
    no_record_lost 2 10 (by norm_num) oneRecordEach tenBytes rfl _ s hrun hs.1.1⟩

/-- **A record is lost.** Worker `1` loads the size after worker `0` has loaded it and before
worker `0` has stored the new one: both copy to the same place, both calls succeed, and the
journal holds one record.
Source: `journal.c`, `journal_write`: the mutex is in the private `journal_t`, although
`journal_create` makes it `PTHREAD_PROCESS_SHARED`
Kind: C -/
theorem record_lost_by_overlap :
    ∃ (sched : List (Fin 2)) (s : Shared 2 10),
      journalCreate .allOk 10 = some ⟨10, tenBytes⟩ ∧
      Run Shared.step (fun _ _ => True) (Shared.init tenBytes oneRecordEach) sched s ∧
      s.AllReturned ∧ ¬ s.NoRecordLost := by
  have htrace : (exec Shared.step (fun _ _ => True) (Shared.init tenBytes oneRecordEach)
      [0, 0, 1, 1, 0, 0, 0, 0, 1, 1, 1, 1]).map (bothSucceeded [2]) = some true := by decide
  obtain ⟨s, hrun, hs⟩ := Run.exists_of_exec htrace
  simp only [bothSucceeded, Bool.and_eq_true, decide_eq_true_eq] at hs
  refine ⟨_, s, rfl, hrun, hs.1.1, ?_⟩
  rintro ⟨order, hperm, hcontent⟩
  have hlen := (hperm.map Prod.snd).flatten.length_eq
  rw [← hcontent, hs.1.2, hs.2] at hlen
  simp at hlen

/-! ## The steps of one worker are the sequential write -/

/-- **The step model refines the sequential one**: a worker that takes its steps in a row does
what `journalWrite` does.
Source: `journal.c`, `journal_write`
Kind: P -/
theorem solo_write {s : Shared n maxSize} {i : Fin n} {data : List UInt8}
    {rest : List (List UInt8)} {status : JournalStatus} {j : Journal}
    (hidle : s.writer i = ⟨false, .idle, data :: rest⟩)
    (h : journalWrite .allOk ⟨maxSize, s.region⟩ data = some (status, j)) :
    ∃ (k : ℕ) (region : Region maxSize), j = ⟨maxSize, region⟩ ∧
      exec Shared.step (fun _ _ => True) s (List.replicate k i) =
        some ({ s with region := region }.returns i data status rest) := by
  simp only [journalWrite, JournalCalls.allOk_lock, JournalCalls.allOk_unlock, Bool.not_true,
    Bool.false_eq_true, if_false] at h
  split_ifs at h with hzero
  · obtain ⟨rfl, rfl⟩ := Prod.mk.inj (Option.some.inj h)
    exact ⟨1, s.region, rfl, by simp [exec, Shared.step, hidle, hzero]⟩
  · simp only [Option.bind_eq_bind, Option.bind_eq_some_iff] at h
    obtain ⟨curSize, hload, h⟩ := h
    split_ifs at h with hfull
    · -- lock, load, failed check, return
      obtain ⟨rfl, rfl⟩ := Prod.mk.inj (Option.some.inj h)
      refine ⟨4, s.region, rfl, ?_⟩
      simp [exec, List.replicate, Shared.step, Shared.set, Shared.returns, hidle, hzero, hload,
        hfull]
    · -- lock, load, check, copy, store, return
      simp only [Option.bind_eq_some_iff] at h
      obtain ⟨copied, hcopy, stored, hstore, h⟩ := h
      obtain ⟨rfl, rfl⟩ := Prod.mk.inj (Option.some.inj h)
      refine ⟨6, stored, rfl, ?_⟩
      simp [exec, List.replicate, Shared.step, Shared.set, Shared.returns, hidle, hzero, hload,
        hfull, hcopy, hstore]

end CpuMonitor.Server
