import Mathlib

/-!
# A mutex with a condition variable

Threads `τ` share a mutex and one condition variable. The thread that holds the mutex is at some
point `ρ` of its critical section; a thread in `blocked` waits for a signal, one in `woken` has been
woken and waits for the mutex. No thread is in two of the three places, and the structure says so.
Nothing here names a program.

* **The operations** `lock`, `move`, `unlock`, `wait`, `signal`, `wake`, `relock`, as `pthread`
  specifies them: `wait` releases the mutex and blocks in one step, `signal` wakes at least one
  blocked thread if there is one, `wake` without a signal is a spurious wake-up.
* **Coverage** `Monitor.Covers size credit`: while a thread is blocked, the items a shared object
  holds are at most the woken threads and the `credit` that the holder of the mutex still owes. One
  lemma for each operation says how the credit moves.
-/

namespace CpuMonitor.Lib

/-- A mutex with one condition variable, at one moment.
Source: none: infrastructure
Kind: D -/
structure Monitor (τ ρ : Type*) where
  /-- The thread that holds the mutex, and where it is. -/
  holder : Option (τ × ρ)
  /-- The threads that wait for a signal. -/
  blocked : Finset τ
  /-- The threads that have been woken and do not have the mutex yet. -/
  woken : Finset τ
  disjoint : Disjoint blocked woken
  holder_outside : ∀ x ∈ holder, x.1 ∉ blocked ∧ x.1 ∉ woken

namespace Monitor

variable {τ ρ : Type*}

/-! ## The holder of the mutex -/

/-- A free mutex has no holder among the sleepers.
Source: none: infrastructure
Kind: L -/
theorem outside_none (blocked woken : Finset τ) :
    ∀ x ∈ (none : Option (τ × ρ)), x.1 ∉ blocked ∧ x.1 ∉ woken := by
  intro x hx
  simp at hx

/-- Nobody is in the monitor.
Source: none: infrastructure
Kind: D -/
def free : Monitor τ ρ := ⟨none, ∅, ∅, disjoint_bot_left, outside_none ∅ ∅⟩

/-- The holder goes on to `r`.
Source: none: infrastructure
Kind: D -/
def move (m : Monitor τ ρ) (r : ρ) : Monitor τ ρ :=
  { m with
    holder := m.holder.map fun x => (x.1, r)
    holder_outside := by
      intro x hx
      obtain ⟨y, hy, rfl⟩ := Option.mem_map.mp hx
      exact m.holder_outside y hy }

/-- The holder releases the mutex.
Source: none: infrastructure
Kind: D -/
def unlock (m : Monitor τ ρ) : Monitor τ ρ :=
  { m with holder := none, holder_outside := outside_none m.blocked m.woken }

/-- The holder moves on to another place and stays the holder.
Source: none: infrastructure
Kind: L -/
theorem holder_move {m : Monitor τ ρ} {t : τ} {r r' : ρ} (h : m.holder = some (t, r)) :
    (m.move r').holder = some (t, r') := by
  show m.holder.map _ = _
  rw [h, Option.map_some]

/-! ## Entering, waiting and waking -/

section operations

variable [DecidableEq τ]

/-- Thread `t`, which is not in the monitor, takes the mutex.
Source: none: infrastructure
Kind: D -/
def lock (m : Monitor τ ρ) (t : τ) (r : ρ) : Option (Monitor τ ρ) :=
  if h : m.holder.isNone ∧ t ∉ m.blocked ∧ t ∉ m.woken then
    some { m with
      holder := some (t, r)
      holder_outside := by
        intro x hx
        obtain rfl := Option.mem_some.mp hx
        exact h.2 }
  else none

/-- The holder releases the mutex and blocks.
Source: none: infrastructure
Kind: D -/
def wait (m : Monitor τ ρ) : Monitor τ ρ :=
  match h : m.holder with
  | none => m
  | some (t, _) =>
      { holder := none
        blocked := insert t m.blocked
        woken := m.woken
        disjoint := by
          rw [Finset.disjoint_insert_left]
          exact ⟨(m.holder_outside _ h).2, m.disjoint⟩
        holder_outside := outside_none _ m.woken }

/-- The blocked threads `ts` are woken.
Source: none: infrastructure
Kind: D -/
def wake (m : Monitor τ ρ) (ts : Finset τ) : Option (Monitor τ ρ) :=
  if h : ts ⊆ m.blocked then
    some { m with
      blocked := m.blocked \ ts
      woken := m.woken ∪ ts
      disjoint := by
        rw [Finset.disjoint_union_right]
        exact ⟨m.disjoint.mono_left Finset.sdiff_subset, Finset.sdiff_disjoint⟩
      holder_outside := by
        intro x hx
        obtain ⟨hblocked, hwoken⟩ := m.holder_outside x hx
        refine ⟨fun hmem => hblocked (Finset.sdiff_subset hmem), ?_⟩
        rw [Finset.mem_union, not_or]
        exact ⟨hwoken, fun hmem => hblocked (h hmem)⟩ }
  else none

/-- A signal wakes the blocked threads `ts`, at least one if there is one.
Source: none: infrastructure
Kind: D -/
def signal (m : Monitor τ ρ) (ts : Finset τ) : Option (Monitor τ ρ) :=
  if m.blocked.Nonempty → ts.Nonempty then m.wake ts else none

/-- The woken thread `t` gets the mutex back.
Source: none: infrastructure
Kind: D -/
def relock (m : Monitor τ ρ) (t : τ) (r : ρ) : Option (Monitor τ ρ) :=
  if h : m.holder.isNone ∧ t ∈ m.woken then
    some { m with
      holder := some (t, r)
      woken := m.woken.erase t
      disjoint := m.disjoint.mono_right (Finset.erase_subset t m.woken)
      holder_outside := by
        intro x hx
        obtain rfl := Option.mem_some.mp hx
        exact ⟨Finset.disjoint_right.mp m.disjoint h.2, Finset.notMem_erase t m.woken⟩ }
  else none

variable {m m' : Monitor τ ρ} {t : τ} {r : ρ}

/-- A lock is taken from nobody and makes the thread the holder.
Source: none: infrastructure
Kind: L -/
theorem holder_of_lock (h : m.lock t r = some m') :
    m.holder = none ∧ m'.holder = some (t, r) := by
  unfold lock at h
  split_ifs at h with hlock
  obtain rfl := Option.some.inj h
  exact ⟨Option.isNone_iff_eq_none.mp hlock.1, rfl⟩

/-- So is one that is taken again after a wait.
Source: none: infrastructure
Kind: L -/
theorem holder_of_relock (h : m.relock t r = some m') :
    m.holder = none ∧ m'.holder = some (t, r) := by
  unfold relock at h
  split_ifs at h with hrelock
  obtain rfl := Option.some.inj h
  exact ⟨Option.isNone_iff_eq_none.mp hrelock.1, rfl⟩

/-- A wake-up leaves the holder as it is.
Source: none: infrastructure
Kind: L -/
theorem holder_of_wake {ts : Finset τ} (h : m.wake ts = some m') : m'.holder = m.holder := by
  unfold wake at h
  split_ifs at h
  obtain rfl := Option.some.inj h
  rfl

/-- A signal leaves the holder as it is.
Source: none: infrastructure
Kind: L -/
theorem holder_of_signal {ts : Finset τ} (h : m.signal ts = some m') : m'.holder = m.holder := by
  unfold signal at h
  split_ifs at h
  exact holder_of_wake h

end operations

/-! ## Coverage -/

/-- While a thread is blocked, at most the woken threads and `credit` more are needed for `size`
items.
Source: none: infrastructure
Kind: D -/
def Covers (m : Monitor τ ρ) (size credit : ℕ) : Prop :=
  m.blocked.Nonempty → size ≤ m.woken.card + credit

section covers

variable {m m' : Monitor τ ρ} {size credit : ℕ}

/-- A thread may wait when there is nothing.
Source: none: infrastructure
Kind: L -/
theorem Covers.zero (m : Monitor τ ρ) (credit : ℕ) : m.Covers 0 credit := fun _ => Nat.zero_le _

/-- Items that come need credit, items that go give some back.
Source: none: infrastructure
Kind: L -/
theorem Covers.mono (h : m.Covers size credit) {size' credit' : ℕ}
    (hle : size' + credit ≤ size + credit') : m.Covers size' credit' := by
  intro hblocked
  have hsize := h hblocked
  omega

/-- A move of the holder wakes nobody and blocks nobody.
Source: none: infrastructure
Kind: L -/
theorem Covers.move (h : m.Covers size credit) (r : ρ) : (m.move r).Covers size credit := h

/-- An unlock wakes nobody and blocks nobody.
Source: none: infrastructure
Kind: L -/
theorem Covers.unlock (h : m.Covers size credit) : m.unlock.Covers size credit := h

variable [DecidableEq τ] {t : τ} {r : ρ} {ts : Finset τ}

/-- A lock wakes nobody and blocks nobody.
Source: none: infrastructure
Kind: L -/
theorem Covers.lock (h : m.Covers size credit) (hlock : m.lock t r = some m') :
    m'.Covers size credit := by
  unfold Monitor.lock at hlock
  split_ifs at hlock
  obtain rfl := Option.some.inj hlock
  exact h

/-- A wake-up, spurious or not, covers as many items as it wakes threads.
Source: none: infrastructure
Kind: L -/
theorem Covers.wake (h : m.Covers size (credit + ts.card)) (hwake : m.wake ts = some m') :
    m'.Covers size credit := by
  unfold Monitor.wake at hwake
  split_ifs at hwake with hsub
  obtain rfl := Option.some.inj hwake
  intro hblocked
  have hsize := h (hblocked.mono Finset.sdiff_subset)
  have hcard : (m.woken ∪ ts).card = m.woken.card + ts.card :=
    Finset.card_union_of_disjoint (m.disjoint.symm.mono_right hsub)
  show size ≤ (m.woken ∪ ts).card + credit
  omega

/-- A signal pays one item of the credit.
Source: none: infrastructure
Kind: L -/
theorem Covers.signal (h : m.Covers size (credit + 1)) (hsignal : m.signal ts = some m') :
    m'.Covers size credit := by
  unfold Monitor.signal at hsignal
  split_ifs at hsignal with hnonempty
  by_cases hblocked : m.blocked.Nonempty
  · have hpos := (hnonempty hblocked).card_pos
    have hcovers : m.Covers size (credit + ts.card) := h.mono (by omega)
    exact hcovers.wake hsignal
  · -- nobody is blocked, before or after
    unfold Monitor.wake at hsignal
    split_ifs at hsignal
    obtain rfl := Option.some.inj hsignal
    intro hblocked'
    exact absurd (hblocked'.mono Finset.sdiff_subset) hblocked

/-- A woken thread that gets the mutex owes one item.
Source: none: infrastructure
Kind: L -/
theorem Covers.relock (h : m.Covers size credit) (hrelock : m.relock t r = some m') :
    m'.Covers size (credit + 1) := by
  unfold Monitor.relock at hrelock
  split_ifs at hrelock with hwoken
  obtain rfl := Option.some.inj hrelock
  intro hblocked
  have hsize := h hblocked
  have hcard := Finset.card_erase_add_one hwoken.2
  show size ≤ (m.woken.erase t).card + (credit + 1)
  omega

end covers

end Monitor

end CpuMonitor.Lib
