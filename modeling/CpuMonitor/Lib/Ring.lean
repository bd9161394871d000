import Mathlib

/-!
# Circular windows

A ring of cells `cells : List (Option α)` (`none` is a cell never written), read from `head`
onwards and wrapping around. `Window cells head xs` says that the cells from `head` on hold
`xs`; it is the representation relation of every queue kept in a ring.

* `Window.head`, `Window.drop` — the front is in the head cell, and dropping from the front only
  moves the head;
* `Window.snoc` — writing the cell after the window appends to it, as long as a cell is free.
-/

namespace CpuMonitor.Lib

variable {α : Type*}

/-- Read a cell: `none` outside the ring and at a cell never written.
Source: none: infrastructure
Kind: D -/
def readCell (cells : List (Option α)) (i : ℕ) : Option α := cells[i]?.join

/-- Write a cell: `none` outside the ring.
Source: none: infrastructure
Kind: D -/
def writeCell (cells : List (Option α)) (i : ℕ) (x : α) : Option (List (Option α)) :=
  if i < cells.length then some (cells.set i (some x)) else none

/-- The cells of a ring from `head` on hold `xs`.
Source: none: infrastructure
Kind: D -/
def Window (cells : List (Option α)) (head : ℕ) (xs : List α) : Prop :=
  ∀ (i : ℕ) (h : i < xs.length), readCell cells ((head + i) % cells.length) = some xs[i]

/-- Two different offsets below the size of the ring fall on different cells.
Source: none: infrastructure
Kind: L -/
theorem add_mod_ne {n h i j : ℕ} (hij : i < j) (hj : j < n) : (h + i) % n ≠ (h + j) % n := by
  intro heq
  have hdvd : n ∣ (h + j) - (h + i) :=
    (Nat.modEq_iff_dvd' (by omega)).mp (show h + i ≡ h + j [MOD n] from heq)
  have := Nat.le_of_dvd (by omega) hdvd
  omega

/-- An empty window lies anywhere.
Source: none: infrastructure
Kind: L -/
theorem Window.nil (cells : List (Option α)) (head : ℕ) : Window cells head [] :=
  fun _ h => absurd h (Nat.not_lt_zero _)

/-- The front of the window is in the head cell.
Source: none: infrastructure
Kind: L -/
theorem Window.head {cells : List (Option α)} {head : ℕ} {x : α} {xs : List α}
    (h : Window cells head (x :: xs)) (hh : head < cells.length) :
    readCell cells head = some x := by
  have h0 := h 0 (by simp)
  rw [Nat.add_zero, Nat.mod_eq_of_lt hh] at h0
  simpa using h0

/-- Dropping `k` elements moves the head by `k`, around the ring.
Source: none: infrastructure
Kind: L -/
theorem Window.drop {cells : List (Option α)} {head : ℕ} {xs : List α}
    (h : Window cells head xs) (k : ℕ) :
    Window cells ((head + k) % cells.length) (xs.drop k) := by
  intro i hi
  rw [List.length_drop] at hi
  have := h (k + i) (by omega)
  rw [Nat.mod_add_mod, Nat.add_assoc, this, List.getElem_drop]

/-- Writing the cell after the window appends to it; a free cell must remain, so that the write
does not hit the window itself.
Source: none: infrastructure
Kind: P -/
theorem Window.snoc {cells : List (Option α)} {head : ℕ} {xs : List α}
    (h : Window cells head xs) (hlt : xs.length < cells.length) (x : α) :
    Window (cells.set ((head + xs.length) % cells.length) (some x)) head (xs ++ [x]) := by
  intro i hi
  rw [List.length_append, List.length_singleton] at hi
  by_cases hx : i < xs.length
  · have hi' := h i hx
    rw [readCell] at hi' ⊢
    rw [List.length_set, List.getElem?_set, if_neg (add_mod_ne hx hlt).symm, hi',
      List.getElem_append_left hx]
  · have hi' : i = xs.length := by omega
    subst hi'
    rw [readCell, List.length_set, List.getElem?_set, if_pos rfl,
      if_pos (Nat.mod_lt _ (by omega))]
    simp

/-- The `n` elements of the ring from `head` on (cells never written are skipped).
Source: none: infrastructure
Kind: D -/
def windowList (cells : List (Option α)) (head n : ℕ) : List α :=
  (List.range n).filterMap fun i => readCell cells ((head + i) % cells.length)

/-- Reading a list position by position gives the list back.
Source: none: infrastructure
Kind: L -/
theorem filterMap_range_getElem? (xs : List α) :
    ((List.range xs.length).filterMap fun i => xs[i]?) = xs := by
  induction xs using List.reverseRecOn with
  | nil => rfl
  | append_singleton xs x ih =>
      have hread : ∀ i ∈ List.range xs.length, (xs ++ [x])[i]? = xs[i]? := by
        intro i hi
        exact List.getElem?_append_left (List.mem_range.mp hi)
      rw [List.length_append, List.length_singleton, List.range_succ, List.filterMap_append,
        List.filterMap_congr hread, ih]
      simp

/-- A window is read back as the list it holds.
Source: none: infrastructure
Kind: P -/
theorem Window.windowList_eq {cells : List (Option α)} {head : ℕ} {xs : List α}
    (h : Window cells head xs) : windowList cells head xs.length = xs := by
  have hread : ∀ i ∈ List.range xs.length,
      readCell cells ((head + i) % cells.length) = xs[i]? := by
    intro i hi
    rw [List.mem_range] at hi
    rw [h i hi, List.getElem?_eq_getElem hi]
  rw [windowList, List.filterMap_congr hread, filterMap_range_getElem?]

end CpuMonitor.Lib
