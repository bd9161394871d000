import Mathlib

/-!
# Objects numbered in the order of their arrival

The `n`-th arrival gets the number `n`. A system moves the numbers from place to place, drops some
of them and never makes one up, so what it holds is a list of numbers below the number of arrivals.

* `Ordered p n` — the list `p` is increasing and below `n`: nothing was duplicated, nothing
  overtaken. Kept when the list loses members and when the next number arrives (`Advance`,
  `Ordered.advance`).
* `Distinct p n` — the members of `p` are different and below `n`: nothing was duplicated. Kept when
  no number occurs more often than before (`Distinct.of_count_le`) and when the next one arrives
  (`Distinct.arrival`).
-/

namespace CpuMonitor.Lib

variable {p p' : List ℕ} {n n' : ℕ}

/-- The next arrival is below the next bound.
Source: none: infrastructure
Kind: L -/
theorem forall_lt_snoc (h : ∀ x ∈ p, x < n) : ∀ x ∈ p ++ [n], x < n + 1 := by
  intro x hx
  rcases List.mem_append.mp hx with hx | hx
  · exact Nat.lt_succ_of_lt (h x hx)
  · rw [List.mem_singleton.mp hx]
    exact Nat.lt_succ_self n

/-! ## In order -/

/-- Increasing numbers of earlier arrivals.
Source: none: infrastructure
Kind: D -/
structure Ordered (p : List ℕ) (n : ℕ) : Prop where
  increasing : p.Pairwise (· < ·)
  lt : ∀ x ∈ p, x < n

/-- From `p`, after `n` arrivals, to another list: some numbers are gone, or the next one has
arrived.
Source: none: infrastructure
Kind: D -/
inductive Advance (p : List ℕ) (n : ℕ) : List ℕ → ℕ → Prop
  | sublist {p' : List ℕ} : p'.Sublist p → Advance p n p' n
  | arrival : Advance p n (p ++ [n]) (n + 1)

/-- The empty list is in order.
Source: none: infrastructure
Kind: L -/
theorem Ordered.nil (n : ℕ) : Ordered [] n := ⟨.nil, by simp⟩

/-- Order is kept by an advance.
Source: none: infrastructure
Kind: P -/
theorem Ordered.advance (h : Ordered p n) (ha : Advance p n p' n') : Ordered p' n' := by
  cases ha with
  | sublist hsub => exact ⟨h.increasing.sublist hsub, fun x hx => h.lt x (hsub.subset hx)⟩
  | arrival =>
      refine ⟨List.pairwise_append.mpr ⟨h.increasing, List.pairwise_singleton _ _, ?_⟩,
        forall_lt_snoc h.lt⟩
      intro x hx y hy
      rw [List.mem_singleton.mp hy]
      exact h.lt x hx

/-- A part of an ordered list is ordered.
Source: none: infrastructure
Kind: L -/
theorem Ordered.sublist (h : Ordered p n) (hsub : p'.Sublist p) : Ordered p' n :=
  h.advance (.sublist hsub)

/-! ## Without duplicates -/

/-- Different numbers of earlier arrivals.
Source: none: infrastructure
Kind: D -/
structure Distinct (p : List ℕ) (n : ℕ) : Prop where
  nodup : p.Nodup
  lt : ∀ x ∈ p, x < n

/-- The empty list has no number twice.
Source: none: infrastructure
Kind: L -/
theorem Distinct.nil (n : ℕ) : Distinct [] n := ⟨.nil, by simp⟩

/-- Numbers of which none occurs more often than before stay distinct.
Source: none: infrastructure
Kind: L -/
theorem Distinct.of_count_le (h : Distinct p n) (hle : ∀ x, p'.count x ≤ p.count x) :
    Distinct p' n := by
  have hsub : p'.Subperm p := List.subperm_iff_count.mpr hle
  refine ⟨?_, fun x hx => h.lt x (hsub.subset hx)⟩
  rw [List.nodup_iff_count_le_one]
  intro x
  exact (hle x).trans (List.nodup_iff_count_le_one.mp h.nodup x)

/-- The next number is a new one.
Source: none: infrastructure
Kind: L -/
theorem Distinct.arrival (h : Distinct p n) : Distinct (p ++ [n]) (n + 1) := by
  have hnotMem : n ∉ p := fun hn => lt_irrefl n (h.lt n hn)
  refine ⟨List.nodup_append.mpr ⟨h.nodup, List.nodup_singleton n, ?_⟩, forall_lt_snoc h.lt⟩
  intro x hx y hy
  rw [List.mem_singleton.mp hy]
  intro hxn
  exact hnotMem (hxn ▸ hx)

end CpuMonitor.Lib
