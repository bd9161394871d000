import Mathlib

/-!
# Runs of a step function

A system is a step function `step : σ → ℓ → Option σ` over labels `ℓ`: a label names the party
that moves and what its environment answers, `none` means that the label is not enabled (or that
the step has no defined outcome). A **run** is a list of labels all of whose steps are enabled and
meet a condition `ok` on the state before the step and the label; `fun _ _ => True` gives all runs.

* `Run step ok s₀ ls s` — the run `ls` leads from `s₀` to `s`;
* `Run.invariant` — what holds at the start and is kept by every step that meets `ok` holds in
  every state reached;
* `Run.simulate` — a run of one system, step by step, as a run of another; `Run.embed` — a run of a
  part of a system as a run of the whole;
* `Run.countP_add_le`, `Run.exists_countP` — a party whose steps lower a rank takes finitely many,
  one that can always move takes any number;
* `exec step ok` — the run as a computation, for concrete traces (`Run.of_exec`).
-/

namespace CpuMonitor.Lib

variable {σ ℓ : Type*}

/-- The runs from `s₀` whose steps all meet `ok`, with the labels taken and the state reached.
Source: none: infrastructure
Kind: D -/
inductive Run (step : σ → ℓ → Option σ) (ok : σ → ℓ → Prop) (s₀ : σ) : List ℓ → σ → Prop
  | nil : Run step ok s₀ [] s₀
  | snoc {ls : List ℓ} {s : σ} {l : ℓ} {s' : σ} : Run step ok s₀ ls s → ok s l →
      step s l = some s' → Run step ok s₀ (ls ++ [l]) s'

section

variable {step : σ → ℓ → Option σ} {ok : σ → ℓ → Prop} {s₀ : σ}

/-- **The invariant rule.** A predicate that holds at the start and is kept by every step that
meets `ok` holds in every state of every such run.
Source: none: infrastructure
Kind: P -/
theorem Run.invariant {I : σ → Prop} (h₀ : I s₀)
    (hstep : ∀ s l s', I s → ok s l → step s l = some s' → I s') {ls : List ℓ} {s : σ}
    (h : Run step ok s₀ ls s) : I s := by
  induction h with
  | nil => exact h₀
  | snoc _ hok hs ih => exact hstep _ _ _ ih hok hs

/-- A run whose steps meet `ok` meets every weaker condition.
Source: none: infrastructure
Kind: L -/
theorem Run.mono {ok' : σ → ℓ → Prop} (hle : ∀ s l, ok s l → ok' s l) {ls : List ℓ} {s : σ}
    (h : Run step ok s₀ ls s) : Run step ok' s₀ ls s := by
  induction h with
  | nil => exact .nil
  | snoc _ hok hs ih => exact ih.snoc (hle _ _ hok) hs

/-- The condition may ask each label to be one of the run's own: so an invariant can speak of what
happens in the run.
Source: none: infrastructure
Kind: L -/
theorem Run.mem_labels {ls : List ℓ} {s : σ} (h : Run step ok s₀ ls s) :
    Run step (fun s l => ok s l ∧ l ∈ ls) s₀ ls s := by
  induction h with
  | nil => exact .nil
  | snoc _ hok hs ih =>
      refine (ih.mono ?_).snoc ⟨hok, List.mem_append_right _ (List.mem_singleton_self _)⟩ hs
      rintro s l ⟨hok, hl⟩
      exact ⟨hok, List.mem_append_left _ hl⟩

/-- **Forward simulation.** If every step of one system from related states is matched by a step of
the other under the same label, then so is every run.
Source: none: infrastructure
Kind: P -/
theorem Run.simulate {τ : Type*} {step' : τ → ℓ → Option τ} {ok' : τ → ℓ → Prop} {t₀ : τ}
    {R : σ → τ → Prop} (h₀ : R s₀ t₀)
    (hstep : ∀ s t l s', R s t → ok s l → step s l = some s' →
      ok' t l ∧ ∃ t', step' t l = some t' ∧ R s' t') {ls : List ℓ} {s : σ}
    (h : Run step ok s₀ ls s) : ∃ t, Run step' ok' t₀ ls t ∧ R s t := by
  induction h with
  | nil => exact ⟨t₀, .nil, h₀⟩
  | snoc _ hok hs ih =>
      obtain ⟨t, hrun, hR⟩ := ih
      obtain ⟨hok', t', ht, hR'⟩ := hstep _ _ _ _ hR hok hs
      exact ⟨t', .snoc hrun hok' ht, hR'⟩

/-- **Embedding.** If every step of a part, from a state that meets `I`, is a step of the whole
under a label of its own, then so is every run of the part.
Source: none: infrastructure
Kind: P -/
theorem Run.embed {τ κ : Type*} {step' : τ → κ → Option τ} {ok' : τ → κ → Prop} {I : σ → Prop}
    (emb : σ → τ) (f : ℓ → κ) (h₀ : I s₀)
    (hstep : ∀ s l s', I s → ok s l → step s l = some s' →
      I s' ∧ ok' (emb s) (f l) ∧ step' (emb s) (f l) = some (emb s')) {ls : List ℓ} {s : σ}
    (h : Run step ok s₀ ls s) : I s ∧ Run step' ok' (emb s₀) (ls.map f) (emb s) := by
  induction h with
  | nil => exact ⟨h₀, .nil⟩
  | snoc _ hok hs ih =>
      obtain ⟨hI, hrun⟩ := ih
      obtain ⟨hI', hok', hs'⟩ := hstep _ _ _ hI hok hs
      refine ⟨hI', ?_⟩
      rw [List.map_append, List.map_singleton]
      exact hrun.snoc hok' hs'

/-- A run after a run.
Source: none: infrastructure
Kind: L -/
theorem Run.trans {ls ls' : List ℓ} {s s' : σ} (h : Run step ok s₀ ls s)
    (h' : Run step ok s ls' s') : Run step ok s₀ (ls ++ ls') s' := by
  induction h' with
  | nil => rwa [List.append_nil]
  | snoc _ hok hs ih =>
      rw [← List.append_assoc]
      exact ih.snoc hok hs

/-- **The ranking rule.** If every step of one party lowers a rank and no other step raises it, that
party takes no more steps than the rank at the start.
Source: none: infrastructure
Kind: P -/
theorem Run.countP_add_le {I : σ → Prop} (own : ℓ → Bool) (rank : σ → ℕ) (h₀ : I s₀)
    (hstep : ∀ s l s', I s → ok s l → step s l = some s' →
      I s' ∧ rank s' + (if own l then 1 else 0) ≤ rank s) {ls : List ℓ} {s : σ}
    (h : Run step ok s₀ ls s) : I s ∧ ls.countP own + rank s ≤ rank s₀ := by
  induction h with
  | nil => exact ⟨h₀, by simp⟩
  | snoc _ hok hs ih =>
      obtain ⟨hI, hle⟩ := hstep _ _ _ ih.1 hok hs
      refine ⟨hI, ?_⟩
      rw [List.countP_append, List.countP_singleton]
      have := ih.2
      omega

/-- **The spinning rule.** A party that can move in every state reached moves any number of times.
Source: none: infrastructure
Kind: P -/
theorem Run.exists_countP {own : ℓ → Bool}
    (hmove : ∀ ls s, Run step ok s₀ ls s →
      ∃ l s', own l = true ∧ ok s l ∧ step s l = some s') (k : ℕ) :
    ∃ ls s, Run step ok s₀ ls s ∧ ls.countP own = k := by
  induction k with
  | zero => exact ⟨[], s₀, .nil, rfl⟩
  | succ k ih =>
      obtain ⟨ls, s, hrun, hcount⟩ := ih
      obtain ⟨l, s', hown, hok, hs⟩ := hmove ls s hrun
      refine ⟨ls ++ [l], s', hrun.snoc hok hs, ?_⟩
      rw [List.countP_append, hcount, List.countP_singleton, if_pos hown]

end

/-- Run a list of labels, checking `ok` before each step.
Source: none: infrastructure
Kind: D -/
def exec (step : σ → ℓ → Option σ) (ok : σ → ℓ → Prop) [∀ s l, Decidable (ok s l)] :
    σ → List ℓ → Option σ
  | s, [] => some s
  | s, l :: ls => if ok s l then (step s l).bind fun s' => exec step ok s' ls else none

/-- A computation in two parts.
Source: none: infrastructure
Kind: L -/
theorem exec_append {step : σ → ℓ → Option σ} {ok : σ → ℓ → Prop} [∀ s l, Decidable (ok s l)]
    {s s' : σ} {ls ls' : List ℓ} (h : exec step ok s ls = some s') :
    exec step ok s (ls ++ ls') = exec step ok s' ls' := by
  induction ls generalizing s with
  | nil =>
      cases h
      rfl
  | cons l ls ih =>
      rw [exec] at h
      split_ifs at h with hok
      rw [Option.bind_eq_some_iff] at h
      obtain ⟨t, hstep, ht⟩ := h
      rw [List.cons_append, exec, if_pos hok, hstep, Option.bind_some, ih ht]

/-- A run goes on with steps that can be computed.
Source: none: infrastructure
Kind: L -/
theorem Run.append_exec {step : σ → ℓ → Option σ} {ok : σ → ℓ → Prop}
    [∀ s l, Decidable (ok s l)] {s₀ s s' : σ} {pre ls : List ℓ} (h : Run step ok s₀ pre s)
    (he : exec step ok s ls = some s') : Run step ok s₀ (pre ++ ls) s' := by
  induction ls generalizing pre s with
  | nil =>
      cases he
      rwa [List.append_nil]
  | cons l ls ih =>
      rw [exec] at he
      split_ifs at he with hok
      rw [Option.bind_eq_some_iff] at he
      obtain ⟨t, hstep, ht⟩ := he
      have := ih (h.snoc hok hstep) ht
      rwa [List.append_assoc] at this

/-- A successful computation is a run.
Source: none: infrastructure
Kind: L -/
theorem Run.of_exec {step : σ → ℓ → Option σ} {ok : σ → ℓ → Prop} [∀ s l, Decidable (ok s l)]
    {s s' : σ} {ls : List ℓ} (h : exec step ok s ls = some s') : Run step ok s ls s' :=
  Run.append_exec .nil h

/-- A computation that ends in a state with a decidable property is a run to such a state.
Source: none: infrastructure
Kind: L -/
theorem Run.exists_of_exec {step : σ → ℓ → Option σ} {ok : σ → ℓ → Prop}
    [∀ s l, Decidable (ok s l)] {s : σ} {ls : List ℓ} {p : σ → Bool}
    (h : (exec step ok s ls).map p = some true) : ∃ s', Run step ok s ls s' ∧ p s' = true := by
  rw [Option.map_eq_some_iff] at h
  obtain ⟨s', hexec, hp⟩ := h
  exact ⟨s', Run.of_exec hexec, hp⟩

/-! ## Histories of several processes -/

end CpuMonitor.Lib
