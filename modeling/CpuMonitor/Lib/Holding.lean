import Mathlib

/-!
# Programs that hold resources

A program acquires and releases resources of a type `ρ`. Its state is the multiset of what it holds;
a release of something that is not held has no defined outcome. Nothing here names a program.

* `Holding ρ α` — the programs; `acquire ok r` is a call that succeeds or not, `release r` a call
  that gives `r` back;
* `Turns P prog a Q` — whatever else is held, `prog` turns `P` into `Q` and returns `a`;
* `Turns.pure`, `Turns.bind`, `Turns.frame`, `Turns.tryAcquire`, `Turns.release`,
  `Turns.releaseAll` — one rule for each way to build a program;
* `within p prog` — a program about a part, run by the owner of the whole: its resources are found
  among those of the whole as `p : Parts ρ σ` says, and `Turns.within` is its rule.
-/

namespace CpuMonitor.Lib

/-- A program over the multiset of the resources it holds.
Source: none: infrastructure
Kind: D -/
abbrev Holding (ρ : Type) := StateT (Multiset ρ) Option

namespace Holding

variable {ρ α β : Type}

/-- A call that acquires `r` if it succeeds.
Source: none: infrastructure
Kind: D -/
def acquire (ok : Bool) (r : ρ) : Holding ρ Bool :=
  fun held => some (ok, if ok then r ::ₘ held else held)

/-- A call that gives `r` back; undefined if `r` is not held.
Source: none: infrastructure
Kind: D -/
def release [DecidableEq ρ] (r : ρ) : Holding ρ Unit :=
  fun held => if r ∈ held then some ((), held.erase r) else none

/-- The calls for a list of resources, in order.
Source: none: infrastructure
Kind: D -/
def releaseAll [DecidableEq ρ] : List ρ → Holding ρ Unit
  | [] => pure ()
  | r :: rs => do
      release r
      releaseAll rs

/-- A program without a defined outcome.
Source: none: infrastructure
Kind: D -/
def undefined : Holding ρ α := fun _ => none

/-- Whatever else is held, the program turns `P` into `Q` and returns `a`.
Source: none: infrastructure
Kind: D -/
def Turns (P : Multiset ρ) (prog : Holding ρ α) (a : α) (Q : Multiset ρ) : Prop :=
  ∀ frame, prog (P + frame) = some (a, Q + frame)

variable {P Q R : Multiset ρ} {prog : Holding ρ α} {a : α} {b : β} {r : ρ}

/-- A program that does nothing.
Source: none: infrastructure
Kind: L -/
theorem Turns.pure : Turns P (Pure.pure a : Holding ρ α) a P := fun _ => rfl

/-- **Sequencing.**
Source: none: infrastructure
Kind: P -/
theorem Turns.bind {next : α → Holding ρ β} (h : Turns P prog a Q) (hnext : Turns Q (next a) b R) :
    Turns P (prog >>= next) b R := by
  intro frame
  show (prog (P + frame)).bind (fun x => next x.1 x.2) = _
  rw [h frame, Option.bind_some, hnext frame]

/-- **The frame rule.** What a program does not touch stays as it is.
Source: none: infrastructure
Kind: P -/
theorem Turns.frame (h : Turns P prog a Q) (F : Multiset ρ) : Turns (P + F) prog a (Q + F) := by
  intro frame
  rw [add_assoc, h, add_assoc]

/-- What is held is the same in another order.
Source: none: infrastructure
Kind: L -/
theorem Turns.congr {P' Q' : Multiset ρ} (h : Turns P prog a Q) (hP : P' = P) (hQ : Q = Q') :
    Turns P' prog a Q' := by
  rw [hP, ← hQ]
  exact h

/-- A program has one outcome.
Source: none: infrastructure
Kind: L -/
theorem Turns.unique {a' : α} {Q' : Multiset ρ} (h : Turns P prog a Q) (h' : Turns P prog a' Q') :
    a = a' ∧ Q = Q' := by
  have heq := (h 0).symm.trans (h' 0)
  simp only [add_zero, Option.some.injEq, Prod.mk.injEq] at heq
  exact heq

/-- A call with its outcome.
Source: none: infrastructure
Kind: L -/
theorem Turns.acquire {ok : Bool} (r : ρ) :
    Turns P (Holding.acquire ok r) ok (if ok then r ::ₘ P else P) := by
  intro frame
  cases ok with
  | false => rfl
  | true => exact congrArg (fun held => some (true, held)) (Multiset.cons_add r P frame).symm

/-- **A call that may fail.** If it succeeds the program goes on with `r`, else it goes on without.
Source: none: infrastructure
Kind: P -/
theorem Turns.tryAcquire {ok : Bool} {body fail : Holding ρ α}
    (hbody : ok = true → Turns (r ::ₘ P) body a Q) (hfail : ok = false → Turns P fail a Q) :
    Turns P (do if ← Holding.acquire ok r then body else fail) a Q := by
  intro frame
  cases ok with
  | true =>
      have h := hbody rfl frame
      rw [Multiset.cons_add] at h
      exact h
  | false => exact hfail rfl frame

section release

variable [DecidableEq ρ]

/-- **A release** of what is held.
Source: none: infrastructure
Kind: P -/
theorem Turns.release : Turns (r ::ₘ P) (Holding.release r) () P := by
  intro frame
  rw [Holding.release, if_pos (Multiset.mem_add.mpr (.inl (Multiset.mem_cons_self r P))),
    Multiset.cons_add, Multiset.erase_cons_head]

/-- A release of the only thing that is held.
Source: none: infrastructure
Kind: L -/
theorem Turns.releaseLast : Turns {r} (Holding.release r) () 0 := Turns.release

/-- A release, and what follows it.
Source: none: infrastructure
Kind: L -/
theorem Turns.releaseThen {next : Holding ρ β} (hnext : Turns P next b Q) :
    Turns (r ::ₘ P) (do Holding.release r; next) b Q :=
  Turns.release.bind hnext

/-- The releases of a list, by induction on it.
Source: none: infrastructure
Kind: L -/
theorem Turns.releaseAll (rs : List ρ) : Turns (rs : Multiset ρ) (Holding.releaseAll rs) () 0 := by
  induction rs with
  | nil => exact .pure
  | cons r rs ih => exact Turns.releaseThen ih

end release

/-! ## A part and the whole -/

/-- How the resources `ρ` of a part lie among the resources `σ` of the whole.
Source: none: infrastructure
Kind: D -/
structure Parts (ρ σ : Type) where
  embed : ρ → σ
  part : σ → Option ρ
  part_embed : ∀ r, part (embed r) = some r
  embed_of_part : ∀ {s r}, part s = some r → embed r = s

/-- The program of a part, for an owner of the whole: the rest of the whole is set aside.
Source: none: infrastructure
Kind: D -/
def within {σ : Type} (p : Parts ρ σ) (prog : Holding ρ α) : Holding σ α := fun held =>
  (prog (held.filterMap p.part)).map fun x =>
    (x.1, x.2.map p.embed + held.filter fun s => (p.part s).isNone = true)

section within

variable {σ : Type} (p : Parts ρ σ)

/-- The whole is the part and the rest.
Source: none: infrastructure
Kind: L -/
theorem Parts.split (held : Multiset σ) :
    (held.filterMap p.part).map p.embed + held.filter (fun s => (p.part s).isNone = true) =
      held := by
  induction held using Multiset.induction_on with
  | empty => rfl
  | cons s held ih =>
      cases hs : p.part s with
      | none =>
          rw [Multiset.filterMap_cons_none s held hs,
            Multiset.filter_cons_of_pos held (by simp [hs]), Multiset.add_cons, ih]
      | some r =>
          rw [Multiset.filterMap_cons_some p.part s held hs,
            Multiset.filter_cons_of_neg held (by simp [hs]), Multiset.map_cons, Multiset.cons_add,
            ih, p.embed_of_part hs]

/-- What is embedded is found again.
Source: none: infrastructure
Kind: L -/
theorem Parts.filterMap_map_embed (P : Multiset ρ) : (P.map p.embed).filterMap p.part = P := by
  rw [Multiset.filterMap_map, show p.part ∘ p.embed = some from funext p.part_embed,
    Multiset.filterMap_some]

/-- No embedded resource is set aside.
Source: none: infrastructure
Kind: L -/
theorem Parts.filter_map_embed (P : Multiset ρ) :
    (P.map p.embed).filter (fun s => (p.part s).isNone = true) = 0 := by
  refine Multiset.filter_eq_nil.mpr fun s hs => ?_
  obtain ⟨r, -, rfl⟩ := Multiset.mem_map.mp hs
  simp [p.part_embed]

/-- **The rule for a part.**
Source: none: infrastructure
Kind: P -/
theorem Turns.within (h : Turns P prog a Q) :
    Turns (P.map p.embed) (Holding.within p prog) a (Q.map p.embed) := by
  intro frame
  have hown : (P.map p.embed + frame).filterMap p.part = P + frame.filterMap p.part := by
    rw [Multiset.filterMap_add, p.filterMap_map_embed]
  have hrest : (P.map p.embed + frame).filter (fun s => (p.part s).isNone = true) =
      frame.filter fun s => (p.part s).isNone = true := by
    rw [Multiset.filter_add, p.filter_map_embed, zero_add]
  rw [Holding.within, hown, hrest, h, Option.map_some, Multiset.map_add, add_assoc, p.split]

/-- A part that is acquired.
Source: none: infrastructure
Kind: L -/
theorem Turns.withinNew {F : Multiset σ} (h : Turns 0 prog a Q) :
    Turns F (Holding.within p prog) a (F + Q.map p.embed) :=
  ((h.within p).frame F).congr (zero_add F).symm (add_comm _ F)

/-- A part that is released.
Source: none: infrastructure
Kind: L -/
theorem Turns.withinLast {F : Multiset σ} (h : Turns P prog a 0) :
    Turns (F + P.map p.embed) (Holding.within p prog) a F :=
  ((h.within p).frame F).congr (add_comm F _) (zero_add F)

end within

end Holding

end CpuMonitor.Lib
