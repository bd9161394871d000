import CpuMonitor.Lib.Run

/-!
# Components over a datagram network

Components that share nothing and talk over a network which may lose, delay, reorder and duplicate
what it is given, but neither alters nor invents it. Each component keeps a record of all that it
has sent; a step that takes something from the network may take whatever any component has sent so
far, as often as it likes.

* `Component` — the steps of one party, what it has sent, and what a label takes from the network;
* `Assembly` — the parties, and what each of them can find of what another one sent. A step of the
  assembly is a step of one party (`Assembly.step`), and what it takes in was sent
  (`Assembly.Delivered`);
* **Assume and guarantee** `Contract`: for each party an invariant, an assumption about what it
  takes in and a guarantee about what it sends. The parties are looked at one by one, each under
  its own assumption; that the assumptions are met follows from the guarantees of the others, so
  the invariants hold together, in every state of every run (`Contract.holds`).
* **Records** `Assembly.Recorded`: if the parties keep a record of what they have sent and taken in,
  then everything that was taken in is on the record of a sender (`Assembly.Recorded.sourced`).
* **Counting** `Assembly.Once`: the network has duplicated nothing; nobody has then taken in more
  than was sent to them (`Assembly.Once.sum_length_le`).
-/

namespace CpuMonitor.Lib

/-- A party with states `S` and labels `L`, which sends things of type `O` and takes in packets of
type `P`.
Source: none: infrastructure
Kind: D -/
structure Component (S L O P : Type*) where
  step : S → L → Option S
  /-- All that was sent so far. -/
  outbox : S → List O
  /-- The packet that a step takes from the network. -/
  inbox : L → Option P

/-- The parties of a system and the network between them.
Source: none: infrastructure
Kind: D -/
structure Assembly (ι : Type*) (S L : ι → Type*) (O P : Type*) where
  component : (i : ι) → Component (S i) (L i) O P
  /-- What `j` sent as `o` can arrive at `i` as `p`. -/
  carries : ι → O → ι → P → Prop

section assembly

variable {ι : Type*} [DecidableEq ι] {S L : ι → Type*} {O P : Type*} (net : Assembly ι S L O P)

/-- A step of the party that the label names.
Source: none: infrastructure
Kind: D -/
def Assembly.step (s : (i : ι) → S i) (l : Σ i, L i) : Option ((i : ι) → S i) :=
  ((net.component l.1).step (s l.1) l.2).map (Function.update s l.1)

/-- What the step takes in was sent by some party before.
Source: none: infrastructure
Kind: D -/
def Assembly.Delivered (s : (i : ι) → S i) (l : Σ i, L i) : Prop :=
  ∀ p ∈ (net.component l.1).inbox l.2,
    ∃ j, ∃ o ∈ (net.component j).outbox (s j), net.carries j o l.1 p

/-- With finitely many nodes it can be checked that a datagram was sent.
Source: none: infrastructure
Kind: D -/
instance [Fintype ι] [∀ j o i p, Decidable (net.carries j o i p)] (s : (i : ι) → S i)
    (l : Σ i, L i) : Decidable (net.Delivered s l) :=
  inferInstanceAs (Decidable (∀ p ∈ (net.component l.1).inbox l.2,
    ∃ j, ∃ o ∈ (net.component j).outbox (s j), net.carries j o l.1 p))

/-- A step of an assembly leaves the other parties where they are.
Source: none: infrastructure
Kind: L -/
theorem Assembly.step_eq_some {s s' : (i : ι) → S i} {l : Σ i, L i} (h : net.step s l = some s') :
    ∃ t, (net.component l.1).step (s l.1) l.2 = some t ∧ s' = Function.update s l.1 t := by
  obtain ⟨t, ht, heq⟩ := Option.map_eq_some_iff.mp h
  exact ⟨t, ht, heq.symm⟩

/-- What each party keeps, assumes and guarantees, for steps whose labels meet `ok`.
Source: none: infrastructure
Kind: D -/
structure Contract (ok : (i : ι) → L i → Prop) where
  inv : (i : ι) → S i → Prop
  assumption : ι → P → Prop
  guarantee : ι → O → Prop
  /-- A party that keeps its invariant has sent only what it guarantees. -/
  sends : ∀ i s, inv i s → ∀ o ∈ (net.component i).outbox s, guarantee i o
  /-- What arrives of that meets the assumption of the party it arrives at. -/
  arrives : ∀ j o i p, guarantee j o → net.carries j o i p → assumption i p
  /-- A party keeps its invariant as long as its assumption is met. -/
  keeps : ∀ i s l s', inv i s → ok i l → (∀ p ∈ (net.component i).inbox l, assumption i p) →
    (net.component i).step s l = some s' → inv i s'

variable {net}

/-- **The assume-guarantee rule.** If the invariants hold at the start, they hold together in every
state of every run over the network.
Source: none: infrastructure
Kind: P -/
theorem Contract.holds {ok : (i : ι) → L i → Prop} (c : Contract net ok) {s₀ : (i : ι) → S i}
    (h₀ : ∀ i, c.inv i (s₀ i)) {ls : List (Σ i, L i)} {s : (i : ι) → S i}
    (h : Run net.step (fun s l => net.Delivered s l ∧ ok l.1 l.2) s₀ ls s) (i : ι) :
    c.inv i (s i) := by
  have hall : ∀ i, c.inv i (s i) := by
    refine h.invariant (I := fun s => ∀ i, c.inv i (s i)) h₀ ?_
    rintro s l s' hinv ⟨hdelivered, hok⟩ hs
    obtain ⟨t, ht, rfl⟩ := net.step_eq_some hs
    have harrived : ∀ p ∈ (net.component l.1).inbox l.2, c.assumption l.1 p := by
      intro p hp
      obtain ⟨j, o, ho, hcarries⟩ := hdelivered p hp
      exact c.arrives j o l.1 p (c.sends j (s j) (hinv j) o ho) hcarries
    intro i
    by_cases hi : i = l.1
    · subst hi
      rw [Function.update_self]
      exact c.keeps l.1 (s l.1) l.2 t (hinv l.1) hok harrived ht
    · rw [Function.update_of_ne hi]
      exact hinv i
  exact hall i

/-! ## What was taken in was sent -/

section recorded

variable (net)

/-- No party forgets what it has sent, and `taken` is what the parties have taken in.
Source: none: infrastructure
Kind: D -/
structure Assembly.Recorded (taken : (i : ι) → S i → List P) : Prop where
  outbox_subset : ∀ i s l s', (net.component i).step s l = some s' →
    (net.component i).outbox s ⊆ (net.component i).outbox s'
  taken_cases : ∀ i s l s', (net.component i).step s l = some s' →
    ∀ p ∈ taken i s', p ∈ taken i s ∨ p ∈ (net.component i).inbox l

variable {net} {taken : (i : ι) → S i → List P}

/-- **Everything taken in is on the record of a sender**, in every state of every run.
Source: none: infrastructure
Kind: P -/
theorem Assembly.Recorded.sourced (h : net.Recorded taken) {s₀ s : (i : ι) → S i}
    (h₀ : ∀ i, taken i (s₀ i) = []) {ls : List (Σ i, L i)}
    (hrun : Run net.step net.Delivered s₀ ls s) :
    ∀ i, ∀ p ∈ taken i (s i), ∃ j, ∃ o ∈ (net.component j).outbox (s j), net.carries j o i p := by
  refine hrun.invariant (I := fun s => ∀ i, ∀ p ∈ taken i (s i),
    ∃ j, ∃ o ∈ (net.component j).outbox (s j), net.carries j o i p) ?_ ?_
  · intro i p hp
    rw [h₀ i] at hp
    exact absurd hp List.not_mem_nil
  · intro s l s' hinv hdelivered hs
    obtain ⟨t, ht, rfl⟩ := net.step_eq_some hs
    -- what was sent before the step is still on record after it
    have hkept : ∀ j, (net.component j).outbox (s j) ⊆
        (net.component j).outbox (Function.update s l.1 t j) := by
      intro j
      by_cases hj : j = l.1
      · subst hj
        rw [Function.update_self]
        exact h.outbox_subset _ _ _ _ ht
      · rw [Function.update_of_ne hj]
        exact List.Subset.refl _
    have hsource : ∀ i p, (∃ j, ∃ o ∈ (net.component j).outbox (s j), net.carries j o i p) →
        ∃ j, ∃ o ∈ (net.component j).outbox (Function.update s l.1 t j), net.carries j o i p := by
      rintro i p ⟨j, o, ho, hcarries⟩
      exact ⟨j, o, hkept j ho, hcarries⟩
    intro i p hp
    by_cases hi : i = l.1
    · subst hi
      rw [Function.update_self] at hp
      rcases h.taken_cases _ _ _ _ ht p hp with hold | hnew
      · exact hsource _ p (hinv _ p hold)
      · exact hsource _ p (hdelivered p hnew)
    · rw [Function.update_of_ne hi] at hp
      exact hsource i p (hinv i p hp)

end recorded

/-! ## A network that does not duplicate -/

section once

variable (net) {taken : (i : ι) → S i → List P} {s : (i : ι) → S i}

/-- Nothing was taken in twice: all that the parties have taken in (`taken`) can be matched with
what was sent, each packet with one of its own.
Source: none: infrastructure
Kind: D -/
def Assembly.Once (taken : (i : ι) → S i → List P) (s : (i : ι) → S i) : Prop :=
  ∃ source : (Σ i, Fin (taken i (s i)).length) →
      Σ j, Fin ((net.component j).outbox (s j)).length,
    Function.Injective source ∧ ∀ x, net.carries (source x).1
      (((net.component (source x).1).outbox (s (source x).1)).get (source x).2) x.1
      ((taken x.1 (s x.1)).get x.2)

/-- With finitely many nodes it can be checked that each datagram arrived once.
Source: none: infrastructure
Kind: D -/
instance [Fintype ι] [∀ j o i p, Decidable (net.carries j o i p)]
    (taken : (i : ι) → S i → List P) (s : (i : ι) → S i) : Decidable (net.Once taken s) :=
  inferInstanceAs (Decidable (∃ source : (Σ i, Fin (taken i (s i)).length) →
      Σ j, Fin ((net.component j).outbox (s j)).length,
    Function.Injective source ∧ ∀ x, net.carries (source x).1
      (((net.component (source x).1).outbox (s (source x).1)).get (source x).2) x.1
      ((taken x.1 (s x.1)).get x.2)))

variable {net}

omit [DecidableEq ι] in
/-- **Nobody takes in more than was sent to them**: if all that the parties `I` have taken in can
only come from parties `J`, then it is no more than these have sent.
Source: none: infrastructure
Kind: P -/
theorem Assembly.Once.sum_length_le (h : net.Once taken s) {I J : Finset ι}
    (hfrom : ∀ i ∈ I, ∀ p ∈ taken i (s i), ∀ j o, net.carries j o i p → j ∈ J) :
    ∑ i ∈ I, (taken i (s i)).length ≤ ∑ j ∈ J, ((net.component j).outbox (s j)).length := by
  obtain ⟨source, hinjective, hcarries⟩ := h
  calc ∑ i ∈ I, (taken i (s i)).length
      = (I.sigma fun i => (Finset.univ : Finset (Fin (taken i (s i)).length))).card := by
        simp [Finset.card_sigma]
    _ ≤ (J.sigma fun j =>
          (Finset.univ : Finset (Fin ((net.component j).outbox (s j)).length))).card := by
        refine Finset.card_le_card_of_injOn source ?_ hinjective.injOn
        intro x hx
        have hi : x.1 ∈ I := (Finset.mem_sigma.mp hx).1
        refine Finset.mem_sigma.mpr ⟨?_, Finset.mem_univ _⟩
        exact hfrom x.1 hi _ (List.get_mem _ _) _ _ (hcarries x)
    _ = ∑ j ∈ J, ((net.component j).outbox (s j)).length := by simp [Finset.card_sigma]

end once

end assembly

end CpuMonitor.Lib
