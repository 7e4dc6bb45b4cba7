import Mathlib.Data.Nat.Notation

/-!
# Loops

The body of a `while` loop, as a function: in each round it leaves with a result or goes on to the
next round from a new state. Nothing says that it ever leaves, so a loop is run with fuel, and three
rules say what becomes of it:

* `iterate_round` and `iterate_of_le` — a round at a time, and with fuel to spare;
* `exists_iterate` — the variant rule: if every round lowers a measure the loop leaves;
* `iterate_eq_none` — the opposite one: a loop whose rounds keep an invariant that none leaves from
  never leaves.

Where the number of rounds does not matter, `Rounds` says that some of them lead from one state to
another, and `Leaves` with what the loop leaves.

A `for` loop over the numbers below a limit is a fold, with a body that may get stuck. Its invariant
has the number of the round: `foldlM_range_invariant` and `foldlM_range_total`.
-/

namespace MediaFramework

universe u v

variable {σ : Type u} {ρ : Type v}

/-- At most `fuel` rounds of a loop. -/
def iterate (body : σ → ρ ⊕ σ) : ℕ → σ → Option ρ
  | 0, _ => none
  | fuel + 1, s =>
    match body s with
    | .inl r => some r
    | .inr t => iterate body fuel t

section Iterate

variable {body : σ → ρ ⊕ σ} {s t : σ} {r : ρ}

theorem iterate_leave (h : body s = .inl r) (fuel : ℕ) : iterate body (fuel + 1) s = some r := by
  rw [iterate, h]

theorem iterate_round (h : body s = .inr t) (fuel : ℕ) :
    iterate body (fuel + 1) s = iterate body fuel t := by
  rw [iterate, h]

/-- A loop that has left stays left, with more fuel. -/
theorem iterate_of_le : ∀ {n m : ℕ} {s : σ}, iterate body n s = some r → n ≤ m →
    iterate body m s = some r := by
  intro n
  induction n with
  | zero =>
    intro m s h _
    cases h
  | succ n ih =>
    intro m s h hnm
    obtain ⟨m, rfl⟩ : ∃ k, m = k + 1 := ⟨m - 1, by omega⟩
    rcases hs : body s with r' | t
    · rw [iterate_leave hs] at h ⊢
      exact h
    · rw [iterate_round hs] at h ⊢
      exact ih h (by omega)

/-- What a loop leaves with does not depend on the fuel. -/
theorem iterate_unique {n m : ℕ} {r' : ρ} (h : iterate body n s = some r)
    (h' : iterate body m s = some r') : r = r' := by
  have hn := iterate_of_le h (Nat.le_max_left n m)
  have hm := iterate_of_le h' (Nat.le_max_right n m)
  exact Option.some.inj (hn.symm.trans hm)

/-- **The variant rule.** If from an invariant state a round leaves with a result that meets `Q`, or
keeps the invariant and lowers the measure, the loop leaves with such a result within as many rounds
as the measure says. -/
theorem exists_iterate {I : σ → Prop} {Q : ρ → Prop} (μ : σ → ℕ)
    (hround : ∀ s, I s → (∃ r, body s = .inl r ∧ Q r) ∨ ∃ t, body s = .inr t ∧ I t ∧ μ t < μ s) :
    ∀ {n : ℕ} {s : σ}, I s → μ s < n → ∃ r, iterate body n s = some r ∧ Q r := by
  intro n
  induction n with
  | zero =>
    intro s _ hlt
    omega
  | succ n ih =>
    intro s hI hlt
    rcases hround s hI with ⟨r, hs, hQ⟩ | ⟨t, hs, hIt, hμ⟩
    · exact ⟨r, iterate_leave hs n, hQ⟩
    · obtain ⟨r, hr, hQ⟩ := ih hIt (by omega)
      exact ⟨r, (iterate_round hs n).trans hr, hQ⟩

/-- **The endless loop.** If every round from an invariant state goes on to an invariant state, the
loop never leaves. -/
theorem iterate_eq_none {I : σ → Prop} (hround : ∀ s, I s → ∃ t, body s = .inr t ∧ I t) :
    ∀ (fuel : ℕ) {s : σ}, I s → iterate body fuel s = none := by
  intro fuel
  induction fuel with
  | zero => exact fun _ => rfl
  | succ n ih =>
    intro s hI
    obtain ⟨t, hs, hIt⟩ := hround s hI
    rw [iterate_round hs]
    exact ih hIt

/-- Some rounds of the loop lead from one state to the other. -/
def Rounds (body : σ → ρ ⊕ σ) (s t : σ) : Prop :=
  ∃ k, ∀ fuel, iterate body (fuel + k) s = iterate body fuel t

/-- The loop leaves with the result. -/
def Leaves (body : σ → ρ ⊕ σ) (s : σ) (r : ρ) : Prop := ∃ fuel, iterate body fuel s = some r

theorem Rounds.refl (s : σ) : Rounds body s s := ⟨0, fun _ => rfl⟩

theorem Rounds.one (h : body s = .inr t) : Rounds body s t := ⟨1, iterate_round h⟩

theorem Rounds.trans {u : σ} (h : Rounds body s t) (h' : Rounds body t u) : Rounds body s u := by
  obtain ⟨k, hk⟩ := h
  obtain ⟨j, hj⟩ := h'
  refine ⟨j + k, fun fuel => ?_⟩
  rw [← Nat.add_assoc, hk, hj]

theorem Leaves.of_leave (h : body s = .inl r) : Leaves body s r := ⟨1, iterate_leave h 0⟩

theorem Rounds.leaves (h : Rounds body s t) (hr : Leaves body t r) : Leaves body s r := by
  obtain ⟨k, hk⟩ := h
  obtain ⟨fuel, hfuel⟩ := hr
  exact ⟨fuel + k, (hk fuel).trans hfuel⟩

theorem Leaves.unique {r' : ρ} (h : Leaves body s r) (h' : Leaves body s r') : r = r' := by
  obtain ⟨n, hn⟩ := h
  obtain ⟨m, hm⟩ := h'
  exact iterate_unique hn hm

end Iterate

section Counted

variable {body : σ → ℕ → Option σ} {I : ℕ → σ → Prop} {limit : ℕ}

/-- **The rule for a counted loop.** What holds before the first round, and is taken by each round
from its number to the next, holds after the last one. -/
theorem foldlM_range_invariant
    (hround : ∀ n s s', n < limit → I n s → body s n = some s' → I (n + 1) s') {s s' : σ}
    (hI : I 0 s) (h : (List.range limit).foldlM body s = some s') : I limit s' := by
  have hrounds : ∀ n, n ≤ limit → ∀ s', (List.range n).foldlM body s = some s' → I n s' := by
    intro n
    induction n with
    | zero =>
      intro _ s' h
      obtain rfl := Option.some.inj h
      exact hI
    | succ n ih =>
      intro hn s' h
      rw [List.range_succ, List.foldlM_append] at h
      obtain ⟨t, ht, h⟩ := Option.bind_eq_some_iff.mp h
      rw [List.foldlM_cons] at h
      obtain ⟨u, hu, h⟩ := Option.bind_eq_some_iff.mp h
      obtain rfl := Option.some.inj h
      exact hround n t u hn (ih (Nat.le_of_succ_le hn) t ht) hu
  exact hrounds limit (Nat.le_refl limit) s' h

/-- **The same for a loop that is not stuck.** -/
theorem foldlM_range_total
    (hround : ∀ n s, n < limit → I n s → ∃ s', body s n = some s' ∧ I (n + 1) s') {s : σ}
    (hI : I 0 s) : ∃ s', (List.range limit).foldlM body s = some s' ∧ I limit s' := by
  have hrounds : ∀ n, n ≤ limit → ∃ s', (List.range n).foldlM body s = some s' ∧ I n s' := by
    intro n
    induction n with
    | zero => exact fun _ => ⟨s, rfl, hI⟩
    | succ n ih =>
      intro hn
      obtain ⟨t, ht, hIt⟩ := ih (Nat.le_of_succ_le hn)
      obtain ⟨u, hu, hIu⟩ := hround n t hn hIt
      refine ⟨u, ?_, hIu⟩
      rw [List.range_succ, List.foldlM_append, ht]
      exact (congrArg (· >>= fun v => some v) hu).trans rfl
  exact hrounds limit (Nat.le_refl limit)

end Counted

end MediaFramework
