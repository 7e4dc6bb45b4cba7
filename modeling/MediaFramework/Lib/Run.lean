import Mathlib.Logic.Function.Basic

/-!
# Runs of a partial step function

A component is described by a step function `step : σ → ε → Option σ`: from a
state and an event it gives the next state, or `none` where the program has no
defined behaviour. `runFrom` folds it over a list of events.

A condition `P` on the state *before* a step and on the event of that step is
carried along a run by `EachStep`. These rules turn a one-step fact into a fact
about whole runs:

* `EachStep.simulates` — a relation to an abstract state that every step meeting
  `P` keeps, holds between whatever states the two runs reach;
* `EachStep.invariant` — the same for an invariant of the one state;
* `EachStep.run_defined_iff` — a run reaches a state exactly when none of its
  steps is stuck;
* `EachStep.total` — if such a step moreover never gets stuck, the run reaches
  a state at all;
* `Throughout.iff_eachStep` — where `P` is exactly what one step needs, it is
  exactly what a run needs; `Throughout.and_eachStep_iff` is the same for what is
  asked of the steps too.
-/

namespace MediaFramework

universe u v w

variable {σ : Type u} {ε : Type v}

/-- Run the events in order, stopping at the first undefined step. -/
def runFrom (step : σ → ε → Option σ) : σ → List ε → Option σ
  | s, [] => some s
  | s, e :: es => (step s e).bind fun s' => runFrom step s' es

theorem runFrom_cons (step : σ → ε → Option σ) (s : σ) (e : ε) (es : List ε) :
    runFrom step s (e :: es) = (step s e).bind fun s' => runFrom step s' es := rfl

/-- A run over an appended list passes through the state between the two. -/
theorem runFrom_append (step : σ → ε → Option σ) (es fs : List ε) :
    ∀ s : σ, runFrom step s (es ++ fs) =
      (runFrom step s es).bind fun s' => runFrom step s' fs := by
  induction es with
  | nil =>
    intro s
    rfl
  | cons e es ih =>
    intro s
    rw [List.cons_append, runFrom_cons, runFrom_cons]
    rcases hs : step s e with _ | s'
    · rfl
    · exact ih s'

/-- **The history rule.** A relation between the state and the events so far,
kept by every step, holds after every run. -/
theorem runFrom_history {step : σ → ε → Option σ} {R : σ → List ε → Prop}
    (hstep : ∀ s h e s', R s h → step s e = some s' → R s' (h ++ [e])) :
    ∀ {es h : List ε} {s s' : σ}, R s h → runFrom step s es = some s' → R s' (h ++ es) := by
  intro es
  induction es with
  | nil =>
    intro h s s' hR hrun
    obtain rfl : s = s' := Option.some.inj hrun
    rw [List.append_nil]
    exact hR
  | cons e es ih =>
    intro h s s' hR hrun
    rw [runFrom_cons] at hrun
    rcases hs : step s e with _ | t
    · rw [hs] at hrun
      cases hrun
    · rw [hs] at hrun
      have := ih (hstep s h e t hR hs) hrun
      rw [List.append_assoc] at this
      exact this

/-- Every step of the run meets `P`, a condition on the state before the step
and on its event. -/
def EachStep (step : σ → ε → Option σ) (P : σ → ε → Prop) : σ → List ε → Prop
  | _, [] => True
  | s, e :: es => P s e ∧ ∀ s' ∈ step s e, EachStep step P s' es

namespace EachStep

variable {step : σ → ε → Option σ} {P Q : σ → ε → Prop}

@[simp] theorem nil (s : σ) : EachStep step P s [] := trivial

instance decidable [∀ s e, Decidable (P s e)] :
    ∀ (s : σ) (es : List ε), Decidable (EachStep step P s es)
  | _, [] => isTrue trivial
  | s, e :: es =>
    have : ∀ s', Decidable (EachStep step P s' es) := fun s' => decidable s' es
    inferInstanceAs (Decidable (P s e ∧ ∀ s' ∈ step s e, EachStep step P s' es))

/-- A weaker condition. -/
theorem mono (hPQ : ∀ s e, P s e → Q s e) : ∀ {es : List ε} {s : σ}, EachStep step P s es →
    EachStep step Q s es
  | [], s, _ => nil s
  | e :: _, s, h => ⟨hPQ s e h.1, fun s' hs' => mono hPQ (h.2 s' hs')⟩

/-- Along a run whose steps meet `P`, conditions that `P` makes equivalent hold
together. -/
theorem congr {R : σ → ε → Prop} (hQR : ∀ s e, P s e → (Q s e ↔ R s e)) :
    ∀ {es : List ε} {s : σ}, EachStep step P s es →
      (EachStep step Q s es ↔ EachStep step R s es) := by
  intro es
  induction es with
  | nil =>
    intro s _
    exact Iff.rfl
  | cons e es ih =>
    intro s h
    exact and_congr (hQR s e h.1) (forall₂_congr fun s' hs' => ih (h.2 s' hs'))

/-- The condition holds of every step together with an invariant it keeps. -/
theorem and_invariant {I : σ → Prop}
    (hstep : ∀ s e s', I s → P s e → step s e = some s' → I s') :
    ∀ {es : List ε} {s : σ}, EachStep step P s es → I s →
      EachStep step (fun s e => I s ∧ P s e) s es := by
  intro es
  induction es with
  | nil =>
    intro s _ _
    exact nil s
  | cons e es ih =>
    intro s hP hI
    exact ⟨⟨hI, hP.1⟩, fun s' hs' => ih (hP.2 s' hs') (hstep s e s' hI hP.1 hs')⟩

/-- A condition on the events alone. -/
theorem of_forall {R : ε → Prop} : ∀ {es : List ε} {s : σ}, (∀ e ∈ es, R e) →
    EachStep step (fun _ e => R e) s es
  | [], s, _ => nil s
  | e :: _, _, h => ⟨h e List.mem_cons_self,
      fun _ _ => of_forall fun f hf => h f (List.mem_cons_of_mem e hf)⟩

theorem unconditional {es : List ε} {s : σ} : EachStep step (fun _ _ => True) s es :=
  of_forall (R := fun _ => True) fun _ _ => trivial

/-- Two conditions on every step are one. -/
theorem and : ∀ {es : List ε} {s : σ}, EachStep step P s es → EachStep step Q s es →
    EachStep step (fun s e => P s e ∧ Q s e) s es
  | [], s, _, _ => nil s
  | _ :: _, _, hP, hQ => ⟨⟨hP.1, hQ.1⟩, fun s' hs' => and (hP.2 s' hs') (hQ.2 s' hs')⟩

/-- The first events of the run. -/
theorem left {fs : List ε} : ∀ {es : List ε} {s : σ}, EachStep step P s (es ++ fs) →
    EachStep step P s es
  | [], s, _ => nil s
  | _ :: _, _, h => ⟨h.1, fun s' hs' => left (h.2 s' hs')⟩

/-- The events of the run after the first ones. -/
theorem right {fs : List ε} {t : σ} : ∀ {es : List ε} {s : σ}, EachStep step P s (es ++ fs) →
    runFrom step s es = some t → EachStep step P t fs
  | [], _, h, hrun => Option.some.inj hrun ▸ h
  | e :: es, s, h, hrun => by
    obtain ⟨s', hs', hrun⟩ := Option.bind_eq_some_iff.mp hrun
    exact right (h.2 s' hs') hrun

/-- **Getting stuck.** A run reaches a state exactly when each of its steps is
defined where it is taken. -/
theorem run_defined_iff {es : List ε} {s : σ} :
    (∃ s', runFrom step s es = some s') ↔
      EachStep step (fun s e => ∃ s', step s e = some s') s es := by
  induction es generalizing s with
  | nil => exact ⟨fun _ => nil s, fun _ => ⟨s, rfl⟩⟩
  | cons e es ih =>
    rw [runFrom_cons]
    rcases hs : step s e with _ | t
    · refine ⟨fun h => ?_, fun h => ?_⟩
      · obtain ⟨s', hs'⟩ := h
        cases hs'
      · obtain ⟨s', hs'⟩ := h.1
        rw [hs] at hs'
        cases hs'
    · refine ⟨fun h => ⟨⟨t, hs⟩, fun s' hs' => ?_⟩, fun h => ih.mpr (h.2 t hs)⟩
      obtain rfl : t = s' := Option.some.inj (hs.symm.trans hs')
      exact ih.mp h

/-- **The simulation rule.** A relation to an abstract state, kept by every step
meeting `P`, is kept by a run whose steps all meet `P`. -/
theorem simulates {τ : Type w} {f : τ → ε → τ} {R : σ → τ → Prop}
    (hstep : ∀ s t e s', R s t → P s e → step s e = some s' → R s' (f t e)) :
    ∀ {es : List ε} {s s' : σ} {t : τ}, EachStep step P s es → R s t →
      runFrom step s es = some s' → R s' (es.foldl f t) := by
  intro es
  induction es with
  | nil =>
    intro s s' t _ hR hrun
    obtain rfl : s = s' := Option.some.inj hrun
    exact hR
  | cons e es ih =>
    intro s s' t hP hR hrun
    rw [runFrom_cons] at hrun
    rcases hs : step s e with _ | u
    · rw [hs] at hrun
      cases hrun
    · rw [hs] at hrun
      exact ih (hP.2 u hs) (hstep s t e u hR hP.1 hs) hrun

/-- **The invariant rule.** What every step meeting `P` keeps, a run whose
steps all meet `P` keeps. -/
theorem invariant {I : σ → Prop}
    (hstep : ∀ s e s', I s → P s e → step s e = some s' → I s') {es : List ε} {s s' : σ}
    (hP : EachStep step P s es) (hI : I s) (hrun : runFrom step s es = some s') : I s' :=
  simulates (f := fun (u : Unit) _ => u) (R := fun s _ => I s)
    (fun s _ e s' hI hP hs => hstep s e s' hI hP hs) hP (t := ()) hI hrun

/-- **The totality rule.** If from an invariant state every step meeting `P` is
defined and keeps the invariant, a run whose steps all meet `P` is defined. -/
theorem total {I : σ → Prop}
    (hstep : ∀ s e, I s → P s e → ∃ s', step s e = some s' ∧ I s') :
    ∀ {es : List ε} {s : σ}, EachStep step P s es → I s →
      ∃ s', runFrom step s es = some s' ∧ I s' := by
  intro es
  induction es with
  | nil =>
    intro s _ hI
    exact ⟨s, rfl, hI⟩
  | cons e es ih =>
    intro s hP hI
    obtain ⟨t, ht, hIt⟩ := hstep s e hI hP.1
    obtain ⟨s', hs', hI'⟩ := ih (hP.2 t ht) hIt
    refine ⟨s', ?_, hI'⟩
    rw [runFrom_cons, ht]
    exact hs'

end EachStep

/-- The run is defined, and all of its states meet `I`. -/
def Throughout (step : σ → ε → Option σ) (I : σ → Prop) (s : σ) (es : List ε) : Prop :=
  ∀ front back, es = front ++ back → ∃ t, runFrom step s front = some t ∧ I t

namespace Throughout

variable {step : σ → ε → Option σ} {I : σ → Prop} {s : σ} {e : ε} {es : List ε}

theorem cons_iff : Throughout step I s (e :: es) ↔
    I s ∧ ∃ t, step s e = some t ∧ Throughout step I t es := by
  refine ⟨fun h => ?_, fun h => ?_⟩
  · obtain ⟨_, h₀, hI⟩ := h [] (e :: es) rfl
    cases h₀
    refine ⟨hI, ?_⟩
    rcases hs : step s e with _ | t
    · obtain ⟨u, hu, -⟩ := h [e] es rfl
      rw [runFrom_cons, hs] at hu
      cases hu
    · refine ⟨t, rfl, fun front back hes => ?_⟩
      obtain ⟨u, hu, hI⟩ := h (e :: front) back (by rw [hes, List.cons_append])
      rw [runFrom_cons, hs] at hu
      exact ⟨u, hu, hI⟩
  · obtain ⟨hI, t, hs, h⟩ := h
    intro front back hes
    cases front with
    | nil => exact ⟨s, rfl, hI⟩
    | cons f front =>
      obtain ⟨rfl, htail⟩ := List.cons.inj hes
      obtain ⟨u, hu, hI⟩ := h front back htail
      refine ⟨u, ?_, hI⟩
      rw [runFrom_cons, hs]
      exact hu

/-- **The exact rule, with an invariant beside.** Let the steps that meet `P` meet `Q` and keep
`I`, together with an invariant `J`; and let a step from such a state that meets `Q` and keeps
`I` meet `P`. Then a run meets `Q` and `I` throughout exactly when each of its steps meets `P`. -/
theorem and_eachStep_iff_of {J : σ → Prop} {P Q : σ → ε → Prop}
    (hkeep : ∀ s e, I s → J s → P s e → Q s e ∧ ∃ s', step s e = some s' ∧ I s' ∧ J s')
    (hneed : ∀ s e s', I s → J s → Q s e → step s e = some s' → I s' → P s e) :
    ∀ {es : List ε} {s : σ}, I s → J s →
      ((Throughout step I s es ∧ EachStep step Q s es) ↔ EachStep step P s es) := by
  intro es
  induction es with
  | nil =>
    intro s hI _
    refine ⟨fun _ => EachStep.nil s, fun _ => ⟨fun front back hes => ?_, EachStep.nil s⟩⟩
    obtain ⟨rfl, -⟩ := List.append_eq_nil_iff.mp hes.symm
    exact ⟨s, rfl, hI⟩
  | cons e es ih =>
    intro s hI hJ
    rw [cons_iff]
    refine ⟨fun h => ?_, fun h => ?_⟩
    · obtain ⟨⟨-, t, hs, ht⟩, hQ, hQs⟩ := h
      obtain ⟨u, hu, hIt⟩ := ht [] es rfl
      cases hu
      have hP := hneed s e t hI hJ hQ hs hIt
      refine ⟨hP, fun s' hs' => ?_⟩
      obtain ⟨-, u, hu, -, hJu⟩ := hkeep s e hI hJ hP
      obtain rfl := Option.some.inj (hs.symm.trans hs')
      obtain rfl := Option.some.inj (hs.symm.trans hu)
      exact (ih hIt hJu).mp ⟨ht, hQs t hs⟩
    · obtain ⟨hQ, t, hs, hIt, hJt⟩ := hkeep s e hI hJ h.1
      obtain ⟨ht, hQt⟩ := (ih hIt hJt).mpr (h.2 t hs)
      refine ⟨⟨hI, t, hs, ht⟩, hQ, fun s' hs' => ?_⟩
      obtain rfl := Option.some.inj (hs.symm.trans hs')
      exact hQt

/-- **The exact rule for a run and its steps.** If from an invariant state a step meets `Q` and
keeps the invariant exactly when it meets `P`, a run does so throughout exactly when each of its
steps meets `P`. -/
theorem and_eachStep_iff {P Q : σ → ε → Prop}
    (hstep : ∀ s e, I s → ((Q s e ∧ ∃ s', step s e = some s' ∧ I s') ↔ P s e)) {es : List ε}
    {s : σ} (hI : I s) :
    (Throughout step I s es ∧ EachStep step Q s es) ↔ EachStep step P s es := by
  refine and_eachStep_iff_of (J := fun _ => True) (fun s e hI _ hP => ?_)
    (fun s e s' hI _ hQ hs hI' => (hstep s e hI).mp ⟨hQ, s', hs, hI'⟩) hI trivial
  obtain ⟨hQ, s', hs, hI'⟩ := (hstep s e hI).mpr hP
  exact ⟨hQ, s', hs, hI', trivial⟩

/-- **The exact rule.** If from an invariant state a step is defined and keeps the invariant
exactly when it meets `P`, a run does so throughout exactly when each of its steps meets `P`. -/
theorem iff_eachStep {P : σ → ε → Prop}
    (hstep : ∀ s e, I s → ((∃ s', step s e = some s' ∧ I s') ↔ P s e)) {es : List ε} {s : σ}
    (hI : I s) : Throughout step I s es ↔ EachStep step P s es := by
  have htrue : ∀ (es : List ε) (s : σ), EachStep step (fun _ _ => True) s es := by
    intro es
    induction es with
    | nil => exact EachStep.nil
    | cons e es ih => exact fun s => ⟨trivial, fun s' _ => ih s'⟩
  rw [← and_eachStep_iff (Q := fun _ _ => True)
    (fun s e hI => Iff.trans (and_iff_right trivial) (hstep s e hI)) hI]
  exact (and_iff_left (htrue es s)).symm

end Throughout

end MediaFramework
