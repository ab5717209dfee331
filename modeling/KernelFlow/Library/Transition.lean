import Mathlib

universe u v w

/-!
# Runs of a nondeterministic transition relation

A step relation says what one atomic action may do.  Two things are asked of
such a relation below.  Safety concerns every state that some run reaches and
follows from an invariant.  Inevitability concerns every maximal run: whatever
choices are made, a goal is met after finitely many steps.  The second notion
excludes both an infinite run that avoids the goal and a state that is stuck
before it, so it is the right reading of "the call returns" when the order of
the steps is not under the program's control.
-/

namespace Transition

variable {σ : Type u} {step : σ -> σ -> Prop}

/-- Every state that some finite run reaches from the supplied one. -/
abbrev Reaches (step : σ -> σ -> Prop) : σ -> σ -> Prop :=
  Relation.ReflTransGen step

/-- A property that every step keeps holds along every run. -/
theorem Reaches.invariant {holds : σ -> Prop} {start finish : σ}
    (run : Reaches step start finish) (initially : holds start)
    (keeps : forall before after, holds before -> step before after -> holds after) :
    holds finish := by
  induction run with
  | refl => exact initially
  | tail _earlier last inductionHypothesis => exact keeps _ _ inductionHypothesis last

/-- A projection that sends every step to a run sends runs to runs. -/
theorem Reaches.project {τ : Type v} {coarse : τ -> τ -> Prop} {project : σ -> τ}
    {start finish : σ} (run : Reaches step start finish)
    (simulates : forall before after, step before after ->
      Reaches coarse (project before) (project after)) :
    Reaches coarse (project start) (project finish) :=
  Relation.ReflTransGen.lift' project simulates _ _ run

/-- Runs of a restricted relation are runs of the full one. -/
theorem Reaches.weaken {full : σ -> σ -> Prop} {start finish : σ}
    (run : Reaches step start finish)
    (included : forall before after, step before after -> full before after) :
    Reaches full start finish :=
  Relation.ReflTransGen.mono included _ _ run

/-- Every maximal run from the state meets the goal after finitely many steps. -/
inductive Inevitably (step : σ -> σ -> Prop) (goal : σ -> Prop) : σ -> Prop
  | now {state : σ} (met : goal state) : Inevitably step goal state
  | later {state : σ} (enabled : ∃ next, step state next)
      (continues : forall next, step state next -> Inevitably step goal next) :
      Inevitably step goal state

namespace Inevitably

variable {goal : σ -> Prop}

theorem mono {weaker : σ -> Prop} {state : σ} (inevitable : Inevitably step goal state)
    (implied : forall state, goal state -> weaker state) : Inevitably step weaker state := by
  induction inevitable with
  | now met => exact .now (implied _ met)
  | later enabled _continues inductionHypothesis => exact .later enabled inductionHypothesis

/-- An invariant may be added to the goal. -/
theorem and_invariant {holds : σ -> Prop} {state : σ}
    (inevitable : Inevitably step goal state) (initially : holds state)
    (keeps : forall before after, holds before -> step before after -> holds after) :
    Inevitably step (fun state => holds state ∧ goal state) state := by
  induction inevitable with
  | now met => exact .now ⟨initially, met⟩
  | later enabled _continues inductionHypothesis =>
      exact .later enabled fun next taken =>
        inductionHypothesis next taken (keeps _ _ initially taken)

/-- The termination rule: an invariant under which every state that has not
met the goal can move, and every step lowers a well-founded measure. -/
theorem of_measure {μ : Type w} [Preorder μ] [WellFoundedLT μ]
    {holds : σ -> Prop} (measure : σ -> μ)
    (keeps : forall before after, holds before -> step before after -> holds after)
    (progress : forall state, holds state -> ¬ goal state -> ∃ next, step state next)
    (decreases : forall before after, holds before -> step before after ->
      measure after < measure before)
    (state : σ) (initially : holds state) : Inevitably step goal state := by
  have byMeasure : forall bound state, measure state = bound -> holds state ->
      Inevitably step goal state := by
    intro bound
    induction bound using WellFoundedLT.induction with
    | ind bound inductionHypothesis =>
        intro state atBound invariant
        by_cases met : goal state
        · exact .now met
        · refine .later (progress state invariant met) ?_
          intro next taken
          have smaller := decreases state next invariant taken
          rw [atBound] at smaller
          exact inductionHypothesis _ smaller next rfl (keeps state next invariant taken)
  exact byMeasure _ state rfl initially

/-- If a restricted relation can move wherever the full one can, then it meets
an inevitable goal by its own moves alone. -/
theorem exists_restricted_run {restricted : σ -> σ -> Prop} {holds : σ -> Prop}
    {state : σ} (inevitable : Inevitably step goal state)
    (included : forall before after, restricted before after -> step before after)
    (initially : holds state)
    (keeps : forall before after, holds before -> restricted before after -> holds after)
    (progress : forall state, holds state -> ¬ goal state -> (∃ next, step state next) ->
      ∃ next, restricted state next) :
    ∃ finish, Reaches restricted state finish ∧ goal finish := by
  induction inevitable with
  | now met => exact ⟨_, Relation.ReflTransGen.refl, met⟩
  | @later state enabled _continues inductionHypothesis =>
      by_cases met : goal state
      · exact ⟨state, Relation.ReflTransGen.refl, met⟩
      · rcases progress state initially met enabled with ⟨next, taken⟩
        rcases inductionHypothesis next (included _ _ taken) (keeps _ _ initially taken) with
          ⟨finish, run, reached⟩
        exact ⟨finish, Relation.ReflTransGen.head taken run, reached⟩

end Inevitably

end Transition
