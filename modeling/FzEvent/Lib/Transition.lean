import Mathlib.Data.List.Induction

/-
  Labelled transition systems with partial, executable
  steps, and the induction rules over their finite runs.

  A step that the system does not offer, or that ends it, is
  `none`. A run may be required to meet a condition before
  every step; the invariant rule is stated for such runs, and
  the usual rule is its instance at the trivial condition.

  Main declarations:
    * `Transition.System` and `System.exec`
    * `System.Reachable` and `System.Meets`
    * `System.invariant_of_meets`
    * `System.invariant_of_reachable` and
      `System.invariant_of_exec`
    * `System.exec_isSome_of_meets`
    * `System.simulation_of_meets`,
      `System.projection_of_meets` and
      `System.meets_iff_of_simulation`
    * `System.refinement_of_meets`
    * `System.Always` and `System.always_iff_meets`
    * `System.length_le_of_measure` and
      `System.exists_final_of_measure`
-/

------------------------------------------------------------
-- Systems and Runs
------------------------------------------------------------

namespace Transition

/- An initial state and a partial step for every label. -/
structure System (σ ℓ : Type) where
  init : σ
  step : σ → ℓ → Option σ

namespace System

variable {σ ℓ : Type}

/- The state after a list of steps, when all are offered. -/
def exec
    (S : System σ ℓ) :
    σ → List ℓ → Option σ
| s, [] => some s
| s, l :: ls =>
    match S.step s l with
    | none => none
    | some t => S.exec t ls

/- Some run from the initial state ends in `s`. -/
def Reachable
    (S : System σ ℓ)
    (s : σ) : Prop :=
  ∃ ls, S.exec S.init ls = some s

/- Every step of the run is taken in a state meeting `cond`. -/
def Meets
    (S : System σ ℓ)
    (cond : σ → ℓ → Prop) :
    σ → List ℓ → Prop
| _, [] => True
| s, l :: ls =>
    cond s l ∧
      match S.step s l with
      | none => True
      | some t => S.Meets cond t ls

instance decidableMeets
    (S : System σ ℓ)
    (cond : σ → ℓ → Prop)
    [∀ s l, Decidable (cond s l)]
    (s : σ)
    (ls : List ℓ) :
    Decidable (S.Meets cond s ls) :=
  match ls with
  | [] => .isTrue trivial
  | l :: ls =>
      match hStep : S.step s l with
      | none =>
          decidable_of_iff (cond s l) (by
            simp [Meets, hStep])
      | some t =>
          have := decidableMeets S cond t ls
          decidable_of_iff
            (cond s l ∧ S.Meets cond t ls) (by
              simp [Meets, hStep])

@[simp] theorem exec_nil
    (S : System σ ℓ)
    (s : σ) :
    S.exec s [] = some s := rfl

theorem exec_cons
    (S : System σ ℓ)
    (s : σ)
    (l : ℓ)
    (ls : List ℓ) :
    S.exec s (l :: ls) =
      (S.step s l).bind (fun t => S.exec t ls) := by
  cases hStep : S.step s l <;> simp [exec, hStep]

/- A run splits at any point. -/
theorem exec_append
    (S : System σ ℓ)
    (s : σ)
    (ls ms : List ℓ) :
    S.exec s (ls ++ ms) =
      (S.exec s ls).bind (fun t => S.exec t ms) := by
  induction ls generalizing s with
  | nil => rfl
  | cons l ls ih =>
      rw [List.cons_append, exec_cons, exec_cons]
      cases S.step s l with
      | none => rfl
      | some t => exact ih t

theorem exec_cons_eq_some_iff
    (S : System σ ℓ)
    {s u : σ}
    {l : ℓ}
    {ls : List ℓ} :
    S.exec s (l :: ls) = some u ↔
      ∃ t, S.step s l = some t ∧ S.exec t ls = some u := by
  rw [exec_cons, Option.bind_eq_some_iff]

end System

end Transition

------------------------------------------------------------
-- Runs under a Condition
------------------------------------------------------------

namespace Transition

namespace System

variable {σ ℓ : Type}

theorem meets_cons_iff
    (S : System σ ℓ)
    (cond : σ → ℓ → Prop)
    (s : σ)
    (l : ℓ)
    (ls : List ℓ) :
    S.Meets cond s (l :: ls) ↔
      cond s l ∧
        ∀ t, S.step s l = some t → S.Meets cond t ls := by
  cases hStep : S.step s l <;> simp [Meets, hStep]

/- A condition on a run is one on its two halves. -/
theorem meets_append_iff
    (S : System σ ℓ)
    (cond : σ → ℓ → Prop)
    (s : σ)
    (ls ms : List ℓ) :
    S.Meets cond s (ls ++ ms) ↔
      S.Meets cond s ls ∧
        ∀ t, S.exec s ls = some t → S.Meets cond t ms := by
  induction ls generalizing s with
  | nil => simp [Meets]
  | cons l ls ih =>
      rw [List.cons_append, meets_cons_iff, meets_cons_iff]
      cases hStep : S.step s l with
      | none => simp [exec, hStep]
      | some t => simp [exec, hStep, ih, and_assoc]

/- The steps of a run one by one. -/
theorem meets_iff_forall_split
    (S : System σ ℓ)
    (cond : σ → ℓ → Prop)
    (s : σ)
    (ls : List ℓ) :
    S.Meets cond s ls ↔
      ∀ before l after t,
        ls = before ++ l :: after →
          S.exec s before = some t → cond t l := by
  constructor
  · intro hMeets before l after t hSplit hRun
    rw [hSplit, meets_append_iff] at hMeets
    exact ((S.meets_cons_iff cond t l after).mp
      (hMeets.2 t hRun)).1
  · intro hAll
    induction ls generalizing s with
    | nil => trivial
    | cons l ls ih =>
        rw [meets_cons_iff]
        refine ⟨hAll [] l ls s rfl rfl, ?_⟩
        intro t hStep
        apply ih
        intro before l' after u hSplit hRun
        apply hAll (l :: before) l' after u
        · rw [hSplit, List.cons_append]
        · exact (S.exec_cons_eq_some_iff).mpr
            ⟨t, hStep, hRun⟩

/- Every run meets the trivial condition. -/
theorem meets_true
    (S : System σ ℓ)
    (s : σ)
    (ls : List ℓ) :
    S.Meets (fun _ _ => True) s ls := by
  induction ls generalizing s with
  | nil => trivial
  | cons l ls ih =>
      rw [meets_cons_iff]
      exact ⟨trivial, fun t _ => ih t⟩

/- A condition on labels alone is met by lists of them. -/
theorem meets_of_forall
    (S : System σ ℓ)
    {cond : ℓ → Prop}
    (s : σ)
    {ls : List ℓ}
    (hLabels : ∀ l ∈ ls, cond l) :
    S.Meets (fun _ l => cond l) s ls := by
  induction ls generalizing s with
  | nil => trivial
  | cons l ls ih =>
      rw [List.forall_mem_cons] at hLabels
      rw [meets_cons_iff]
      exact ⟨hLabels.1, fun t _ => ih t hLabels.2⟩

/-
  Conditions that agree in all states of an invariant are met
  by the same runs.
-/
theorem meets_iff_of_invariant
    (S : System σ ℓ)
    {cond cond' : σ → ℓ → Prop}
    (Inv : σ → Prop)
    (hInv :
      ∀ s l t, Inv s → S.step s l = some t → Inv t)
    (hCond : ∀ s l, Inv s → (cond s l ↔ cond' s l))
    {s : σ}
    (hStart : Inv s)
    (ls : List ℓ) :
    S.Meets cond s ls ↔ S.Meets cond' s ls := by
  induction ls generalizing s with
  | nil => simp [Meets]
  | cons l ls ih =>
      rw [meets_cons_iff, meets_cons_iff, hCond s l hStart]
      refine and_congr_right (fun _ => forall_congr' ?_)
      intro t
      exact forall_congr'
        (fun hNext => ih (hInv s l t hStart hNext))

/- Two conditions on a run are their conjunction. -/
theorem meets_and_iff
    (S : System σ ℓ)
    (cond cond' : σ → ℓ → Prop)
    (s : σ)
    (ls : List ℓ) :
    S.Meets (fun s l => cond s l ∧ cond' s l) s ls ↔
      S.Meets cond s ls ∧ S.Meets cond' s ls := by
  induction ls generalizing s with
  | nil => simp [Meets]
  | cons l ls ih =>
      simp only [meets_cons_iff]
      constructor
      · rintro ⟨⟨hCond, hCond'⟩, hRest⟩
        exact ⟨⟨hCond, fun t hStep =>
            ((ih t).mp (hRest t hStep)).1⟩,
          hCond', fun t hStep =>
            ((ih t).mp (hRest t hStep)).2⟩
      · rintro ⟨⟨hCond, hRest⟩, hCond', hRest'⟩
        exact ⟨⟨hCond, hCond'⟩, fun t hStep =>
          (ih t).mpr ⟨hRest t hStep, hRest' t hStep⟩⟩

/-
  The invariant rule: what every step taken under the
  condition preserves holds at the end of every run whose
  steps all meet the condition.
-/
theorem invariant_of_meets
    (S : System σ ℓ)
    {cond : σ → ℓ → Prop}
    (Inv : σ → Prop)
    (hStep :
      ∀ s l t, Inv s → cond s l → S.step s l = some t →
        Inv t)
    {s u : σ}
    {ls : List ℓ}
    (hInv : Inv s)
    (hMeets : S.Meets cond s ls)
    (hRun : S.exec s ls = some u) :
    Inv u := by
  induction ls generalizing s with
  | nil =>
      rw [exec_nil, Option.some.injEq] at hRun
      subst hRun
      exact hInv
  | cons l ls ih =>
      rcases (S.exec_cons_eq_some_iff).mp hRun with
        ⟨t, hFirst, hRest⟩
      rcases (S.meets_cons_iff cond s l ls).mp hMeets with
        ⟨hCond, hMeetsRest⟩
      exact ih (hStep s l t hInv hCond hFirst)
        (hMeetsRest t hFirst) hRest

/- The invariant rule over all reachable states. -/
theorem invariant_of_reachable
    (S : System σ ℓ)
    {Inv : σ → Prop}
    (hInit : Inv S.init)
    (hStep :
      ∀ s l t, Inv s → S.step s l = some t → Inv t)
    {s : σ}
    (hReach : S.Reachable s) :
    Inv s := by
  rcases hReach with ⟨ls, hRun⟩
  exact S.invariant_of_meets Inv
    (fun s l t hInv _ hNext => hStep s l t hInv hNext)
    hInit (S.meets_true S.init ls) hRun

/-
  The invariant rule for a property of the state and of the
  steps that led to it.
-/
theorem invariant_of_exec
    (S : System σ ℓ)
    (Inv : List ℓ → σ → Prop)
    (hInit : Inv [] S.init)
    (hStep :
      ∀ ls s l t, S.exec S.init ls = some s → Inv ls s →
        S.step s l = some t → Inv (ls ++ [l]) t)
    {ls : List ℓ}
    {s : σ}
    (hRun : S.exec S.init ls = some s) :
    Inv ls s := by
  induction ls using List.reverseRecOn generalizing s with
  | nil =>
      cases hRun
      exact hInit
  | append_singleton ls l ih =>
      rw [exec_append, Option.bind_eq_some_iff] at hRun
      rcases hRun with ⟨t, hBefore, hLast⟩
      rcases (S.exec_cons_eq_some_iff).mp hLast with
        ⟨u, hNext, hEnd⟩
      cases hEnd
      exact hStep ls t l s hBefore (ih hBefore) hNext

/-
  Progress: when the condition keeps every step on offer
  along the invariant, no run under the condition gets stuck.
-/
theorem exec_isSome_of_meets
    (S : System σ ℓ)
    {cond : σ → ℓ → Prop}
    {Inv : σ → Prop}
    (hStep :
      ∀ s l, Inv s → cond s l →
        ∃ t, S.step s l = some t ∧ Inv t)
    {s : σ}
    {ls : List ℓ}
    (hInv : Inv s)
    (hMeets : S.Meets cond s ls) :
    ∃ u, S.exec s ls = some u ∧ Inv u := by
  induction ls generalizing s with
  | nil => exact ⟨s, rfl, hInv⟩
  | cons l ls ih =>
      rcases (S.meets_cons_iff cond s l ls).mp hMeets with
        ⟨hCond, hMeetsRest⟩
      rcases hStep s l hInv hCond with ⟨t, hNext, hInvNext⟩
      rcases ih hInvNext (hMeetsRest t hNext) with
        ⟨u, hRun, hInvEnd⟩
      exact ⟨u, (S.exec_cons_eq_some_iff).mpr
        ⟨t, hNext, hRun⟩, hInvEnd⟩

end System

end Transition

------------------------------------------------------------
-- Projections and Simulations
------------------------------------------------------------

namespace Transition

namespace System

variable {σ τ ℓ : Type}

/-
  A condition on a component of the state is a condition on
  the runs of that component alone.
-/
theorem meets_projection_iff
    (S : System σ ℓ)
    (T : System τ ℓ)
    (f : σ → τ)
    (hStep :
      ∀ s l, T.step (f s) l = (S.step s l).map f)
    (cond : τ → ℓ → Prop)
    (s : σ)
    (ls : List ℓ) :
    S.Meets (fun s l => cond (f s) l) s ls ↔
      T.Meets cond (f s) ls := by
  induction ls generalizing s with
  | nil => simp [Meets]
  | cons l ls ih =>
      simp only [meets_cons_iff, hStep]
      cases hNext : S.step s l with
      | none => simp
      | some t => simp [ih]

/-
  The simulation rule: when every step of `S` under the
  condition is matched by `T` along the relation, every run
  of `S` under the condition is matched by a run of `T`.
-/
theorem simulation_of_meets
    (S : System σ ℓ)
    (T : System τ ℓ)
    {cond : σ → ℓ → Prop}
    {R : σ → τ → Prop}
    (hStep :
      ∀ s t l s', R s t → cond s l →
        S.step s l = some s' →
          ∃ t', T.step t l = some t' ∧ R s' t')
    {s u : σ}
    {t : τ}
    {ls : List ℓ}
    (hR : R s t)
    (hMeets : S.Meets cond s ls)
    (hRun : S.exec s ls = some u) :
    ∃ v, T.exec t ls = some v ∧ R u v := by
  induction ls generalizing s t with
  | nil =>
      rw [exec_nil, Option.some.injEq] at hRun
      subst hRun
      exact ⟨t, rfl, hR⟩
  | cons l ls ih =>
      rcases (S.exec_cons_eq_some_iff).mp hRun with
        ⟨s', hFirst, hRest⟩
      rcases (S.meets_cons_iff cond s l ls).mp hMeets with
        ⟨hCond, hMeetsRest⟩
      rcases hStep s t l s' hR hCond hFirst with
        ⟨t', hMatch, hR'⟩
      rcases ih hR' (hMeetsRest s' hFirst) hRest with
        ⟨v, hRunT, hEnd⟩
      exact ⟨v, (T.exec_cons_eq_some_iff).mpr
        ⟨t', hMatch, hRunT⟩, hEnd⟩

/-
  The projection rule: when `T` matches the steps that are
  kept and the other steps of `S` keep the relation, every
  run of `S` under the condition is matched by the run of `T`
  over the steps that are kept.
-/
theorem projection_of_meets
    (S : System σ ℓ)
    (T : System τ ℓ)
    (keep : ℓ → Bool)
    {cond : σ → ℓ → Prop}
    {R : σ → τ → Prop}
    (hKeep :
      ∀ s t l s', R s t → cond s l → keep l = true →
        S.step s l = some s' →
          ∃ t', T.step t l = some t' ∧ R s' t')
    (hDrop :
      ∀ s t l s', R s t → cond s l → keep l = false →
        S.step s l = some s' → R s' t)
    {s u : σ}
    {t : τ}
    {ls : List ℓ}
    (hR : R s t)
    (hMeets : S.Meets cond s ls)
    (hRun : S.exec s ls = some u) :
    ∃ v, T.exec t (ls.filter keep) = some v ∧ R u v := by
  induction ls generalizing s t with
  | nil =>
      rw [exec_nil, Option.some.injEq] at hRun
      subst hRun
      exact ⟨t, rfl, hR⟩
  | cons l ls ih =>
      rcases (S.exec_cons_eq_some_iff).mp hRun with
        ⟨s', hFirst, hRest⟩
      rcases (S.meets_cons_iff cond s l ls).mp hMeets with
        ⟨hCond, hMeetsRest⟩
      cases hKept : keep l with
      | true =>
          rcases hKeep s t l s' hR hCond hKept hFirst with
            ⟨t', hMatch, hR'⟩
          rcases ih hR' (hMeetsRest s' hFirst) hRest with
            ⟨v, hRunT, hEnd⟩
          rw [List.filter_cons_of_pos hKept]
          exact ⟨v, (T.exec_cons_eq_some_iff).mpr
            ⟨t', hMatch, hRunT⟩, hEnd⟩
      | false =>
          have hR' := hDrop s t l s' hR hCond hKept hFirst
          rw [List.filter_cons_of_neg (by simp [hKept])]
          exact ih hR' (hMeetsRest s' hFirst) hRest

/-
  The exact simulation rule: when in related states an
  admitted step of `S` has the property just under the
  condition, and is then matched by `T`, every step of a run
  has the property exactly when the run meets the condition.
-/
theorem meets_iff_of_simulation
    (S : System σ ℓ)
    (T : System τ ℓ)
    {admits cond : σ → ℓ → Prop}
    {P : σ → τ → ℓ → Prop}
    {R : σ → τ → Prop}
    (hStep :
      ∀ s t l, R s t → admits s l →
        (P s t l ↔ cond s l) ∧
          (cond s l → ∀ s', S.step s l = some s' →
            ∃ t', T.step t l = some t' ∧ R s' t'))
    {s : σ}
    {t : τ}
    {ls : List ℓ}
    (hR : R s t)
    (hAdmits : S.Meets admits s ls) :
    (∀ before l after u v,
      ls = before ++ l :: after →
        S.exec s before = some u →
          T.exec t before = some v → P u v l) ↔
      S.Meets cond s ls := by
  induction ls generalizing s t with
  | nil => simp [Meets]
  | cons l ls ih =>
      rw [meets_cons_iff] at hAdmits
      rcases hAdmits with ⟨hAdmitsHere, hAdmitsRest⟩
      rcases hStep s t l hR hAdmitsHere with ⟨hIff, hMatch⟩
      rw [meets_cons_iff]
      constructor
      · intro hAll
        have hCond : cond s l :=
          hIff.mp (hAll [] l ls s t rfl rfl rfl)
        refine ⟨hCond, ?_⟩
        intro s' hNext
        rcases hMatch hCond s' hNext with ⟨t', hNextT, hR'⟩
        rw [← ih hR' (hAdmitsRest s' hNext)]
        intro before l' after u v hSplit hRun hRunT
        apply hAll (l :: before) l' after u v
        · rw [hSplit, List.cons_append]
        · exact (S.exec_cons_eq_some_iff).mpr
            ⟨s', hNext, hRun⟩
        · exact (T.exec_cons_eq_some_iff).mpr
            ⟨t', hNextT, hRunT⟩
      · rintro ⟨hCond, hRest⟩ before l' after u v hSplit
          hRun hRunT
        cases before with
        | nil =>
            rw [List.nil_append, List.cons.injEq] at hSplit
            rw [exec_nil, Option.some.injEq] at hRun hRunT
            rcases hSplit with ⟨rfl, -⟩
            subst hRun hRunT
            exact hIff.mpr hCond
        | cons l'' before =>
            rw [List.cons_append, List.cons.injEq] at hSplit
            rcases hSplit with ⟨rfl, hSplit⟩
            rcases (S.exec_cons_eq_some_iff).mp hRun with
              ⟨s', hNext, hRun⟩
            rcases (T.exec_cons_eq_some_iff).mp hRunT with
              ⟨t'', hNextT, hRunT⟩
            rcases hMatch hCond s' hNext with
              ⟨t', hMatched, hR'⟩
            rw [hNextT] at hMatched
            cases hMatched
            exact (ih hR' (hAdmitsRest s' hNext)).mpr
              (hRest s' hNext) before l' after u v hSplit
              hRun hRunT

end System

end Transition

------------------------------------------------------------
-- Properties of All States of a Run
------------------------------------------------------------

namespace Transition

namespace System

variable {σ ℓ : Type}

/- Every state that the run goes through has the property. -/
def Always
    (S : System σ ℓ)
    (P : σ → Prop)
    (s : σ)
    (ls : List ℓ) : Prop :=
  ∀ before after t,
    ls = before ++ after → S.exec s before = some t → P t

theorem always_nil_iff
    (S : System σ ℓ)
    (P : σ → Prop)
    (s : σ) :
    S.Always P s [] ↔ P s := by
  constructor
  · intro hAll
    exact hAll [] [] s rfl rfl
  · intro hHere before after t hSplit hRun
    rcases List.append_eq_nil_iff.mp hSplit.symm with
      ⟨rfl, rfl⟩
    rw [exec_nil, Option.some.injEq] at hRun
    exact hRun ▸ hHere

theorem always_cons_iff
    (S : System σ ℓ)
    (P : σ → Prop)
    (s : σ)
    (l : ℓ)
    (ls : List ℓ) :
    S.Always P s (l :: ls) ↔
      P s ∧ ∀ t, S.step s l = some t → S.Always P t ls := by
  constructor
  · intro hAll
    refine ⟨hAll [] (l :: ls) s rfl rfl, ?_⟩
    intro t hStep before after u hSplit hRun
    apply hAll (l :: before) after u
    · rw [hSplit, List.cons_append]
    · exact (S.exec_cons_eq_some_iff).mpr ⟨t, hStep, hRun⟩
  · rintro ⟨hHere, hRest⟩ before after u hSplit hRun
    cases before with
    | nil =>
        rw [exec_nil, Option.some.injEq] at hRun
        exact hRun ▸ hHere
    | cons l' before =>
        rw [List.cons_append, List.cons.injEq] at hSplit
        rcases hSplit with ⟨rfl, hSplit⟩
        rcases (S.exec_cons_eq_some_iff).mp hRun with
          ⟨t, hStep, hRun⟩
        exact hRest t hStep before after u hSplit hRun

/-
  When a step keeps the property exactly under the
  condition, a run keeps it in all its states exactly when
  all its steps meet the condition. The invariant need be
  kept only where the property holds. Here the labels of the
  run are restricted as well.
-/
theorem always_iff_meets_of_forall
    (S : System σ ℓ)
    {cond : σ → ℓ → Prop}
    (label : ℓ → Prop)
    (Inv : σ → Prop)
    {P : σ → Prop}
    (hInv :
      ∀ s l t, label l → Inv s → P s → S.step s l = some t →
        Inv t)
    (hStep :
      ∀ s l t, label l → Inv s → P s →
        S.step s l = some t → (P t ↔ cond s l))
    {s : σ}
    {ls : List ℓ}
    (hLabels : ∀ l ∈ ls, label l)
    (hStart : Inv s)
    (hHere : P s)
    (hRun : (S.exec s ls).isSome) :
    S.Always P s ls ↔ S.Meets cond s ls := by
  induction ls generalizing s with
  | nil => simp [always_nil_iff, Meets, hHere]
  | cons l ls ih =>
      rw [List.forall_mem_cons] at hLabels
      rcases Option.isSome_iff_exists.mp hRun with ⟨u, hRun⟩
      rcases (S.exec_cons_eq_some_iff).mp hRun with
        ⟨t, hNext, hRest⟩
      have hNextInv : Inv t :=
        hInv s l t hLabels.1 hStart hHere hNext
      have hNextIff :=
        hStep s l t hLabels.1 hStart hHere hNext
      have hRestSome : (S.exec t ls).isSome := by
        rw [hRest]
        rfl
      simp only [always_cons_iff, meets_cons_iff, hNext,
        Option.some.injEq, forall_eq', hHere, true_and]
      constructor
      · intro hAll
        have hThere : P t :=
          hAll [] ls t rfl rfl
        exact ⟨hNextIff.mp hThere,
          (ih hLabels.2 hNextInv hThere hRestSome).mp hAll⟩
      · rintro ⟨hCond, hMeets⟩
        have hThere : P t := hNextIff.mpr hCond
        exact (ih hLabels.2 hNextInv hThere hRestSome).mpr
          hMeets

/- The same without a restriction on the labels. -/
theorem always_iff_meets
    (S : System σ ℓ)
    {cond : σ → ℓ → Prop}
    (Inv : σ → Prop)
    {P : σ → Prop}
    (hInv :
      ∀ s l t, Inv s → P s → S.step s l = some t → Inv t)
    (hStep :
      ∀ s l t, Inv s → P s → S.step s l = some t →
        (P t ↔ cond s l))
    {s : σ}
    {ls : List ℓ}
    (hStart : Inv s)
    (hHere : P s)
    (hRun : (S.exec s ls).isSome) :
    S.Always P s ls ↔ S.Meets cond s ls :=
  S.always_iff_meets_of_forall (fun _ => True) Inv
    (fun s l t _ => hInv s l t) (fun s l t _ => hStep s l t)
    (fun _ _ => trivial) hStart hHere hRun

end System

end Transition

------------------------------------------------------------
-- Refinements
------------------------------------------------------------

namespace Transition

namespace System

variable {σ τ ℓ κ : Type}

/-
  The refinement rule: when every step of `S` under the
  condition is matched by the steps of `T` that it stands for,
  none or several, every run of `S` under the condition is
  matched by the run of `T` over all that it stands for.
-/
theorem refinement_of_meets
    (S : System σ ℓ)
    (T : System τ κ)
    (standsFor : ℓ → List κ)
    {cond : σ → ℓ → Prop}
    {R : σ → τ → Prop}
    (hStep :
      ∀ s t l s', R s t → cond s l →
        S.step s l = some s' →
          ∃ t', T.exec t (standsFor l) = some t' ∧ R s' t')
    {s u : σ}
    {t : τ}
    {ls : List ℓ}
    (hR : R s t)
    (hMeets : S.Meets cond s ls)
    (hRun : S.exec s ls = some u) :
    ∃ v, T.exec t (ls.flatMap standsFor) = some v ∧ R u v := by
  induction ls generalizing s t with
  | nil =>
      rw [exec_nil, Option.some.injEq] at hRun
      subst hRun
      exact ⟨t, rfl, hR⟩
  | cons l ls ih =>
      rcases (S.exec_cons_eq_some_iff).mp hRun with
        ⟨s', hFirst, hRest⟩
      rcases (S.meets_cons_iff cond s l ls).mp hMeets with
        ⟨hCond, hMeetsRest⟩
      rcases hStep s t l s' hR hCond hFirst with
        ⟨t', hMatch, hR'⟩
      rcases ih hR' (hMeetsRest s' hFirst) hRest with
        ⟨v, hRunT, hEnd⟩
      refine ⟨v, ?_, hEnd⟩
      rw [List.flatMap_cons, exec_append, hMatch,
        Option.bind_some]
      exact hRunT

end System

end Transition

------------------------------------------------------------
-- Runs that End
------------------------------------------------------------

namespace Transition

namespace System

variable {σ ℓ : Type}

/-
  A measure that every step under the condition lowers bounds
  the length of every run under the condition.
-/
theorem length_le_of_measure
    (S : System σ ℓ)
    {cond : σ → ℓ → Prop}
    {Inv : σ → Prop}
    (measure : σ → Nat)
    (hStep :
      ∀ s l t, Inv s → cond s l → S.step s l = some t →
        Inv t ∧ measure t < measure s)
    {s u : σ}
    {ls : List ℓ}
    (hInv : Inv s)
    (hMeets : S.Meets cond s ls)
    (hRun : S.exec s ls = some u) :
    ls.length + measure u ≤ measure s := by
  induction ls generalizing s with
  | nil =>
      rw [exec_nil, Option.some.injEq] at hRun
      subst hRun
      simp
  | cons l ls ih =>
      rcases (S.exec_cons_eq_some_iff).mp hRun with
        ⟨t, hFirst, hRest⟩
      rcases (S.meets_cons_iff cond s l ls).mp hMeets with
        ⟨hCond, hMeetsRest⟩
      rcases hStep s l t hInv hCond hFirst with
        ⟨hNext, hLess⟩
      have hLe := ih hNext (hMeetsRest t hFirst) hRest
      rw [List.length_cons]
      omega

/-
  With such a measure the steps that are allowed can be taken
  until there is none any more.
-/
theorem exists_final_of_measure
    (S : System σ ℓ)
    {allowed : σ → ℓ → Prop}
    {Inv : σ → Prop}
    (measure : σ → Nat)
    (hStep :
      ∀ s l t, Inv s → allowed s l → S.step s l = some t →
        Inv t ∧ measure t < measure s)
    {s : σ}
    (hInv : Inv s) :
    ∃ ls t,
      S.exec s ls = some t ∧ S.Meets allowed s ls ∧
        ∀ l, allowed t l → S.step t l = none := by
  induction hMeasure : measure s using Nat.strongRecOn
    generalizing s with
  | ind n ih =>
      by_cases hFinal : ∀ l, allowed s l → S.step s l = none
      · exact ⟨[], s, rfl, trivial, hFinal⟩
      · simp only [not_forall] at hFinal
        rcases hFinal with ⟨l, hAllowed, hSome⟩
        rcases Option.ne_none_iff_exists'.mp hSome with
          ⟨t, hNext⟩
        rcases hStep s l t hInv hAllowed hNext with
          ⟨hInvNext, hLess⟩
        rcases ih (measure t) (hMeasure ▸ hLess) hInvNext rfl
          with ⟨ls, u, hRun, hMeets, hEnd⟩
        refine ⟨l :: ls, u, ?_, ?_, hEnd⟩
        · exact (S.exec_cons_eq_some_iff).mpr
            ⟨t, hNext, hRun⟩
        · rw [meets_cons_iff]
          refine ⟨hAllowed, ?_⟩
          intro t' hNext'
          rw [hNext, Option.some_inj] at hNext'
          exact hNext' ▸ hMeets

end System

end Transition
