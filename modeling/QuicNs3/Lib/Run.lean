/-
# Runs of a partial step function

A component is given by a state type and a step function `σ → ε → Option σ`:
`none` is an operation the component's callers may not make in that state, so
a run (`run`) exists only for a sequence of operations each of which is allowed
where it is made.  Two questions are asked of a run.  Which predicates hold in
every state it passes through (`Always`), and which conditions every one of its
steps meets, read in the state before the step (`EachStep`).

`run_invariant` is the rule of invariants.  `always_iff_eachStep` turns a fact
about one step into one about whole runs: when a step leaves `P` true exactly if
the state before it meets `C`, then `P` holds throughout a run exactly if every
step of that run meets `C`.

A history is a list of what has happened; `EachAfter` says something of each of its
entries and those before it.
-/

import Mathlib.Data.List.Induction

namespace QuicNs3
namespace Lib

variable {σ ε : Type*} {step : σ → ε → Option σ} {s t u : σ} {es fs : List ε} {e : ε}

/-- The state after the operations `es`, if each is allowed where it is made. -/
def run (step : σ → ε → Option σ) : σ → List ε → Option σ
  | s, [] => some s
  | s, e :: es => (step s e).bind fun t => run step t es

/-- `P` holds in every state a run of `es` from `s` passes through, `s` and the
last one included. -/
def Always (step : σ → ε → Option σ) (P : σ → Prop) (s : σ) (es : List ε) : Prop :=
  ∀ pre t, pre <+: es → run step s pre = some t → P t

/-- Every step of a run of `es` from `s` meets `C` in the state before it. -/
def EachStep (step : σ → ε → Option σ) (C : σ → ε → Prop) (s : σ) (es : List ε) : Prop :=
  ∀ pre e t, pre ++ [e] <+: es → run step s pre = some t → C t e

@[simp] theorem run_nil : run step s [] = some s := rfl

@[simp] theorem run_cons : run step s (e :: es) = (step s e).bind fun t => run step t es := rfl

theorem run_append : run step s (es ++ fs) = (run step s es).bind fun t => run step t fs := by
  induction es generalizing s with
  | nil => rfl
  | cons e es ih =>
    cases h : step s e with
    | none => simp [h]
    | some t => simp [h, ih]

theorem run_concat : run step s (es ++ [e]) = (run step s es).bind fun t => step t e := by
  simp [run_append]

/-- The last step of a run, taken apart. -/
theorem run_concat_eq_some :
    run step s (es ++ [e]) = some u ↔ ∃ t, run step s es = some t ∧ step t e = some u := by
  rw [run_concat, Option.bind_eq_some_iff]

/-- A prefix of a run is a run. -/
theorem exists_run_of_prefix (h : fs <+: es) (hr : run step s es = some t) :
    ∃ u, run step s fs = some u := by
  obtain ⟨gs, rfl⟩ := h
  rw [run_append, Option.bind_eq_some_iff] at hr
  exact ⟨hr.choose, hr.choose_spec.1⟩

/-- **The rule of invariants.**  What holds at the start and is kept by every
step holds wherever a run ends. -/
theorem run_invariant {P : σ → Prop} (hstep : ∀ s e t, P s → step s e = some t → P t)
    (hs : P s) (hr : run step s es = some t) : P t := by
  induction es using List.reverseRecOn generalizing t with
  | nil => exact Option.some.inj hr ▸ hs
  | append_singleton es e ih =>
    obtain ⟨u, hu, he⟩ := run_concat_eq_some.1 hr
    exact hstep u e t (ih hu) he

/-- Where `v` differs from what it was at the start, some step was the last to change
it. -/
theorem exists_last_change {α : Type*} (v : σ → α) (hr : run step s es = some t)
    (hne : v t ≠ v s) :
    ∃ pre e post u w, es = pre ++ e :: post ∧ run step s pre = some u ∧ step u e = some w ∧
      v w ≠ v u ∧ v w = v t := by
  induction es using List.reverseRecOn generalizing t with
  | nil => exact absurd (congrArg v (Option.some.inj hr).symm) hne
  | append_singleton es e ih =>
    obtain ⟨u, hu, he⟩ := run_concat_eq_some.1 hr
    by_cases hlast : v t = v u
    · obtain ⟨pre, e', post, u', w, rfl, hu', he', hchange, hw⟩ := ih hu (hlast ▸ hne)
      exact ⟨pre, e', post ++ [e], u', w, by simp, hu', he', hchange, hw.trans hlast.symm⟩
    · exact ⟨es, e, [], u, t, rfl, hu, he, hlast, rfl⟩

/-- The rule of invariants for every state on the way. -/
theorem always_of_step {P : σ → Prop} (hstep : ∀ s e t, P s → step s e = some t → P t)
    (hs : P s) : Always step P s es :=
  fun _ _ _ hr => run_invariant hstep hs hr

theorem Always.last {P : σ → Prop} (h : Always step P s es) (hr : run step s es = some t) : P t :=
  h es t (List.prefix_refl es) hr

theorem Always.mono {P Q : σ → Prop} (h : Always step P s es) (hPQ : ∀ s, P s → Q s) :
    Always step Q s es :=
  fun pre t hpre hr => hPQ t (h pre t hpre hr)

/-- The states of a run, taken apart at the first. -/
theorem always_cons {P : σ → Prop} :
    Always step P s (e :: es) ↔ P s ∧ ∀ t, step s e = some t → Always step P t es := by
  constructor
  · refine fun h => ⟨h [] s List.nil_prefix rfl, fun t ht pre u hpre hu => ?_⟩
    exact h (e :: pre) u (List.cons_prefix_cons.2 ⟨rfl, hpre⟩) (by simpa [ht] using hu)
  · rintro ⟨hP, h⟩ pre u hpre hu
    cases pre with
    | nil => exact Option.some.inj hu ▸ hP
    | cons f pre =>
      obtain ⟨rfl, hpre'⟩ := List.cons_prefix_cons.1 hpre
      rw [run_cons, Option.bind_eq_some_iff] at hu
      obtain ⟨t, ht, hu⟩ := hu
      exact h t ht pre u hpre' hu

@[simp] theorem eachStep_nil {C : σ → ε → Prop} : EachStep step C s [] :=
  fun pre e t hpre _ => absurd (List.prefix_nil.1 hpre) (by simp)

/-- A condition on the operations alone. -/
theorem eachStep_of_forall {C : ε → Prop} (h : ∀ e ∈ es, C e) :
    EachStep step (fun _ e => C e) s es :=
  fun pre e _ hpre _ => h e (hpre.subset (List.mem_append_right pre (List.mem_singleton_self e)))

/-- The steps of a run, taken apart at the first. -/
theorem eachStep_cons {C : σ → ε → Prop} :
    EachStep step C s (e :: es) ↔ C s e ∧ ∀ t, step s e = some t → EachStep step C t es := by
  constructor
  · refine fun h => ⟨h [] e s (by simp) rfl, fun t ht pre e' u hpre hu => ?_⟩
    exact h (e :: pre) e' u (by simpa using hpre) (by simpa [ht] using hu)
  · rintro ⟨hC, h⟩ pre e' u hpre hu
    cases pre with
    | nil =>
      obtain rfl : e' = e := by simpa using hpre
      exact Option.some.inj hu ▸ hC
    | cons f pre =>
      obtain ⟨rfl, hpre'⟩ := List.cons_prefix_cons.1 hpre
      rw [run_cons, Option.bind_eq_some_iff] at hu
      obtain ⟨t, ht, hu⟩ := hu
      exact h t ht pre e' u hpre' hu

/-- The condition of the steps of a run is that of the steps of its end. -/
theorem EachStep.suffix {C : σ → ε → Prop} (h : EachStep step C s es) {pre mid : List ε}
    (hpre : pre ++ mid <+: es) (hr : run step s pre = some t) : EachStep step C t mid := by
  intro pre' e u hpre' hu
  refine h (pre ++ pre') e u ?_ (by rw [run_append, hr]; exact hu)
  rw [List.append_assoc]
  exact ((List.prefix_append_right_inj pre).2 hpre').trans hpre

/-- The condition of a run can be evaluated where that of a step can. -/
instance decidableEachStep {C : σ → ε → Prop} [∀ s e, Decidable (C s e)] :
    (s : σ) → (es : List ε) → Decidable (EachStep step C s es)
  | _, [] => .isTrue eachStep_nil
  | s, e :: es =>
    match h : step s e with
    | none => decidable_of_iff (C s e) (by simp [eachStep_cons, h])
    | some t =>
      have := decidableEachStep (C := C) t es
      decidable_of_iff (C s e ∧ EachStep step C t es) (by simp [eachStep_cons, h])

/-- A run whose steps all meet a condition under which the step keeps `P`. -/
theorem always_of_eachStep {P : σ → Prop} {C : σ → ε → Prop}
    (hstep : ∀ s e t, P s → C s e → step s e = some t → P t) (hs : P s)
    (hC : EachStep step C s es) : Always step P s es := by
  intro pre t hpre hr
  induction pre using List.reverseRecOn generalizing t with
  | nil => exact Option.some.inj hr ▸ hs
  | append_singleton pre e ih =>
    obtain ⟨u, hu, he⟩ := run_concat_eq_some.1 hr
    exact hstep u e t (ih u ((List.prefix_append pre [e]).trans hpre) hu) (hC pre e u hpre hu) he

/-- **From one step to whole runs.**  If, where `P` and the invariant `I` hold, a
step leaves `P` true exactly when the state before it meets `C`, then `P` holds
in every state of a run exactly when every step of the run meets `C`. -/
theorem always_iff_eachStep {I P : σ → Prop} {C : σ → ε → Prop}
    (hI : ∀ s e t, I s → step s e = some t → I t)
    (hstep : ∀ s e t, I s → P s → step s e = some t → (P t ↔ C s e))
    (hIs : I s) (hs : P s) (hr : run step s es = some t) :
    Always step P s es ↔ EachStep step C s es := by
  constructor
  · intro hP pre e u hpre hu
    obtain ⟨v, hv⟩ := exists_run_of_prefix hpre hr
    obtain ⟨u', hu', he⟩ := run_concat_eq_some.1 hv
    obtain rfl : u' = u := Option.some.inj (hu'.symm.trans hu)
    have hPu : P u' := hP pre u' ((List.prefix_append pre [e]).trans hpre) hu
    exact (hstep u' e v (run_invariant hI hIs hu) hPu he).1 (hP (pre ++ [e]) v hpre hv)
  · intro hC
    have h : Always step (fun u => I u ∧ P u) s es :=
      always_of_eachStep
        (fun u e v hu hCu he => ⟨hI u e v hu.1 he, (hstep u e v hu.1 hu.2 he).2 hCu⟩)
        ⟨hIs, hs⟩ hC
    exact h.mono fun _ hu => hu.2

/-- The run gets through every step, and `P` holds on the way. -/
def Through (step : σ → ε → Option σ) (P : σ → Prop) (s : σ) (es : List ε) : Prop :=
  ∀ pre, pre <+: es → ∃ t, run step s pre = some t ∧ P t

theorem through_cons {P : σ → Prop} (hs : step s e = some t) :
    Through step P s (e :: es) ↔ P s ∧ Through step P t es := by
  constructor
  · intro h
    constructor
    · obtain ⟨u, hu, hP⟩ := h [] List.nil_prefix
      exact Option.some.inj hu ▸ hP
    · intro pre hpre
      obtain ⟨u, hu, hP⟩ := h (e :: pre) (List.cons_prefix_cons.2 ⟨rfl, hpre⟩)
      exact ⟨u, by simpa [hs] using hu, hP⟩
  · rintro ⟨hP, h⟩ pre hpre
    cases pre with
    | nil => exact ⟨s, rfl, hP⟩
    | cons f pre =>
      obtain ⟨rfl, hpre'⟩ := List.cons_prefix_cons.1 hpre
      obtain ⟨u, hu, hPu⟩ := h pre hpre'
      exact ⟨u, by simpa [hs] using hu, hPu⟩

/-- **From one step to whole runs, where a step always returns.**  If a step from the
invariant leads back to it with an input that meets `C`, and to a state without `P` with
any other, then `P` holds on the way exactly when every input meets `C`. -/
theorem through_iff_forall {I P : σ → Prop} {C : ε → Prop} (hI : ∀ s, I s → P s)
    (hstep : ∀ s e, I s → ∃ t, step s e = some t ∧ (C e → I t) ∧ (P t → C e)) (hs : I s) :
    Through step P s es ↔ ∀ e ∈ es, C e := by
  induction es generalizing s with
  | nil =>
    constructor
    · intro _ e he
      exact absurd he List.not_mem_nil
    · intro _ pre hpre
      obtain rfl := List.prefix_nil.1 hpre
      exact ⟨s, rfl, hI s hs⟩
  | cons e es ih =>
    obtain ⟨t, ht, hgood, hbad⟩ := hstep s e hs
    rw [through_cons ht, List.forall_mem_cons]
    constructor
    · rintro ⟨-, h⟩
      obtain ⟨u, hu, hP⟩ := h [] List.nil_prefix
      have hC : C e := hbad (Option.some.inj hu ▸ hP)
      exact ⟨hC, (ih (hgood hC)).1 h⟩
    · rintro ⟨hC, h⟩
      exact ⟨hI s hs, (ih (hgood hC)).2 h⟩

/-- **Two components in step.**  If, from states in a relation, an operation that meets `C` is
allowed in both or in neither and leads to states in that relation, then so does a run of such
operations. -/
theorem run_rel {τ : Type*} {step' : τ → ε → Option τ} {R : σ → τ → Prop} {C : ε → Prop}
    (hstep : ∀ s t e, R s t → C e → Option.Rel R (step s e) (step' t e)) {t : τ} (hR : R s t)
    (hC : ∀ e ∈ es, C e) : Option.Rel R (run step s es) (run step' t es) := by
  induction es generalizing s t with
  | nil => exact .some hR
  | cons e es ih =>
    obtain ⟨hCe, hCes⟩ := List.forall_mem_cons.1 hC
    have h := hstep s t e hR hCe
    rw [run_cons, run_cons]
    generalize step s e = a, step' t e = b at h
    cases h with
    | some hab => exact ih hab hCes
    | none => exact .none

/-! ## Histories -/

section History

variable {α : Type*} {Q : List α → α → Prop} {l : List α} {a : α}

/-- `Q` holds of each entry of `l` and the entries before it. -/
def EachAfter (Q : List α → α → Prop) (l : List α) : Prop :=
  ∀ before b after, l = before ++ b :: after → Q before b

theorem eachAfter_nil : EachAfter Q [] :=
  fun before b after h => absurd (congrArg List.length h) (by simp)

/-- One more entry. -/
theorem EachAfter.concat (hl : EachAfter Q l) (ha : Q l a) : EachAfter Q (l ++ [a]) := by
  intro before b after h
  rcases List.eq_nil_or_concat after with rfl | ⟨after, c, rfl⟩
  · obtain ⟨rfl, hab⟩ := List.append_inj' h rfl
    obtain rfl := (List.cons.inj hab).1
    exact ha
  · rw [List.concat_eq_append, ← List.cons_append, ← List.append_assoc] at h
    exact hl before b after (List.append_inj' h rfl).1

end History

end Lib
end QuicNs3
