/-
  Foundation/Simulation.lean --- one step function explained by another.

  `Simulates step abstract R` says that a step of the machine `step`, taken in a state
  that `R` relates to a state of the machine `abstract`, is matched there by a run: none,
  one or several steps.  A run of the first machine is then a run of the second
  (`Simulates.run`), so what holds along every run of the second machine holds along every
  run of the first.

  `Contains step inner part label?` is the case of a machine that is a part of another: a step
  of the whole is one step of the part, or leaves the part as it is.  The part then goes
  through the same states as it does alone (`Contains.run`, `Contains.visited`).

  The module names nothing of the relayer.
-/
import FlowraRelayer.Foundation.Run

set_option autoImplicit false

namespace FlowraRelayer.Foundation

variable {σ ι τ κ : Type} {step : σ → ι → Option σ} {abstract : τ → κ → Option τ}
  {R : σ → τ → Prop}

/-- Every step is matched by a run of the abstract machine between related states. -/
def Simulates (step : σ → ι → Option σ) (abstract : τ → κ → Option τ) (R : σ → τ → Prop) : Prop :=
  ∀ s t label s', R s t → step s label = some s' →
    ∃ labels t', runSteps abstract t labels = some t' ∧ R s' t'

/-- A step that the abstract machine does not notice. -/
theorem matched_by_none {s' : σ} {t : τ} (h : R s' t) :
    ∃ labels t', runSteps abstract t labels = some t' ∧ R s' t' :=
  ⟨[], t, rfl, h⟩

/-- A step that is one step of the abstract machine. -/
theorem matched_by_one {s' : σ} {t t' : τ} {label : κ} (hstep : abstract t label = some t')
    (h : R s' t') : ∃ labels t', runSteps abstract t labels = some t' ∧ R s' t' := by
  refine ⟨[label], t', ?_, h⟩
  rw [runSteps_cons, hstep]
  rfl

/-- Every run is matched by a run of the abstract machine. -/
theorem Simulates.run (hsim : Simulates step abstract R) :
    ∀ (ls : List ι) {s s' : σ} {t : τ}, R s t → runSteps step s ls = some s' →
      ∃ labels t', runSteps abstract t labels = some t' ∧ R s' t' := by
  intro ls
  induction ls with
  | nil =>
    intro s s' t hR hrun
    cases hrun
    exact matched_by_none hR
  | cons l ls ih =>
    intro s s'' t hR hrun
    obtain ⟨s', hs, hrest⟩ := runSteps_cons_eq_some hrun
    obtain ⟨first, t', hfirst, hR'⟩ := hsim s t l s' hR hs
    obtain ⟨later, t'', hlater, hR''⟩ := ih hR' hrest
    refine ⟨first ++ later, t'', ?_, hR''⟩
    rw [runSteps_append, hfirst]
    exact hlater

/-! ## A machine that is a part of another -/

/-- A step of the whole machine is the step `label?` of its part, or none. -/
def Contains (step : σ → ι → Option σ) (inner : τ → κ → Option τ) (part : σ → τ)
    (label? : σ × ι → Option κ) : Prop :=
  ∀ s label s', step s label = some s' →
    runSteps inner (part s) (label? (s, label)).toList = some (part s')

section Contains

variable {inner : τ → κ → Option τ} {part : σ → τ} {label? : σ × ι → Option κ}

/-- The labels of a run, one after the other. -/
theorem map_snd_visited : ∀ (ls : List ι) {s s' : σ}, runSteps step s ls = some s' →
    (visited step s ls).map Prod.snd = ls := by
  intro ls
  induction ls with
  | nil =>
    intro s s' hrun
    rfl
  | cons l ls ih =>
    intro s s'' hrun
    obtain ⟨s', hs, hrest⟩ := runSteps_cons_eq_some hrun
    simp [visited, hs, ih hrest]

/-- The part runs in the whole as it does alone. -/
theorem Contains.run (h : Contains step inner part label?) :
    ∀ (ls : List ι) {s s' : σ}, runSteps step s ls = some s' →
      runSteps inner (part s) ((visited step s ls).filterMap label?) = some (part s') := by
  intro ls
  induction ls with
  | nil =>
    intro s s' hrun
    cases hrun
    rfl
  | cons l ls ih =>
    intro s s'' hrun
    obtain ⟨s', hs, hrest⟩ := runSteps_cons_eq_some hrun
    have hturns : (visited step s (l :: ls)).filterMap label? =
        (label? (s, l)).toList ++ (visited step s' ls).filterMap label? := by
      cases hlabel : label? (s, l) <;> simp [visited, hs, hlabel]
    rw [hturns, runSteps_append, h s l s' hs]
    exact ih hrest

/-- A part of a part is a part. -/
theorem Contains.trans {υ μ : Type} {core : υ → μ → Option υ} {part' : τ → υ}
    {label?' : τ × κ → Option μ} (h : Contains step inner part label?)
    (h' : Contains inner core part' label?') :
    Contains step core (fun s => part' (part s))
      fun turn => (label? turn).bind fun label => label?' (part turn.1, label) := by
  intro s l s' hs
  have hstep := h s l s' hs
  cases hlabel : label? (s, l) with
  | none =>
    rw [hlabel] at hstep
    have hsame : part s = part s' := Option.some.inj hstep
    simp [hlabel, hsame]
  | some label =>
    rw [hlabel] at hstep
    obtain ⟨t, ht, hdone⟩ := runSteps_cons_eq_some hstep
    have hnext : t = part s' := Option.some.inj hdone
    rw [hnext] at ht
    simpa [hlabel] using h' (part s) label (part s') ht

/-- The labels of the part, where they can be read off the labels of the whole. -/
theorem Contains.run_labels {ofLabel : ι → Option κ}
    (h : Contains step inner part fun turn => ofLabel turn.2) {ls : List ι} {s s' : σ}
    (hrun : runSteps step s ls = some s') :
    runSteps inner (part s) (ls.filterMap ofLabel) = some (part s') := by
  have hinner := h.run ls hrun
  have hlabels : ((Foundation.visited step s ls).map Prod.snd).filterMap ofLabel =
      (Foundation.visited step s ls).filterMap fun turn => ofLabel turn.2 := List.filterMap_map ..
  rwa [← hlabels, map_snd_visited ls hrun] at hinner

/-- And it goes through the states the whole machine goes through. -/
theorem Contains.visited (h : Contains step inner part label?) :
    ∀ (ls : List ι) {s s' : σ}, runSteps step s ls = some s' →
      Foundation.visited inner (part s) ((Foundation.visited step s ls).filterMap label?) =
        (Foundation.visited step s ls).filterMap fun turn =>
          (label? turn).map fun label => (part turn.1, label) := by
  intro ls
  induction ls with
  | nil =>
    intro s s' hrun
    rfl
  | cons l ls ih =>
    intro s s'' hrun
    obtain ⟨s', hs, hrest⟩ := runSteps_cons_eq_some hrun
    have hstep := h s l s' hs
    have hrest := ih hrest
    cases hlabel : label? (s, l) with
    | none =>
      rw [hlabel] at hstep
      have hsame : part s = part s' := Option.some.inj hstep
      simpa [Foundation.visited, hs, hlabel, hsame] using hrest
    | some label =>
      rw [hlabel] at hstep
      obtain ⟨t, ht, hdone⟩ := runSteps_cons_eq_some hstep
      have hnext : t = part s' := Option.some.inj hdone
      simp [Foundation.visited, hs, hlabel, ht, hnext, hrest]

end Contains

end FlowraRelayer.Foundation
