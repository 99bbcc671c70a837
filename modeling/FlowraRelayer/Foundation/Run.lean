/-
  Foundation/Run.lean --- runs of a partial step function.

  A component that takes step after step is given here by one function
  `step : σ → ι → Option σ`: the label says which step is taken and carries
  everything the environment decides in it (a clock reading, the answer of a
  channel, the iteration order of a hash map), and `none` means that the step is
  not possible in that state.  A run is then a list of labels, and "for every
  interleaving" is "for every list of labels".

  Five rules carry the whole-run results of this development:

      runSteps_invariant          an invariant kept by every step
      runSteps_invariant_of_meets an invariant kept by every step that meets a
                                  condition on the state before it
      runSteps_labelInvariant     the same for an invariant that also speaks of the
                                  labels taken so far
      runSteps_log                a log that every step extends
      runSteps_log_origin         which step wrote an entry of such a log

  The module names nothing of the relayer.
-/
import Mathlib.Data.List.Basic

set_option autoImplicit false

namespace FlowraRelayer.Foundation

variable {σ ι : Type}

/-- Nanoseconds on whichever clock is read. -/
abbrev Time : Type := Nat

def nanosPerSecond : Nat := 1000000000

def nanosPerMilli : Nat := 1000000

/-! ## Runs -/

/-- Take the labelled steps in order; `none` as soon as one is not possible. -/
def runSteps (step : σ → ι → Option σ) : σ → List ι → Option σ
  | s, [] => some s
  | s, l :: ls => (step s l).bind fun s' => runSteps step s' ls

/-- The states a run leaves, each with the label it leaves it by. -/
def visited (step : σ → ι → Option σ) : σ → List ι → List (σ × ι)
  | _, [] => []
  | s, l :: ls => (s, l) :: ((step s l).map fun s' => visited step s' ls).getD []

@[simp] theorem runSteps_nil (step : σ → ι → Option σ) (s : σ) :
    runSteps step s [] = some s := rfl

theorem runSteps_cons (step : σ → ι → Option σ) (s : σ) (l : ι) (ls : List ι) :
    runSteps step s (l :: ls) = (step s l).bind fun s' => runSteps step s' ls := rfl

/-- The first step of a run, split off. -/
theorem runSteps_cons_eq_some {step : σ → ι → Option σ} {s s'' : σ} {l : ι} {ls : List ι}
    (h : runSteps step s (l :: ls) = some s'') :
    ∃ s', step s l = some s' ∧ runSteps step s' ls = some s'' := by
  rw [runSteps_cons] at h
  exact Option.bind_eq_some_iff.mp h

/-- A run in two parts. -/
theorem runSteps_append (step : σ → ι → Option σ) (ks : List ι) :
    ∀ (ls : List ι) (s : σ),
      runSteps step s (ls ++ ks) = (runSteps step s ls).bind fun s' => runSteps step s' ks := by
  intro ls
  induction ls with
  | nil =>
    intro s
    rfl
  | cons l ls ih =>
    intro s
    rw [List.cons_append, runSteps_cons, runSteps_cons]
    cases step s l with
    | none => rfl
    | some s' => exact ih s'

/-- The last step of a run, split off. -/
theorem runSteps_concat (step : σ → ι → Option σ) (l : ι) (ls : List ι) (s : σ) :
    runSteps step s (ls ++ [l]) = (runSteps step s ls).bind fun s' => step s' l := by
  rw [runSteps_append]
  congr 1
  funext s'
  cases h : step s' l <;> simp [runSteps, h]

/-- The states a run leaves, part by part. -/
theorem visited_append {step : σ → ι → Option σ} {ks : List ι} :
    ∀ {ls : List ι} {s s' : σ}, runSteps step s ls = some s' →
      visited step s (ls ++ ks) = visited step s ls ++ visited step s' ks := by
  intro ls
  induction ls with
  | nil =>
    intro s s' h
    cases h
    rfl
  | cons l ls ih =>
    intro s s'' h
    obtain ⟨s', hs, hrest⟩ := runSteps_cons_eq_some h
    simp [visited, hs, ih hrest]

/-- A run leaves its states by its own labels. -/
theorem label_mem_of_mem_visited {step : σ → ι → Option σ} {p : σ × ι} :
    ∀ {ls : List ι} {s : σ}, p ∈ visited step s ls → p.2 ∈ ls := by
  intro ls
  induction ls with
  | nil =>
    intro s h
    cases h
  | cons l ls ih =>
    intro s h
    rcases List.mem_cons.mp h with rfl | htail
    · exact List.mem_cons_self
    · cases hs : step s l with
      | none => simp [hs] at htail
      | some s' =>
        rw [hs] at htail
        exact List.mem_cons_of_mem l (ih htail)

/-- A state a run leaves is where a front part of its labels leads, and the step out of it
is possible. -/
theorem split_of_mem_visited {step : σ → ι → Option σ} {p : σ × ι} :
    ∀ {ls : List ι} {s s' : σ}, runSteps step s ls = some s' → p ∈ visited step s ls →
      ∃ done rest after, ls = done ++ p.2 :: rest ∧ runSteps step s done = some p.1 ∧
        step p.1 p.2 = some after := by
  intro ls
  induction ls with
  | nil =>
    intro s s' _ hp
    cases hp
  | cons l ls ih =>
    intro s s'' hrun hp
    obtain ⟨s', hs, hrest⟩ := runSteps_cons_eq_some hrun
    simp only [visited, hs, Option.map_some, Option.getD_some, List.mem_cons] at hp
    rcases hp with rfl | hp
    · exact ⟨[], ls, s', rfl, rfl, hs⟩
    · obtain ⟨done, rest, after, rfl, hdone, hafter⟩ := ih hrest hp
      refine ⟨l :: done, rest, after, rfl, ?_, hafter⟩
      rw [runSteps_cons, hs]
      exact hdone

/-! ## Invariants -/

/-- A property that holds at the start and is kept by every step holds at the
end of every run. -/
theorem runSteps_invariant {step : σ → ι → Option σ} (Inv : σ → Prop)
    (hstep : ∀ s l s', Inv s → step s l = some s' → Inv s') :
    ∀ (ls : List ι) {s s' : σ}, Inv s → runSteps step s ls = some s' → Inv s' := by
  intro ls
  induction ls with
  | nil =>
    intro s s' hinv h
    cases h
    exact hinv
  | cons l ls ih =>
    intro s s'' hinv h
    obtain ⟨s', hs, hrest⟩ := runSteps_cons_eq_some h
    exact ih (hstep s l s' hinv hs) hrest

/-- Every step of the run is taken in a state in which its label meets `cond`. -/
def StepsMeet (step : σ → ι → Option σ) (cond : σ → ι → Prop) (s : σ) (ls : List ι) : Prop :=
  ∀ p ∈ visited step s ls, cond p.1 p.2

theorem StepsMeet.nil {step : σ → ι → Option σ} {cond : σ → ι → Prop} {s : σ} :
    StepsMeet step cond s [] := by
  intro p hp
  cases hp

theorem StepsMeet.cons {step : σ → ι → Option σ} {cond : σ → ι → Prop} {s s' : σ} {l : ι}
    {ls : List ι} (hcond : cond s l) (hs : step s l = some s') (h : StepsMeet step cond s' ls) :
    StepsMeet step cond s (l :: ls) := by
  intro p hp
  simp only [visited, hs, Option.map_some, Option.getD_some, List.mem_cons] at hp
  rcases hp with rfl | hp
  · exact hcond
  · exact h p hp

theorem stepsMeet_cons {step : σ → ι → Option σ} {cond : σ → ι → Prop} {s s' : σ} {l : ι}
    {ls : List ι} (h : StepsMeet step cond s (l :: ls)) (hs : step s l = some s') :
    cond s l ∧ StepsMeet step cond s' ls := by
  constructor
  · exact h (s, l) (by simp [visited])
  · intro p hp
    exact h p (by simp [visited, hs, hp])

/-- A property that holds at the start and is kept by every step that meets
`cond` holds at the end of every run all of whose steps meet `cond`. -/
theorem runSteps_invariant_of_meets {step : σ → ι → Option σ} {cond : σ → ι → Prop}
    (Inv : σ → Prop)
    (hstep : ∀ s l s', Inv s → cond s l → step s l = some s' → Inv s') :
    ∀ (ls : List ι) {s s' : σ}, Inv s → StepsMeet step cond s ls →
      runSteps step s ls = some s' → Inv s' := by
  intro ls
  induction ls with
  | nil =>
    intro s s' hinv _ h
    cases h
    exact hinv
  | cons l ls ih =>
    intro s s'' hinv hmeets h
    obtain ⟨s', hs, hrest⟩ := runSteps_cons_eq_some h
    obtain ⟨hcond, htail⟩ := stepsMeet_cons hmeets hs
    exact ih (hstep s l s' hinv hcond hs) htail hrest

/-- The condition of a run in two parts. -/
theorem stepsMeet_append {step : σ → ι → Option σ} {cond : σ → ι → Prop} {s s' : σ}
    {ls ks : List ι} (h : StepsMeet step cond s (ls ++ ks)) (hrun : runSteps step s ls = some s') :
    StepsMeet step cond s ls ∧ StepsMeet step cond s' ks := by
  unfold StepsMeet at h
  rw [visited_append hrun] at h
  exact ⟨fun p hp => h p (List.mem_append_left _ hp), fun p hp => h p (List.mem_append_right _ hp)⟩

/-- If every step keeps a property exactly when it meets `cond`, a run keeps it exactly
when all its steps do. -/
theorem runSteps_iff_stepsMeet {step : σ → ι → Option σ} {cond : σ → ι → Prop}
    (Inv Good : σ → Prop) (hinv : ∀ s l s', Inv s → step s l = some s' → Inv s')
    (hstep : ∀ s l s', Inv s → step s l = some s' → (Good s' ↔ Good s ∧ cond s l)) :
    ∀ (ls : List ι) {s s' : σ}, Inv s → runSteps step s ls = some s' →
      (Good s' ↔ Good s ∧ StepsMeet step cond s ls) := by
  intro ls
  induction ls with
  | nil =>
    intro s s' _ h
    cases h
    exact ⟨fun hgood => ⟨hgood, StepsMeet.nil⟩, fun hgood => hgood.1⟩
  | cons l ls ih =>
    intro s s'' hs h
    obtain ⟨s', hl, hrest⟩ := runSteps_cons_eq_some h
    rw [ih (hinv s l s' hs hl) hrest, hstep s l s' hs hl]
    constructor
    · rintro ⟨⟨hgood, hcond⟩, hmeets⟩
      exact ⟨hgood, StepsMeet.cons hcond hl hmeets⟩
    · rintro ⟨hgood, hmeets⟩
      obtain ⟨hcond, htail⟩ := stepsMeet_cons hmeets hl
      exact ⟨⟨hgood, hcond⟩, htail⟩

/-- A property of the labels taken so far and the state they lead to, kept by every
step that meets `cond`. -/
theorem runSteps_labelInvariant {step : σ → ι → Option σ} {cond : σ → ι → Prop}
    (Inv : List ι → σ → Prop)
    (hstep : ∀ done s l s', Inv done s → cond s l → step s l = some s' → Inv (done ++ [l]) s') :
    ∀ (ls done : List ι) {s s' : σ}, Inv done s → StepsMeet step cond s ls →
      runSteps step s ls = some s' → Inv (done ++ ls) s' := by
  intro ls
  induction ls with
  | nil =>
    intro done s s' hinv _ h
    cases h
    rw [List.append_nil]
    exact hinv
  | cons l ls ih =>
    intro done s s'' hinv hmeets h
    obtain ⟨s', hs, hrest⟩ := runSteps_cons_eq_some h
    obtain ⟨hcond, htail⟩ := stepsMeet_cons hmeets hs
    rw [List.append_cons]
    exact ih (done ++ [l]) (hstep done s l s' hinv hcond hs) htail hrest

/-! ## Logs -/

/-- A log that every step extends by `emit` is, at the end of a run, what it was
followed by what the steps of the run emitted. -/
theorem runSteps_log {α : Type} {step : σ → ι → Option σ} (log : σ → List α)
    {emit : σ → ι → List α}
    (hstep : ∀ s l s', step s l = some s' → log s' = log s ++ emit s l) :
    ∀ (ls : List ι) {s s' : σ}, runSteps step s ls = some s' →
      log s' = log s ++ (visited step s ls).flatMap fun p => emit p.1 p.2 := by
  intro ls
  induction ls with
  | nil =>
    intro s s' h
    cases h
    simp [visited]
  | cons l ls ih =>
    intro s s'' h
    obtain ⟨s', hs, hrest⟩ := runSteps_cons_eq_some h
    rw [ih hrest, hstep s l s' hs]
    simp [visited, hs]

/-- An entry of such a log was there at the start, or one step of the run wrote it. -/
theorem runSteps_log_origin {α : Type} {step : σ → ι → Option σ} {log : σ → List α}
    {emit : σ → ι → List α}
    (hstep : ∀ s l s', step s l = some s' → log s' = log s ++ emit s l) {entry : α} {ls : List ι}
    {s s' : σ} (hrun : runSteps step s ls = some s') (hentry : entry ∈ log s') :
    entry ∈ log s ∨ ∃ done l rest before after, ls = done ++ l :: rest ∧
      runSteps step s done = some before ∧ step before l = some after ∧
      entry ∈ emit before l := by
  rw [runSteps_log log hstep ls hrun, List.mem_append, List.mem_flatMap] at hentry
  rcases hentry with hstart | ⟨p, hp, hemit⟩
  · exact .inl hstart
  · obtain ⟨done, rest, after, heq, hdone, hl⟩ := split_of_mem_visited hrun hp
    exact .inr ⟨done, p.2, rest, p.1, after, heq, hdone, hl, hemit⟩

end FlowraRelayer.Foundation
