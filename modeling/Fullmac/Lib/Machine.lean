import Mathlib.Data.List.Basic
import Mathlib.Data.List.Induction
import Mathlib.Tactic.Common

/-!
# Runs of a deterministic machine with outputs

A component is a step function `σ → ι → σ × List ω`: it takes a state and one input (a call, a
message, the choice an environment makes) and returns the next state with what it did to the outside
world, in order. `run` feeds a whole list of inputs and concatenates the outputs.

Every result about whole runs below goes through one of two rules: `run_induction`, for what each
step keeps, and `run_induction_of_meets`, for what a step keeps when it meets a side condition that
may depend on the state it starts from. `run_simulates` compares the runs of two machines.
-/

namespace Fullmac.Machine

variable {σ ι ω : Type*} (step : σ → ι → σ × List ω)

/-- Feed the inputs one after another and concatenate the outputs. -/
def run : σ → List ι → σ × List ω
  | s, [] => (s, [])
  | s, i :: is => ((run (step s i).1 is).1, (step s i).2 ++ (run (step s i).1 is).2)

/-- Every step of the run meets `C` at the state it starts from. -/
def Meets (C : σ → ι → Prop) : σ → List ι → Prop
  | _, [] => True
  | s, i :: is => C s i ∧ Meets C (step s i).1 is

instance decidableMeets (C : σ → ι → Prop) [∀ s i, Decidable (C s i)] :
    ∀ (s : σ) (is : List ι), Decidable (Meets step C s is)
  | _, [] => inferInstanceAs (Decidable True)
  | s, i :: is => @instDecidableAnd (C s i) _ _ (decidableMeets C (step s i).1 is)

variable {step}

@[simp] theorem run_nil (s : σ) : run step s [] = (s, []) := rfl

@[simp] theorem run_cons (s : σ) (i : ι) (is : List ι) :
    run step s (i :: is)
      = ((run step (step s i).1 is).1, (step s i).2 ++ (run step (step s i).1 is).2) := rfl

/-- Running two lists of inputs is running the second from where the first ended. -/
theorem run_append (s : σ) (is js : List ι) :
    run step s (is ++ js)
      = ((run step (run step s is).1 js).1,
          (run step s is).2 ++ (run step (run step s is).1 js).2) := by
  induction is generalizing s with
  | nil => simp
  | cons i is ih => simp [ih, List.append_assoc]

/-- What holds at the start and is kept by every step that meets `C` holds after every run whose
steps all meet `C`. The property may speak of the inputs consumed and the outputs produced so far.
-/
theorem run_induction_of_meets {C : σ → ι → Prop} {P : σ → List ι → List ω → Prop} {s₀ : σ}
    (start : P s₀ [] [])
    (next : ∀ s is tr i, C s i → P s is tr → P (step s i).1 (is ++ [i]) (tr ++ (step s i).2))
    (is : List ι) (hC : Meets step C s₀ is) :
    P (run step s₀ is).1 is (run step s₀ is).2 := by
  -- generalise over what is already consumed and produced, so that the induction goes down the list
  have key : ∀ (is : List ι) (s : σ) (done : List ι) (tr : List ω), Meets step C s is →
      P s done tr → P (run step s is).1 (done ++ is) (tr ++ (run step s is).2) := by
    intro is
    induction is with
    | nil => intro s done tr _ h; simpa using h
    | cons i is ih =>
      intro s done tr hm h
      have := ih (step s i).1 (done ++ [i]) (tr ++ (step s i).2) hm.2 (next s done tr i hm.1 h)
      simpa [List.append_assoc] using this
  simpa using key is s₀ [] [] hC start

/-- A run meets the trivial condition. -/
theorem meets_true (s : σ) (is : List ι) : Meets step (fun _ _ => True) s is := by
  induction is generalizing s with
  | nil => trivial
  | cons i is ih => exact ⟨trivial, ih _⟩

/-- What holds at the start and is kept by every step holds after every run. -/
theorem run_induction {P : σ → List ι → List ω → Prop} {s₀ : σ} (start : P s₀ [] [])
    (next : ∀ s is tr i, P s is tr → P (step s i).1 (is ++ [i]) (tr ++ (step s i).2))
    (is : List ι) : P (run step s₀ is).1 is (run step s₀ is).2 :=
  run_induction_of_meets (C := fun _ _ => True) start (fun s is tr i _ h => next s is tr i h) is
    (meets_true s₀ is)

/-- A condition on the inputs alone is met when every input satisfies it. -/
theorem meets_of_forall {C : ι → Prop} {s : σ} {is : List ι} (h : ∀ i ∈ is, C i) :
    Meets step (fun _ i => C i) s is := by
  induction is generalizing s with
  | nil => trivial
  | cons i is ih => exact ⟨h i (by simp), ih (fun j hj => h j (by simp [hj]))⟩

/-- Two conditions met along a run are met together. -/
theorem meets_and {C D : σ → ι → Prop} {s : σ} {is : List ι} (hC : Meets step C s is)
    (hD : Meets step D s is) : Meets step (fun s i => C s i ∧ D s i) s is := by
  induction is generalizing s with
  | nil => trivial
  | cons i is ih => exact ⟨⟨hC.1, hD.1⟩, ih hC.2 hD.2⟩

/-- The steps of a run in two parts. -/
theorem meets_append {C : σ → ι → Prop} (s : σ) (is js : List ι) :
    Meets step C s (is ++ js) ↔ Meets step C s is ∧ Meets step C (run step s is).1 js := by
  induction is generalizing s with
  | nil => simp [Meets]
  | cons i is ih => simp [Meets, ih, and_assoc]

/-- A machine that keeps up with another and answers as it does, as long as the other's steps meet
`C`, does so over every run of such steps. -/
theorem run_simulates {τ : Type*} {step' : τ → ι → τ × List ω} {C : τ → ι → Prop}
    {R : σ → τ → Prop}
    (next : ∀ s t i, R s t → C t i →
      R (step s i).1 (step' t i).1 ∧ (step s i).2 = (step' t i).2)
    {s : σ} {t : τ} (hst : R s t) (is : List ι) (hC : Meets step' C t is) :
    R (run step s is).1 (run step' t is).1 ∧ (run step s is).2 = (run step' t is).2 := by
  induction is generalizing s t with
  | nil => exact ⟨hst, rfl⟩
  | cons i is ih =>
    obtain ⟨hnext, hout⟩ := next s t i hst hC.1
    obtain ⟨hrun, houts⟩ := ih hnext hC.2
    exact ⟨hrun, by rw [run_cons, run_cons, hout, houts]⟩

/-- Every state of a run satisfies `P` exactly when every step meets `C`, if a step from a state
that satisfies `P` leads to one that does exactly when it meets `C`. The step may rely on what holds
of every run anyhow. -/
theorem forall_prefix_iff_meets {C : σ → ι → Prop} {I P : σ → List ω → Prop} {s₀ : σ}
    (start : I s₀ []) (keep : ∀ s tr i, I s tr → I (step s i).1 (tr ++ (step s i).2))
    (ok : P s₀ [])
    (next : ∀ s tr i, I s tr → P s tr → (P (step s i).1 (tr ++ (step s i).2) ↔ C s i))
    (is : List ι) :
    (∀ js, js <+: is → P (run step s₀ js).1 (run step s₀ js).2) ↔ Meets step C s₀ is := by
  induction is using List.reverseRecOn with
  | nil => simpa [Meets] using ok
  | append_singleton is i ih =>
    have hI : I (run step s₀ is).1 (run step s₀ is).2 :=
      run_induction (P := fun s _ tr => I s tr) start (fun s _ tr i h => keep s tr i h) is
    have hlast : run step s₀ (is ++ [i])
        = ((step (run step s₀ is).1 i).1, (run step s₀ is).2 ++ (step (run step s₀ is).1 i).2) := by
      simp [run_append]
    have hmeets : Meets step C s₀ (is ++ [i])
        ↔ Meets step C s₀ is ∧ C (run step s₀ is).1 i := by
      simp [meets_append, Meets]
    rw [hmeets, ← ih]
    constructor
    · intro h
      have hP := h is (List.prefix_append is [i])
      have hPlast := h (is ++ [i]) List.prefix_rfl
      rw [hlast] at hPlast
      exact ⟨fun js hjs => h js (hjs.trans (List.prefix_append is [i])),
        (next _ _ i hI hP).mp hPlast⟩
    · rintro ⟨h, hC⟩ js hjs
      rcases List.prefix_concat_iff.mp hjs with rfl | hjs
      · rw [hlast]
        exact (next _ _ i hI (h is List.prefix_rfl)).mpr hC
      · exact h js hjs

/-- Of a run whose steps obey `R`, all outputs satisfy `Q` exactly when every step meets `C`, if the
outputs of a step that obeys `R` do exactly when it meets `C`. The step may rely on what steps that
obey `R` and meet `C` keep. -/
theorem forall_output_iff_meets_of_obeys {R C : σ → ι → Prop} {I : σ → Prop} {Q : ω → Prop}
    (keep : ∀ s i, I s → R s i → C s i → I (step s i).1)
    (next : ∀ s i, I s → R s i → ((∀ o ∈ (step s i).2, Q o) ↔ C s i)) {s : σ} (hs : I s)
    (is : List ι) (hR : Meets step R s is) :
    (∀ o ∈ (run step s is).2, Q o) ↔ Meets step C s is := by
  induction is generalizing s with
  | nil => simp [Meets]
  | cons i is ih =>
    rw [run_cons, List.forall_mem_append, next s i hs hR.1, Meets]
    exact and_congr_right fun hC => ih (keep s i hs hR.1 hC) hR.2

/-- All outputs of a run satisfy `Q` exactly when every step meets `C`, if the outputs of a step do
exactly when it meets `C`. The step may rely on what steps that meet `C` keep. -/
theorem forall_output_iff_meets {C : σ → ι → Prop} {I : σ → Prop} {Q : ω → Prop}
    (keep : ∀ s i, I s → C s i → I (step s i).1)
    (next : ∀ s i, I s → ((∀ o ∈ (step s i).2, Q o) ↔ C s i)) {s : σ} (hs : I s) (is : List ι) :
    (∀ o ∈ (run step s is).2, Q o) ↔ Meets step C s is :=
  forall_output_iff_meets_of_obeys (fun s i h _ hC => keep s i h hC) (fun s i h _ => next s i h) hs
    is (meets_true s is)

section Absorbing

variable {B : σ → Prop} {C : σ → ι → Prop}

/-- What no step undoes, no run undoes. -/
theorem run_absorbing (hB : ∀ s i, B s → B (step s i).1) {s : σ} (hs : B s) (is : List ι) :
    B (run step s is).1 := by
  induction is generalizing s with
  | nil => exact hs
  | cons i is ih => exact ih (hB s i hs)

/-- When `B` is never undone and a step brings it about exactly when it fails to meet `C`, a run
avoids `B` exactly when all its steps meet `C`. -/
theorem meets_iff_not_of_absorbing (hB : ∀ s i, B (step s i).1 ↔ B s ∨ ¬ C s i) {s : σ}
    (hs : ¬ B s) (is : List ι) : Meets step C s is ↔ ¬ B (run step s is).1 := by
  induction is generalizing s with
  | nil => simpa [Meets] using hs
  | cons i is ih =>
    by_cases hC : C s i
    · have hnext : ¬ B (step s i).1 := by
        rw [hB]
        tauto
      simp only [Meets, hC, true_and, run_cons]
      exact ih hnext
    · have hnext : B (step s i).1 := (hB s i).mpr (.inr hC)
      have hrun := run_absorbing (fun s i h => (hB s i).mpr (.inl h)) hnext is
      simp only [Meets, hC, false_and, run_cons, false_iff, not_not]
      exact hrun

end Absorbing

section Views

variable {υ : Type*} {next : σ → ι → σ} {viewStep : υ → ι → υ} {view : σ → υ} {own : ι → Prop}
  [DecidablePred own] {B : σ → Prop}

/-- What no step undoes, no sequence of steps undoes. -/
theorem foldl_absorbing (hB : ∀ s i, B s → B (next s i)) {s : σ} (hs : B s) (is : List ι) :
    B (is.foldl next s) := by
  induction is generalizing s with
  | nil => exact hs
  | cons i is ih => exact ih (hB s i hs)

/-- A part of the state that moves by a machine of its own on the inputs that concern it, and stays
on all others, is what that machine makes of its inputs, as long as `B` does not come about. -/
theorem view_foldl (hB : ∀ s i, B s → B (next s i))
    (hown : ∀ s i, own i → ¬ B (next s i) → view (next s i) = viewStep (view s) i)
    (hother : ∀ s i, ¬ own i → ¬ B (next s i) → view (next s i) = view s) {s : σ} (is : List ι)
    (hs : ¬ B (is.foldl next s)) :
    view (is.foldl next s) = (is.filter own).foldl viewStep (view s) := by
  induction is generalizing s with
  | nil => rfl
  | cons i is ih =>
    rw [List.foldl_cons] at hs ⊢
    have hnext : ¬ B (next s i) := fun h => hs (foldl_absorbing hB h is)
    rw [ih hs]
    by_cases hi : own i
    · rw [List.filter_cons_of_pos (by simpa using hi), List.foldl_cons, hown s i hi hnext]
    · rw [List.filter_cons_of_neg (by simpa using hi), hother s i hi hnext]

/-- Two such runs agree on the part when they start with the same part and have the same inputs that
concern it, whatever else differs. -/
theorem view_foldl_congr (hB : ∀ s i, B s → B (next s i))
    (hown : ∀ s i, own i → ¬ B (next s i) → view (next s i) = viewStep (view s) i)
    (hother : ∀ s i, ¬ own i → ¬ B (next s i) → view (next s i) = view s) {s s' : σ}
    (hstart : view s = view s') {is js : List ι} (hsame : is.filter own = js.filter own)
    (hs : ¬ B (is.foldl next s)) (hs' : ¬ B (js.foldl next s')) :
    view (is.foldl next s) = view (js.foldl next s') := by
  rw [view_foldl hB hown hother is hs, view_foldl hB hown hother js hs', hsame, hstart]

end Views

end Fullmac.Machine
