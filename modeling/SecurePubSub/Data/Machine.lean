namespace SecurePubSub.Data.Machine

/-! Runs of a deterministic machine over a list of inputs. -/

variable {σ ι : Type} {step : σ → ι → σ} {condition : σ → ι → Prop} {state : σ}
  {inputs before after : List ι}

def run (step : σ → ι → σ) (state : σ) (inputs : List ι) : σ := inputs.foldl step state

/-- Every step of a run meets a condition on the state before it. -/
def Along (step : σ → ι → σ) (condition : σ → ι → Prop) : σ → List ι → Prop
  | _, [] => True
  | state, first :: rest => condition state first ∧ Along step condition (step state first) rest

instance [∀ state input, Decidable (condition state input)] :
    ∀ (state : σ) (inputs : List ι), Decidable (Along step condition state inputs)
  | _, [] => .isTrue trivial
  | state, first :: rest =>
      have := instDecidableAlong (step state first) rest
      inferInstanceAs (Decidable (condition state first ∧ Along step condition (step state first) rest))

@[simp] theorem run_nil : run step state [] = state := rfl

@[simp] theorem run_cons (first : ι) (rest : List ι) :
    run step state (first :: rest) = run step (step state first) rest := rfl

theorem along_append :
    Along step condition state (before ++ after) ↔
      Along step condition state before ∧ Along step condition (run step state before) after := by
  induction before generalizing state with
  | nil => simp [Along]
  | cons first rest ih => simp [Along, ih, and_assoc]

theorem Along.preserves (along : Along step condition state inputs) (holds : σ → Prop)
    (each : ∀ current input, holds current → condition current input → holds (step current input))
    (initially : holds state) : holds (run step state inputs) := by
  induction inputs generalizing state with
  | nil => exact initially
  | cons first rest ih =>
      obtain ⟨here, later⟩ := along
      exact ih later (each state first initially here)

theorem run_preserves (holds : σ → Prop)
    (each : ∀ current input, holds current → holds (step current input)) (initially : holds state) :
    holds (run step state inputs) := by
  induction inputs generalizing state with
  | nil => exact initially
  | cons first rest ih => exact ih (each state first initially)

end SecurePubSub.Data.Machine
