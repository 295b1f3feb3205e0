namespace Countersign

variable {τ σ : Type} {m : Type → Type} [Monad m]

-- Repeats a step until it has nothing to add, at most `fuel` times.
@[specialize] def repeatStep (step : σ → StateT (List τ) m (Option σ)) :
    (fuel : Nat) → σ → StateT (List τ) m σ
  | 0, st => pure st
  | fuel + 1, st => do
    match ← step st with
    | some st => repeatStep step fuel st
    | none => pure st

-- Repeats a step that takes at least one item of the text each time, until it has nothing to add.
@[specialize] def exhaust (step : σ → StateT (List τ) m (Option σ)) (st : σ) :
    StateT (List τ) m σ :=
  fun text => repeatStep step (text.length + 1) st text

end Countersign
