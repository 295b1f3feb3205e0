namespace Countersign

-- A result, with what was emitted on the way to it.
structure Emitting (ε α : Type) where
  value : α
  events : List ε

namespace Emitting

variable {ε α β : Type}

instance : Monad (Emitting ε) where
  pure a := ⟨a, []⟩
  bind t f := ⟨(f t.value).value, t.events ++ (f t.value).events⟩

def report (e : ε) : Emitting ε Unit :=
  ⟨(), [e]⟩

-- Emits something else in place of each event.
def mapEvents {ε' : Type} (f : ε → ε') (t : Emitting ε α) : Emitting ε' α :=
  ⟨t.value, t.events.map f⟩

@[simp] theorem value_pure (a : α) : (pure a : Emitting ε α).value = a := rfl

@[simp] theorem events_pure (a : α) : (pure a : Emitting ε α).events = [] := rfl

@[simp] theorem value_bind (t : Emitting ε α) (f : α → Emitting ε β) :
    (t >>= f).value = (f t.value).value := rfl

@[simp] theorem events_bind (t : Emitting ε α) (f : α → Emitting ε β) :
    (t >>= f).events = t.events ++ (f t.value).events := rfl

@[simp] theorem value_report (e : ε) : (report e).value = () := rfl

@[simp] theorem events_report (e : ε) : (report e).events = [e] := rfl

end Emitting
end Countersign
