import Countersign.CommandLine.Run

namespace Countersign

-- The filter shows nothing.
def LogFilter.IsSilent (f : LogFilter) : Prop :=
  ∀ e, f.shows e = false

theorem LogFilter.isSilent_off : (ofText (some "off")).IsSilent := by
  have hf : ofText (some "off") = [⟨"", none, none, none⟩] := by decide +kernel
  intro e
  rw [hf]
  unfold shows deciding?
  cases h : Directive.concerns ⟨"", none, none, none⟩ e
  all_goals simp [h]

namespace CommandLine

def Output.line? : Output → Option String
  | line text => some text
  | event _ => none

-- The command prints these lines, in order, and ends like this.
structure Console.Yields {α : Type} (x : Console α) (lines : List String)
    (outcome : Except Failure α) : Prop where
  lines   : x.run.events.filterMap Output.line? = lines
  outcome : x.run.value = outcome

namespace Console.Yields

variable {α β : Type} {x : Console α} {f : α → Console β} {ls ls' : List String} {a : α} {e : Failure}
variable {o : Except Failure β}

theorem pure (a : α) : Yields (Pure.pure a) [] (.ok a) :=
  ⟨rfl, rfl⟩

theorem bind (h : x.Yields ls (.ok a)) (hf : (f a).Yields ls' o) : (x >>= f).Yields (ls ++ ls') o where
  lines   := by simp [ExceptT.run_bind, h.lines, h.outcome, hf.lines]
  outcome := by simp [ExceptT.run_bind, h.outcome, hf.outcome]

-- What fails goes no further.
theorem fail (h : x.Yields ls (.error e)) : (x >>= f).Yields ls (.error e) where
  lines   := by simp [ExceptT.run_bind, h.lines, h.outcome]
  outcome := by simp [ExceptT.run_bind, h.outcome]

theorem print (text : String) : (Console.print text).Yields [text] (.ok ()) :=
  ⟨rfl, rfl⟩

-- The events of a step of the gate are no lines.
theorem traced (t : Traced α) : (Console.traced t).Yields [] (.ok t.value) where
  lines   := by
    have he : (Console.traced t).run.events = t.events.map .event := List.append_nil _
    rw [he]
    refine List.filterMap_eq_nil_iff.mpr fun out ho => ?_
    have ⟨_, _, ho⟩ := List.mem_map.mp ho
    exact ho ▸ rfl
  outcome := rfl

theorem gate (g : Except GateError α) : (Console.gate g).Yields [] (g.mapError .gate) := by
  cases g <;> exact ⟨rfl, rfl⟩

theorem tracedGate (t : Traced (Except GateError α)) :
    (Console.tracedGate t).Yields [] (t.value.mapError .gate) :=
  .bind (.traced t) (.gate t.value)

theorem tracedGate_ok {t : Traced (Except GateError α)} (h : t.value = .ok a) :
    (Console.tracedGate t).Yields [] (.ok a) := by
  have ht := tracedGate t
  rwa [h] at ht

theorem tracedGate_error {t : Traced (Except GateError α)} {e : GateError}
    (h : t.value = .error e) : (Console.tracedGate t).Yields [] (.error (.gate e)) := by
  have ht := tracedGate t
  rwa [h] at ht

end Console.Yields

section Silence

variable {filter : LogFilter} (hf : filter.IsSilent)

include hf

theorem shown?_of_isSilent (time : String) (out : Output) : out.shown? filter time = out.line? := by
  cases out
  case line => rfl
  case event e => simp [Output.shown?, Output.line?, hf e]

-- The place of what is put out only matters to events.
theorem filterMap_shown?_of_isSilent (time : Nat → String) (outs : List Output) :
    (outs.zipIdx.filterMap fun (out, n) => out.shown? filter (time n)) =
      outs.filterMap Output.line? :=
  calc
    _ = outs.zipIdx.filterMap (Output.line? ∘ Prod.fst) := by simp only [shown?_of_isSilent hf]; rfl
    _ = (outs.zipIdx.map Prod.fst).filterMap Output.line? := List.filterMap_map.symm
    _ = outs.filterMap Output.line? := by rw [List.zipIdx_map_fst]

variable [Wording] {around : Surroundings} {time : Nat → String} {args : List String}
variable {i : Invocation} {ls : List String} {e : Failure}

theorem run_of_yields_ok (ha : readArguments args = some i)
    (h : (perform around i).Yields ls (.ok ())) :
    run around filter time args = ⟨0, ls, none⟩ := by
  simp [run, ha, filterMap_shown?_of_isSilent hf, h.lines, h.outcome]

theorem run_of_yields_error (ha : readArguments args = some i)
    (h : (perform around i).Yields ls (.error e)) :
    run around filter time args = ⟨1, ls, some e.message⟩ := by
  simp [run, ha, filterMap_shown?_of_isSilent hf, h.lines, h.outcome]

end Silence

end CommandLine
end Countersign
