import Countersign.Judge
import Countersign.Proofs.Update.Explanation

namespace Countersign

-- An event of the given level with the given text.
structure Event.Says (e : Event) (level : Level) (message : String) : Prop where
  level   : e.level = level
  message : e.message = message

-- Those of the events that come from one part of the gate.
def eventsFrom (o : Origin) (es : List Event) : List Event :=
  es.filter (·.origin = o)

section eventsFrom

variable {o : Origin} {e : Event} {es es' : List Event}

@[simp]
theorem eventsFrom_nil : eventsFrom o [] = [] :=
  rfl

@[simp]
theorem eventsFrom_append : eventsFrom o (es ++ es') = eventsFrom o es ++ eventsFrom o es' :=
  List.filter_append ..

@[simp]
theorem eventsFrom_cons :
    eventsFrom o (e :: es) = if e.origin = o then e :: eventsFrom o es else eventsFrom o es := by
  simp [eventsFrom, List.filter_cons]

theorem eventsFrom_eq_nil (h : ∀ e ∈ es, e.origin ≠ o) : eventsFrom o es = [] :=
  List.filter_eq_nil_iff.mpr <| by simpa using h

theorem exists_mem_origin_iff : (∃ e ∈ es, e.origin = o) ↔ eventsFrom o es ≠ [] := by
  simp [eventsFrom, List.filter_eq_nil_iff]

end eventsFrom

-- The event of the decision on an update, with what the decision rests on.
inductive IsVerdict (old new : TaskState) (r : Requester) (e : Event) : Prop
  | denied {reason : DenyReason} (hd : decideUpdate old new r = .deny reason)
    (he : e.Says .warn "approval task update denied")
    (hr : ("reason", .shown reason.message) ∈ e.fields)
    (ht : ("retryable", .flag reason.isRetryable) ∈ e.fields)
  | admitted {site : ChangeSite} (hd : decideUpdate old new r = .allow)
    (hl : r.locate old.approvers new.approvers = .ok (some site))
    (he : e.Says .info "approval task update admitted")
    (hi : ("index", .count site.index) ∈ e.fields)
    (hv : ("value", .shown site.value.text) ∈ e.fields)

-- The events of a decision: the first says that the update is evaluated, the last is the verdict,
-- and those before it are neither warnings nor information.
inductive Deliberation (old new : TaskState) (r : Requester) : List Event → Prop
  | intro (first : Event) (between : List Event) (verdict : Event)
    (hf : first.Says .debug "evaluating approval task update")
    (hb : ∀ e ∈ first :: between, e.level ≠ .warn ∧ e.level ≠ .info)
    (hv : IsVerdict old new r verdict) : Deliberation old new r (first :: between ++ [verdict])

-- The event of a failed check for a single change. It tells the lengths of the lists if they differ,
-- and else the first entry with a difference that the site does not explain.
inductive IsBreachEvent (r : Requester) (site : ChangeSite) (old new : List Approver) (e : Event) :
    Prop
  | lengths (h : old.length ≠ new.length) (ho : ("old_len", .count old.length) ∈ e.fields)
    (hn : ("new_len", .count new.length) ∈ e.fields)
  | entry {i : Nat} {before after : Approver} (hl : old.length = new.length)
    (hb : old[i]? = some before) (ha : new[i]? = some after)
    (hd : ¬site.Explains r i before after)
    (hf : ∀ j < i, ∀ b a, old[j]? = some b → new[j]? = some a → site.Explains r j b a)
    (hi : ("index", .count i) ∈ e.fields)

-- A change of the requester's is located while the update is judged, which happens only if they may
-- act on the task.
structure IsLocated (old new : TaskState) (r : Requester) (site : ChangeSite) : Prop where
  eligible : old.refusal? r = none
  located  : r.locate old.approvers new.approvers = .ok (some site)

section

variable {old new : TaskState} {r : Requester} {site : ChangeSite} {as bs : List Approver}
variable {o : Origin} {e : Event}

@[simp]
theorem eventsFrom_eligibilityEvents (h : o ≠ .eligibility) :
    eventsFrom o (old.eligibilityEvents r) = [] := by
  unfold TaskState.eligibilityEvents
  split <;> simp [Ne.symm h]

@[simp]
theorem eventsFrom_locateEvents (h : o ≠ .locator) : eventsFrom o (r.locateEvents as bs) = [] := by
  unfold Requester.locateEvents
  split
  · split <;> simp [Ne.symm h]
  · rfl

@[simp]
theorem origin_breachEvent (b : Breach) : (r.breachEvent b).origin = .isolation := by
  cases b <;> rfl

@[simp]
theorem origin_evaluatingEvent : (r.evaluatingEvent old).origin = .engine :=
  rfl

@[simp]
theorem origin_deniedEvent (reason : DenyReason) : (r.deniedEvent reason).origin = .engine :=
  rfl

@[simp]
theorem origin_nothingLocatedEvent : r.nothingLocatedEvent.origin = .engine :=
  rfl

@[simp]
theorem origin_locatedEvent : (r.locatedEvent site).origin = .engine :=
  rfl

@[simp]
theorem origin_closing :
    (if r.isolated site as bs then r.admittedEvent site else r.deniedEvent .outOfScope).origin =
      .engine := by
  split <;> rfl

theorem isolationEvents_of_isolated (h : r.isolated site as bs) :
    r.isolationEvents site as bs = [] := by
  have hb : r.breach? site as bs = none := by simpa [Requester.isolated] using h
  simp [Requester.isolationEvents, hb]

theorem isolationEvents_of_not_isolated (h : ¬r.isolated site as bs) :
    ∃ b, r.breach? site as bs = some b ∧ r.isolationEvents site as bs = [r.breachEvent b] := by
  have ⟨b, hb⟩ : ∃ b, r.breach? site as bs = some b :=
    Option.ne_none_iff_exists'.mp <| by simpa [Requester.isolated] using h
  exact ⟨b, hb, by simp [Requester.isolationEvents, hb]⟩

@[simp]
theorem eventsFrom_isolationEvents (h : o ≠ .isolation) :
    eventsFrom o (r.isolationEvents site as bs) = [] := by
  by_cases hi : r.isolated site as bs
  case pos => simp [isolationEvents_of_isolated hi]
  case neg =>
    have ⟨b, _, he⟩ := isolationEvents_of_not_isolated hi
    simp [he, Ne.symm h]

theorem isVerdict_deniedEvent {reason : DenyReason} (h : decideUpdate old new r = .deny reason) :
    IsVerdict old new r (r.deniedEvent reason) :=
  .denied h ⟨rfl, rfl⟩ (by simp [Requester.deniedEvent]) (by simp [Requester.deniedEvent])

theorem isVerdict_of_isLocated (h : IsLocated old new r site) : IsVerdict old new r
    (if r.isolated site old.approvers new.approvers then r.admittedEvent site
      else r.deniedEvent .outOfScope) := by
  split
  case isTrue hi =>
    have hd : decideUpdate old new r = .allow := by simp [decideUpdate, h.eligible, h.located, hi]
    apply IsVerdict.admitted hd h.located ⟨rfl, rfl⟩ <;> simp [Requester.admittedEvent]
  case isFalse hi => exact isVerdict_deniedEvent <| by simp [decideUpdate, h.eligible, h.located, hi]

-- Every path through the decision ends in its verdict.
theorem deliberation (old new : TaskState) (r : Requester) :
    Deliberation old new r (eventsFrom .engine (decideEvents old new r)) := by
  cases hr : old.refusal? r
  case some reason =>
    have hd : decideUpdate old new r = .deny reason := by simp [decideUpdate, hr]
    have he : eventsFrom .engine (decideEvents old new r) =
        [r.evaluatingEvent old] ++ [r.deniedEvent reason] := by simp [decideEvents, hr]
    exact he ▸ .intro _ [] _ ⟨rfl, rfl⟩ (by simp [Requester.evaluatingEvent])
      (isVerdict_deniedEvent hd)
  case none =>
    cases hl : r.locate old.approvers new.approvers
    case error input =>
      have hd : decideUpdate old new r = .deny (.invalidInput input) := by
        simp [decideUpdate, hr, hl]
      have he : eventsFrom .engine (decideEvents old new r) =
          [r.evaluatingEvent old] ++ [r.deniedEvent (.invalidInput input)] := by
        simp [decideEvents, changeEvents, hr, hl]
      exact he ▸ .intro _ [] _ ⟨rfl, rfl⟩ (by simp [Requester.evaluatingEvent])
        (isVerdict_deniedEvent hd)
    case ok site? =>
      cases site?
      case none =>
        have hd : decideUpdate old new r = .deny .outOfScope := by simp [decideUpdate, hr, hl]
        have he : eventsFrom .engine (decideEvents old new r) =
            [r.evaluatingEvent old, r.nothingLocatedEvent] ++ [r.deniedEvent .outOfScope] := by
          simp [decideEvents, changeEvents, hr, hl]
        exact he ▸ .intro _ [_] _ ⟨rfl, rfl⟩
          (by simp [Requester.evaluatingEvent, Requester.nothingLocatedEvent])
          (isVerdict_deniedEvent hd)
      case some site =>
        have he : eventsFrom .engine (decideEvents old new r) =
            [r.evaluatingEvent old, r.locatedEvent site] ++
              [if r.isolated site old.approvers new.approvers then r.admittedEvent site
                else r.deniedEvent .outOfScope] := by
          simp [decideEvents, changeEvents, siteEvents, hr, hl]
        exact he ▸ .intro _ [_] _ ⟨rfl, rfl⟩
          (by simp [Requester.evaluatingEvent, Requester.locatedEvent])
          (isVerdict_of_isLocated ⟨hr, hl⟩)

theorem Deliberation.ne_nil {es : List Event} (h : Deliberation old new r es) : es ≠ [] := by
  cases h
  simp

theorem eventsFrom_isolation_of_isLocated (h : IsLocated old new r site) :
    eventsFrom .isolation (decideEvents old new r) =
      eventsFrom .isolation (r.isolationEvents site old.approvers new.approvers) := by
  simp [decideEvents, changeEvents, siteEvents, h.eligible, h.located]

theorem eventsFrom_isolation_of_not_isLocated (h : ∀ site, ¬IsLocated old new r site) :
    eventsFrom .isolation (decideEvents old new r) = [] := by
  cases hr : old.refusal? r
  case some => simp [decideEvents, hr]
  case none =>
    cases hl : r.locate old.approvers new.approvers
    case error => simp [decideEvents, changeEvents, hr, hl]
    case ok site? =>
      cases site?
      case none => simp [decideEvents, changeEvents, hr, hl]
      case some site => exact absurd ⟨hr, hl⟩ (h site)

theorem isBreachEvent_of_breach? {b : Breach} (h : r.breach? site as bs = some b) :
    IsBreachEvent r site as bs (r.breachEvent b) := by
  cases Requester.reports_of_breach? h
  case lengths hn => apply IsBreachEvent.lengths hn <;> simp [Requester.breachEvent]
  case entry hl hb ha hd hf => exact .entry hl hb ha hd hf (by simp [Requester.breachEvent])

theorem exists_breachEvent (h : IsLocated old new r site)
    (hi : ¬r.isolated site old.approvers new.approvers) :
    ∃ e, eventsFrom .isolation (decideEvents old new r) = [e] ∧
      IsBreachEvent r site old.approvers new.approvers e := by
  have ⟨b, hb, he⟩ := isolationEvents_of_not_isolated hi
  refine ⟨r.breachEvent b, ?_, isBreachEvent_of_breach? hb⟩
  simp [eventsFrom_isolation_of_isLocated h, he]

-- The check for a single change reports something if and only if it fails for a located change.
theorem eventsFrom_isolation_ne_nil_iff : eventsFrom .isolation (decideEvents old new r) ≠ [] ↔
    ∃ site, IsLocated old new r site ∧ ¬r.isolated site old.approvers new.approvers := by
  constructor
  case mp =>
    intro h
    have ⟨site, hs⟩ := not_forall_not.mp <| mt eventsFrom_isolation_of_not_isLocated h
    refine ⟨site, hs, fun hi => h ?_⟩
    simp [eventsFrom_isolation_of_isLocated hs, isolationEvents_of_isolated hi]
  case mpr =>
    intro ⟨_, hs, hi⟩
    have ⟨e, he, _⟩ := exists_breachEvent hs hi
    simp [he]

end

-- An event that is reported before the decision on a request is known.
structure Event.IsOfJudging (e : Event) : Prop where
  level      : e.level ≠ .error
  message    : e.message ≠ "decision recorded"
  controller : e.origin ≠ .controller
  log        : e.origin ≠ .log

theorem Event.isOfJudging_mk {l : Level} {o : Origin} {m : String}
    (h : l ≠ .error ∧ m ≠ "decision recorded" ∧ o ≠ .controller ∧ o ≠ .log)
    (fields : List (String × FieldValue)) : IsOfJudging ⟨l, o, m, fields⟩ :=
  ⟨h.left, h.right.left, h.right.right.left, h.right.right.right⟩

section

open Event

variable {old new : TaskState} {r : Requester} {site : ChangeSite} {as bs : List Approver}

theorem isOfJudging_eligibilityEvents : ∀ e ∈ old.eligibilityEvents r, e.IsOfJudging := by
  unfold TaskState.eligibilityEvents
  split
  · exact List.forall_mem_singleton.mpr <| isOfJudging_mk (by decide) _
  · simp

theorem isOfJudging_locateEvents : ∀ e ∈ r.locateEvents as bs, e.IsOfJudging := by
  unfold Requester.locateEvents
  split
  · split
    · exact List.forall_mem_singleton.mpr <| isOfJudging_mk (by decide) _
    · simp
  · simp

theorem isOfJudging_isolationEvents : ∀ e ∈ r.isolationEvents site as bs, e.IsOfJudging := by
  intro e he
  have ⟨b, _, hb⟩ := List.mem_map.mp he
  cases b <;> exact hb ▸ isOfJudging_mk (by decide) _

theorem isOfJudging_deniedEvent (reason : DenyReason) : (r.deniedEvent reason).IsOfJudging :=
  isOfJudging_mk (by decide) _

theorem isOfJudging_siteEvents : ∀ e ∈ siteEvents old new r site, e.IsOfJudging := by
  unfold siteEvents
  refine List.forall_mem_append.mpr ⟨List.forall_mem_cons.mpr ⟨?_, isOfJudging_isolationEvents⟩,
    List.forall_mem_singleton.mpr ?_⟩
  · exact isOfJudging_mk (by decide) _
  split
  · exact isOfJudging_mk (by decide) _
  · exact isOfJudging_deniedEvent _

theorem isOfJudging_changeEvents : ∀ e ∈ changeEvents old new r, e.IsOfJudging := by
  unfold changeEvents
  refine List.forall_mem_append.mpr ⟨isOfJudging_locateEvents, ?_⟩
  split
  case h_1 => exact List.forall_mem_singleton.mpr <| isOfJudging_deniedEvent _
  case h_2 =>
    exact List.forall_mem_cons.mpr ⟨isOfJudging_mk (by decide) _,
      List.forall_mem_singleton.mpr <| isOfJudging_deniedEvent _⟩
  case h_3 => exact isOfJudging_siteEvents

theorem isOfJudging_decideEvents : ∀ e ∈ decideEvents old new r, e.IsOfJudging := by
  unfold decideEvents
  refine List.forall_mem_append.mpr
    ⟨List.forall_mem_cons.mpr ⟨?_, isOfJudging_eligibilityEvents⟩, ?_⟩
  · exact isOfJudging_mk (by decide) _
  split
  · exact List.forall_mem_singleton.mpr <| isOfJudging_deniedEvent _
  · exact isOfJudging_changeEvents

end

end Countersign
