import Countersign.Proofs.Update.Refusal

namespace Countersign

-- The update leaves the entry alone, except that it may no longer list some members.
structure Approver.Untouched (before after : Approver) : Prop where
  name        : before.name = after.name
  typeName    : before.typeName = after.typeName
  undisturbed : ∀ share, ¬before.Disturbed after share

theorem Approver.untouched_iff (r : Requester) {before after : Approver} :
    before.Untouched after ↔ r.violation? before after none = none := by
  rw [Requester.violation?_eq_none_iff]
  constructor
  case mp  => exact fun h => ⟨h.name, h.typeName, fun share hd => absurd hd (h.undisturbed share)⟩
  case mpr =>
    exact fun ⟨hn, ht, hd⟩ => ⟨hn, ht, fun share h => Requester.not_licenses_none (hd share h)⟩

instance {before after : Approver} : Decidable (before.Untouched after) :=
  decidable_of_iff _ (Approver.untouched_iff ⟨"", []⟩).symm

namespace Decision

variable {d : Decision} {p q : Prop} [Decidable p] [Decidable q]

-- The same decision, but what it admits is out of scope unless something more holds.
def onlyIf (d : Decision) (p : Prop) [Decidable p] : Decision :=
  match d with
  | allow => if p then allow else deny .outOfScope
  | deny reason => deny reason

theorem onlyIf_onlyIf : (d.onlyIf p).onlyIf q = d.onlyIf (p ∧ q) := by
  cases d
  case deny => rfl
  case allow => by_cases hp : p <;> simp [onlyIf, hp]

theorem onlyIf_congr (h : p ↔ q) : d.onlyIf p = d.onlyIf q := by
  simp [onlyIf, h]

end Decision

namespace Requester

variable {r : Requester}

-- The decision as it is told from the pairs of entries, wherever they stand. A change that the
-- search settles on is admitted only if what comes before and after it is untouched.
def decidePairs (r : Requester) : List (Approver × Approver) → Decision
  | [] => .deny .outOfScope
  | (before, after) :: rest =>
    match r.settles? before (some after) with
    | none => (decidePairs r rest).onlyIf (before.Untouched after)
    | some none => .deny .outOfScope
    | some (some ⟨target, input⟩) =>
      match Vote.read input with
      | .error u => .deny (.invalidInput u)
      | .ok _ => Decision.allow.onlyIf
          (r.violation? before after (some target) = none ∧ ∀ p ∈ rest, p.1.Untouched p.2)

-- What becomes of a settlement, by the check for a single change.
def verdict (isolated : ChangeSite → Bool) : Option Settlement → Decision
  | some ⟨index, _, some ⟨target, input⟩⟩ =>
    match Vote.read input with
    | .error u => .deny (.invalidInput u)
    | .ok value => if isolated ⟨index, target, value⟩ then .allow else .deny .outOfScope
  | _ => .deny .outOfScope

theorem verdict_onlyIf {f g : ChangeSite → Bool} {s? : Option Settlement} {p : Prop} [Decidable p]
    (h : ∀ s, s? = some s → ∀ site : ChangeSite, site.index = s.index → (f site ↔ g site ∧ p)) :
    verdict f s? = (verdict g s?).onlyIf p := by
  unfold verdict
  split
  case h_2 => rfl
  case h_1 index entry target input =>
    split
    case h_1 => rfl
    case h_2 value _ =>
      have hs := h _ rfl ⟨index, target, value⟩ rfl
      cases hg : g ⟨index, target, value⟩ <;> simp_all [Decision.onlyIf]

section Scan

variable {site : ChangeSite} {old new : List Approver} {k : Nat}

theorem breachFrom?_cons_eq_none_iff {before after : Approver} :
    r.breachFrom? site k (before :: old) (after :: new) = none ↔
      r.violation? before after (if site.index = k then some site.target else none) = none ∧
        r.breachFrom? site (k + 1) old new = none := by
  rw [breachFrom?]
  split <;> simp_all

-- Behind the site nothing may have been touched.
theorem breachFrom?_eq_none_of_lt (h : site.index < k) :
    r.breachFrom? site k old new = none ↔ ∀ p ∈ old.zip new, p.1.Untouched p.2 := by
  induction old generalizing new k <;> cases new
  case cons.cons before old hi after new =>
    rw [breachFrom?_cons_eq_none_iff, if_neg (Nat.ne_of_lt h), hi (Nat.lt_succ_of_lt h),
      ← Approver.untouched_iff, List.zip_cons_cons, List.forall_mem_cons]
  all_goals simp [breachFrom?]

theorem verdict_settleFrom (hl : old.length = new.length) :
    verdict (fun site => (r.breachFrom? site k old new).isNone) (r.settleFrom k old new) =
      r.decidePairs (old.zip new) := by
  induction old generalizing new k <;> cases new
  case nil.nil => rfl
  case nil.cons | cons.nil => cases hl
  case cons.cons before old hi after new =>
    simp only [settleFrom, List.head?_cons, List.tail_cons, List.zip_cons_cons, decidePairs]
    cases hs : r.settles? before (some after)
    case none =>
      simp only
      rw [← hi (k := k + 1) (Nat.succ.inj hl)]
      refine verdict_onlyIf fun s hs site he => ?_
      -- What the scan settles on stands behind this entry.
      obtain ⟨i, hk, _⟩ := settleFrom_eq_some_iff.mp hs
      have hne : site.index ≠ k := by omega
      rw [Option.isNone_iff_eq_none, Option.isNone_iff_eq_none, breachFrom?_cons_eq_none_iff,
        if_neg hne, ← Approver.untouched_iff, and_comm]
    case some proposal? =>
      cases proposal?
      case none => rfl
      case some p =>
        simp only [verdict]
        split
        case h_1 => rfl
        case h_2 value _ =>
          refine if_congr ?_ rfl rfl
          rw [Option.isNone_iff_eq_none, breachFrom?_cons_eq_none_iff, if_pos rfl,
            breachFrom?_eq_none_of_lt (Nat.lt_succ_self k)]

end Scan

-- The pairs whose stored entry stands for the requester.
def own (r : Requester) (ps : List (Approver × Approver)) : List (Approver × Approver) :=
  ps.filter (·.1.designates r)

def OthersUntouched (r : Requester) (ps : List (Approver × Approver)) : Prop :=
  ∀ p ∈ ps, ¬p.1.designates r → p.1.Untouched p.2

variable {p : Approver × Approver} {ps : List (Approver × Approver)}

instance : Decidable (r.OthersUntouched ps) :=
  inferInstanceAs <| Decidable (∀ p ∈ ps, _)

theorem othersUntouched_cons_iff : r.OthersUntouched (p :: ps) ↔
    (¬p.1.designates r → p.1.Untouched p.2) ∧ r.OthersUntouched ps := by
  simp [OthersUntouched]

theorem forall_untouched_iff : (∀ p ∈ ps, p.1.Untouched p.2) ↔
    (∀ p ∈ r.own ps, p.1.Untouched p.2) ∧ r.OthersUntouched ps := by
  constructor
  case mp  => exact fun h => ⟨fun p hp => h p ((List.mem_filter.mp hp).left), fun p hp _ => h p hp⟩
  case mpr =>
    intro ⟨ho, hu⟩ p hp
    by_cases hd : p.1.designates r
    case pos => exact ho p <| List.mem_filter.mpr ⟨hp, hd⟩
    case neg => exact hu p hp hd

-- The pairs that are left without the untouched entries of others.
def relevant (r : Requester) (ps : List (Approver × Approver)) : List (Approver × Approver) :=
  ps.filter fun p => p.1.designates r ∨ ¬p.1.Untouched p.2

theorem own_relevant : r.own (r.relevant ps) = r.own ps := by
  unfold own relevant
  rw [List.filter_filter]
  refine List.filter_congr fun p _ => ?_
  cases p.1.designates r <;> simp

theorem othersUntouched_relevant_iff :
    r.OthersUntouched (r.relevant ps) ↔ r.OthersUntouched ps := by
  constructor
  case mpr => exact fun h p hp => h p (List.mem_filter.mp hp).left
  case mp =>
    intro h p hp hd
    by_contra hu
    exact hu <| h p (List.mem_filter.mpr ⟨hp, by simp [hu]⟩) hd

-- The decision on the requester's own pairs is the one on all pairs, if no other pair is touched.
theorem decidePairs_eq_own :
    r.decidePairs ps = (r.decidePairs (r.own ps)).onlyIf (r.OthersUntouched ps) := by
  induction ps
  case nil => rfl
  case cons p ps hi =>
    have ⟨before, after⟩ := p
    by_cases hd : before.designates r
    case neg =>
      have ⟨hu, hm⟩ := not_or.mp <| mt Approver.designates_iff.mpr hd
      have ho : r.own (⟨before, after⟩ :: ps) = r.own ps := by simp [own, hd]
      rw [ho, decidePairs, settles?_of_not_designates hu hm, hi, Decision.onlyIf_onlyIf]
      exact Decision.onlyIf_congr <| by simp [othersUntouched_cons_iff, hd, and_comm]
    case pos =>
      have ho : r.own (⟨before, after⟩ :: ps) = ⟨before, after⟩ :: r.own ps := by simp [own, hd]
      have hc : r.OthersUntouched (⟨before, after⟩ :: ps) ↔ r.OthersUntouched ps := by
        simp [othersUntouched_cons_iff, hd]
      rw [ho, decidePairs, decidePairs, Decision.onlyIf_congr hc]
      split
      case h_1 =>
        rw [hi, Decision.onlyIf_onlyIf, Decision.onlyIf_onlyIf]
        exact Decision.onlyIf_congr and_comm
      case h_2 => rfl
      case h_3 target input _ =>
        cases Vote.read input
        case error => rfl
        case ok =>
          simp only [Decision.onlyIf_onlyIf]
          refine Decision.onlyIf_congr ?_
          rw [forall_untouched_iff (r := r), and_assoc]

end Requester

section

variable {old new old' new' : TaskState} {r : Requester}

theorem TaskState.any_designates_iff (hl : old.approvers.length = new.approvers.length) :
    old.approvers.any (·.designates r) ↔ r.own (old.approvers.zip new.approvers) ≠ [] := by
  have hm : (old.approvers.zip new.approvers).map Prod.fst = old.approvers :=
    List.map_fst_zip (Nat.le_of_eq hl)
  have ha : old.approvers.any (·.designates r) =
      (old.approvers.zip new.approvers).any (·.1.designates r) := by
    conv_lhs => rw [← hm, List.any_map]
    rfl
  rw [ha]
  simp [Requester.own, List.filter_eq_nil_iff]

-- Between lists of one length the decision is told from the pairs of their entries.
theorem decideUpdate_eq_decidePairs (hl : old.approvers.length = new.approvers.length)
    (hr : old.refusal? r = none) :
    decideUpdate old new r = r.decidePairs (old.approvers.zip new.approvers) := by
  have hi (site : ChangeSite) : r.isolated site old.approvers new.approvers =
      (r.breachFrom? site 0 old.approvers new.approvers).isNone := by
    simp [Requester.isolated, Requester.breach?, hl]
  rw [← Requester.verdict_settleFrom (k := 0) hl]
  simp only [decideUpdate, hr, Requester.locate, Requester.settle, hi]
  cases r.settleFrom 0 old.approvers new.approvers
  case none => rfl
  case some s =>
    obtain ⟨index, entry, proposal?⟩ := s
    cases proposal?
    case none => rfl
    case some p => cases hv : Vote.read p.input <;> simp [Requester.verdict, hv, Except.map]

-- Two updates between which a requester's decision makes no difference: the same entries stand for
-- the requester, in the same order, and others are touched in both updates or in none.
structure SameConcern (r : Requester) (old new old' new' : TaskState) : Prop where
  closed : old.isClosed = old'.isClosed
  empty  : old.approvers = [] ↔ old'.approvers = []
  own    : r.own (old.approvers.zip new.approvers) = r.own (old'.approvers.zip new'.approvers)
  others : r.OthersUntouched (old.approvers.zip new.approvers) ↔
    r.OthersUntouched (old'.approvers.zip new'.approvers)

theorem SameConcern.of_relevant (hc : old.isClosed = old'.isClosed)
    (he : old.approvers = [] ↔ old'.approvers = [])
    (h : r.relevant (old.approvers.zip new.approvers) =
      r.relevant (old'.approvers.zip new'.approvers)) : SameConcern r old new old' new' where
  closed := hc
  empty  := he
  own    := by rw [← Requester.own_relevant, h, Requester.own_relevant]
  others := by
    rw [← Requester.othersUntouched_relevant_iff, h, Requester.othersUntouched_relevant_iff]

theorem SameConcern.refusal?_eq (h : SameConcern r old new old' new')
    (hl : old.approvers.length = new.approvers.length)
    (hl' : old'.approvers.length = new'.approvers.length) : old.refusal? r = old'.refusal? r := by
  have he : old.approvers.isEmpty = old'.approvers.isEmpty := by
    rw [Bool.eq_iff_iff, List.isEmpty_iff, List.isEmpty_iff, h.empty]
  have ha : old.approvers.any (·.designates r) = old'.approvers.any (·.designates r) := by
    rw [Bool.eq_iff_iff, TaskState.any_designates_iff hl, TaskState.any_designates_iff hl', h.own]
  simp only [TaskState.refusal?, h.closed, he, ha]

theorem SameConcern.decideUpdate_eq (h : SameConcern r old new old' new')
    (hl : old.approvers.length = new.approvers.length)
    (hl' : old'.approvers.length = new'.approvers.length) :
    decideUpdate old new r = decideUpdate old' new' r := by
  have hr := h.refusal?_eq hl hl'
  cases ho : old.refusal? r
  case some reason => simp only [decideUpdate, ho, ← hr]
  case none =>
    calc decideUpdate old new r
      _ = r.decidePairs (old.approvers.zip new.approvers) := decideUpdate_eq_decidePairs hl ho
      _ = (r.decidePairs (r.own (old.approvers.zip new.approvers))).onlyIf
            (r.OthersUntouched (old.approvers.zip new.approvers)) := Requester.decidePairs_eq_own
      _ = (r.decidePairs (r.own (old'.approvers.zip new'.approvers))).onlyIf
            (r.OthersUntouched (old'.approvers.zip new'.approvers)) := by
        rw [h.own]
        exact Decision.onlyIf_congr h.others
      _ = r.decidePairs (old'.approvers.zip new'.approvers) := Requester.decidePairs_eq_own.symm
      _ = decideUpdate old' new' r := decideUpdate_eq_decidePairs hl' (hr ▸ ho) |>.symm

-- Only the requester's own entries matter, in their order, and of others whether any is touched. So
-- it does not matter how many untouched entries of others there are, or where they stand.
theorem own_entries_decide (hl : old.approvers.length = new.approvers.length)
    (hl' : old'.approvers.length = new'.approvers.length) :
    (SameConcern r old new old' new' → decideUpdate old new r = decideUpdate old' new' r) ∧
    (old.isClosed = old'.isClosed → (old.approvers = [] ↔ old'.approvers = []) →
      r.relevant (old.approvers.zip new.approvers) =
        r.relevant (old'.approvers.zip new'.approvers) →
      decideUpdate old new r = decideUpdate old' new' r) := by
  refine ⟨fun h => h.decideUpdate_eq hl hl', fun hc he hr => ?_⟩
  exact (SameConcern.of_relevant hc he hr).decideUpdate_eq hl hl'

-- Alice votes, and Bob does not. In the second task there is a group besides, in which a member who
-- has not voted is no longer listed.
def TaskState.bobThenAlice (input : String) : TaskState :=
  ⟨[⟨"bob", "", .user⟩, ⟨"alice", input, .user⟩], .pending, 0, 1⟩

def TaskState.aliceThenBob (input : String) (members : List Member) : TaskState :=
  ⟨[⟨"alice", input, .user⟩, ⟨"qa", "", .group members⟩, ⟨"bob", "", .user⟩], .pending, 1, 3⟩

-- The case of entries of others that are inserted and change places.
theorem alice_votes_among_others :
    (TaskState.bobThenAlice "").approvers.length =
        (TaskState.bobThenAlice "approve").approvers.length ∧
      (TaskState.aliceThenBob "" [⟨"carol", ""⟩]).approvers.length =
        (TaskState.aliceThenBob "approve" []).approvers.length ∧
      SameConcern ⟨"alice", []⟩ (.bobThenAlice "") (.bobThenAlice "approve")
        (.aliceThenBob "" [⟨"carol", ""⟩]) (.aliceThenBob "approve" []) ∧
      Requester.relevant ⟨"alice", []⟩ ((TaskState.bobThenAlice "").approvers.zip
          (TaskState.bobThenAlice "approve").approvers) =
        Requester.relevant ⟨"alice", []⟩ ((TaskState.aliceThenBob "" [⟨"carol", ""⟩]).approvers.zip
          (TaskState.aliceThenBob "approve" []).approvers) ∧
      decideUpdate (.bobThenAlice "") (.bobThenAlice "approve") ⟨"alice", []⟩ =
        decideUpdate (.aliceThenBob "" [⟨"carol", ""⟩]) (.aliceThenBob "approve" [])
          ⟨"alice", []⟩ := by
  have hr : Requester.relevant ⟨"alice", []⟩ ((TaskState.bobThenAlice "").approvers.zip
        (TaskState.bobThenAlice "approve").approvers) =
      Requester.relevant ⟨"alice", []⟩ ((TaskState.aliceThenBob "" [⟨"carol", ""⟩]).approvers.zip
        (TaskState.aliceThenBob "approve" []).approvers) := by
    decide
  have he : (TaskState.bobThenAlice "").approvers = [] ↔
      (TaskState.aliceThenBob "" [⟨"carol", ""⟩]).approvers = [] := by
    decide
  have hl : (TaskState.bobThenAlice "").approvers.length =
      (TaskState.bobThenAlice "approve").approvers.length := rfl
  have hl' : (TaskState.aliceThenBob "" [⟨"carol", ""⟩]).approvers.length =
      (TaskState.aliceThenBob "approve" []).approvers.length := rfl
  exact ⟨hl, hl', .of_relevant rfl he hr, hr, (own_entries_decide hl hl').right rfl he hr⟩

end
end Countersign
