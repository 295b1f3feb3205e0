import Countersign.CommandLine.Arguments

namespace Countersign.CommandLine

-- An option with its value attached.
def attached (name value : String) : String :=
  "--" ++ name ++ "=" ++ value

def decideArguments (config old : Option String) (new user : String) (groups : List String) :
    List String :=
  "decide" :: attached "new" new :: attached "user" user ::
    (old.toList.map (attached "old") ++ (config.toList.map (attached "config") ++
      groups.map (attached "group")))

variable {options : Options} {usage : Usage} {name value : String} {args : List String}
variable {given given' : Given}

theorem splitOption_attached (hn : name ≠ "") (he : '=' ∉ name.toList) :
    splitOption (attached name value) = some (name, some value) := by
  have ⟨c, cs, hc⟩ : ∃ c cs, name.toList = c :: cs := by
    cases h : name.toList
    case nil       => exact absurd (String.toList_eq_nil_iff.mp h) hn
    case cons c cs => exact ⟨c, cs, rfl⟩
  have hs : (attached name value).toList = '-' :: '-' :: c :: (cs ++ '=' :: value.toList) := by
    simp [attached, hc]
  have hp : ∀ x ∈ c :: cs, x != '=' := by
    intro x hx
    exact bne_iff_ne.mpr fun h => he <| hc ▸ h ▸ hx
  have ht : (c :: (cs ++ '=' :: value.toList)).takeWhile (· != '=') = c :: cs := by
    rw [← List.cons_append, List.takeWhile_append_of_pos hp]
    simp
  have hd : (c :: (cs ++ '=' :: value.toList)).dropWhile (· != '=') = '=' :: value.toList := by
    rw [← List.cons_append, List.dropWhile_append_of_pos hp]
    simp
  simp only [splitOption, hs, ht, hd, String.ofList_toList, ← hc]

-- What may be given is read and kept.
theorem readOptions_attached (hn : name ≠ "") (he : '=' ∉ name.toList)
    (hu : options.lookup name = some usage) (ha : addGiven usage name value given = some given')
    (hs : usage ≠ .switch) :
    readOptions options (attached name value :: args) given = readOptions options args given' := by
  rw [readOptions, splitOption_attached hn he]
  simp only [hu]
  cases usage
  case switch => contradiction
  all_goals simp [ha]

theorem addGiven_of_lookup (hv : value ≠ "") (hg : given.lookup name = none) :
    addGiven usage name value given = some (given ++ [(name, value)]) := by
  simp [addGiven, hv, hg]

theorem readOptions_attached? {value? : Option String} (hn : name ≠ "") (he : '=' ∉ name.toList)
    (hu : options.lookup name = some .path) (hv : value? ≠ some "") (hg : given.lookup name = none) :
    readOptions options (value?.toList.map (attached name) ++ args) given =
      readOptions options args (given ++ value?.toList.map (name, ·)) := by
  cases value?
  case none => simp
  case some value =>
    have hv : value ≠ "" := fun h => hv (h ▸ rfl)
    exact readOptions_attached hn he hu (addGiven_of_lookup hv hg) nofun

theorem readOptions_groups (groups : List String) :
    readOptions decideOptions (groups.map (attached "group")) given =
      some (given ++ groups.map ("group", ·), []) := by
  induction groups generalizing given
  case nil => simp [readOptions]
  case cons g groups hi =>
    have ha : addGiven .texts "group" g given = some (given ++ [("group", g)]) := by simp [addGiven]
    rw [List.map_cons, readOptions_attached (by decide) (by decide) rfl ha nofun]
    simp [hi]

section

variable {config old : Option String} {new user : String} {groups : List String}

variable (config old new user groups) in
-- The options of a request for a decision, in the order in which they are read.
def decideGiven : Given :=
  [("new", new), ("user", user)] ++ old.toList.map ("old", ·) ++ config.toList.map ("config", ·) ++
    groups.map ("group", ·)

theorem readOptions_decideArguments (hc : config ≠ some "") (ho : old ≠ some "") (hn : new ≠ "") :
    readOptions decideOptions (decideArguments config old new user groups).tail [] =
      some (decideGiven config old new user groups, []) := by
  have hu : addGiven .text "user" user [("new", new)] = some [("new", new), ("user", user)] := rfl
  have hl : List.lookup "config" ([("new", new), ("user", user)] ++ old.toList.map ("old", ·)) =
    none := by cases old <;> rfl
  rw [decideArguments, List.tail_cons]
  rw [readOptions_attached (by decide) (by decide) rfl (addGiven_of_lookup hn rfl) (by decide)]
  rw [List.nil_append, readOptions_attached (by decide) (by decide) rfl hu (by decide)]
  rw [readOptions_attached? (by decide) (by decide) rfl ho rfl]
  rw [readOptions_attached? (by decide) (by decide) rfl hc hl]
  rw [readOptions_groups, decideGiven]

theorem lookup_groups (hn : name ≠ "group") :
    (groups.map fun g => ("group", g)).lookup name = none := by
  have hb : (name == "group") = false := beq_false_of_ne hn
  induction groups
  case nil         => rfl
  case cons _ _ hi => simp only [List.map_cons, List.lookup_cons, hb, hi]

theorem all_groups : Given.all (groups.map fun g => ("group", g)) "group" = groups := by
  simp [Given.all, List.filter_map, Function.comp_def]

theorem lookup_config_decideGiven :
    (decideGiven config old new user groups).lookup "config" = config := by
  cases config <;> cases old <;> simp [decideGiven, List.lookup_cons, lookup_groups]

theorem decideCommand_decideGiven :
    decideCommand (decideGiven config old new user groups) = some (.decide old new user groups) := by
  have ho : (decideGiven config old new user groups).lookup "old" = old := by
    cases config <;> cases old <;> simp [decideGiven, List.lookup_cons, lookup_groups]
  have hg : (decideGiven config old new user groups).all "group" = groups := by
    cases config <;> cases old <;> exact all_groups
  simp only [decideCommand, ho, hg]
  rfl

-- With each value attached to its option the arguments are understood as what they say, whatever
-- the user and the groups are called.
theorem readArguments_decideArguments (hc : config ≠ some "") (ho : old ≠ some "") (hn : new ≠ "") :
    readArguments (decideArguments config old new user groups) =
      some ⟨config, .decide old new user groups⟩ := by
  have hb : readOptions commonOptions (decideArguments config old new user groups) [] =
    some ([], decideArguments config old new user groups) := rfl
  have ha : readAll decideOptions (decideArguments config old new user groups).tail =
    some (decideGiven config old new user groups) := by
    simp [readAll, readOptions_decideArguments hc ho hn]
  simp only [decideArguments, List.tail_cons] at ha hb ⊢
  simp [readArguments, hb, ha, lookup_config_decideGiven, decideCommand_decideGiven]

end

end Countersign.CommandLine
