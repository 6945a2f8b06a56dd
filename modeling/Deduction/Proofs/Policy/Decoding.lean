import Deduction.Policy.Decoding
import Deduction.Proofs.Value.Reading

/-!
What values come to as policies.

A value holds the faults of its settings. It describes a policy exactly if it holds none, and a
fault that is met is one that it holds. Most of the faults are errors of policies. Four settings
lead past these errors: the name of a ruleset that is no text, an infinite number of workers, a time
that is an integer out of range, and a choice that holds an integer too long to be written. Besides,
a time that is no number passes for one that is positive.
-/

namespace Deduction

open Value (lookUp?)

theorem Ruleset.mem_all (ruleset : Ruleset) : ruleset ∈ all := by
  cases ruleset <;> decide

namespace Policy

/-- The choices among the settings, each with the names of its options. -/
def optionNames : List (String × List String) :=
  [ ("unknown_rule", ["accept", "reject"])
  , ("malformed_formula", ["strict", "placeholder"])
  , ("conjunction_order", ["ordered", "any"]) ]

/-- A value holds a fault: one of its settings is not what a policy can be made of. -/
inductive Holds (value : Value) : PolicyFault → Prop
  | root (hnull : value ≠ .null) (hkind : value.kind ≠ .object) :
      Holds value (.invalid .rootNotMapping)
  | sectionKind {name : String} {inner : Value} (hname : name ∈ ["policies", "worker"])
      (hinner : value.HasMember name inner) (htruthy : inner.isTruthy = true)
      (hkind : inner.kind ≠ .object) : Holds value (.invalid .sectionNotMapping)
  | rulesetName {name : String} (hname : value.HasMember "default_ruleset" (.text name))
      (hgiven : name ≠ "") (hunknown : Ruleset.ofName? name = none) :
      Holds value (.invalid (.unknownRuleset ⟨some name⟩))
  | rulesetForeign {thing : Foreign} (hname : value.HasMember "default_ruleset" (.foreign thing))
      (htruthy : thing.isTruthy = true) (htextual : thing.isTextual = true) :
      Holds value (.invalid (.unknownRuleset ⟨some thing.shown⟩))
  | rulesetKind {name : Value} (hname : value.HasMember "default_ruleset" name)
      (htruthy : name.isTruthy = true) (hkind : name.kind ≠ .text)
      (hforeign : ∀ thing, name = .foreign thing → thing.isTextual = false) :
      Holds value (.misfit (.lacksMember name.kind "strip"))
  | workerText {number : Value} {misfit : Misfit}
      (hnumber : value.HasSetting "worker" "max_workers" number)
      (hread : number.toInteger = .error misfit) (hplain : misfit.isPlain = true) :
      Holds value (.invalid (.workerSettings misfit))
  | workerRange {negative : Bool}
      (hnumber : value.HasSetting "worker" "max_workers" (.real (.infinite negative))) :
      Holds value (.misfit .infiniteInteger)
  | tooFewWorkers {number : Value} {n : Int}
      (hnumber : value.HasSetting "worker" "max_workers" number)
      (hread : number.toInteger = .ok n) (hfew : n < 1) : Holds value (.invalid .tooFewWorkers)
  | timeText {number : Value} {misfit : Misfit}
      (hnumber : value.HasSetting "worker" "timeout_s" number)
      (hread : number.toReal = .error misfit) (hplain : misfit.isPlain = true) :
      Holds value (.invalid (.workerSettings misfit))
  | timeRange {n : Int} (hnumber : value.HasSetting "worker" "timeout_s" (.int n))
      (hlarge : Binary64.leastInfinite ≤ n.natAbs) : Holds value (.misfit .integerTooLarge)
  | noTime {number : Value} {x : Binary64}
      (hnumber : value.HasSetting "worker" "timeout_s" number) (hread : number.toReal = .ok x)
      (htime : x.isNonpositive = true) : Holds value (.invalid .timeoutNotPositive)
  | noOption {key : String} {names : List String} {setting : Value}
      (hkey : (key, names) ∈ optionNames) (hsetting : value.HasSetting "policies" key setting)
      (hwritable : setting.isWritable = true)
      (hother : Text.lowerString (Text.trimString setting.display) ∉ names) :
      Holds value (.invalid (.invalidChoice setting.shown ("policies." ++ key) names))
  | unwritable {key : String} {names : List String} {setting : Value}
      (hkey : (key, names) ∈ optionNames) (hsetting : value.HasSetting "policies" key setting)
      (hlong : setting.isWritable = false) : Holds value (.misfit .unwritableInteger)

/-- The time to wait is given as what is no number. -/
def HoldsNan (value : Value) : Prop :=
  ∃ number, value.HasSetting "worker" "timeout_s" number ∧ number.toReal = .ok .nan

/-- A policy and a value that describes it: the value holds no fault, the ruleset is a known one,
there is a worker at least, and the time to wait is positive unless it is given as no number. -/
structure Suits (value : Value) (policy : Policy) : Prop where
  fits : ∀ fault, ¬ Holds value fault
  known : policy.defaultRuleset ∈ Ruleset.all
  workers : 1 ≤ policy.maxWorkers
  time : policy.timeout.isPositive = true ↔ ¬ HoldsNan value

end Policy

section Readers

variable {field : Option Value} {fault : PolicyFault}

theorem sectionOf_eq_error_iff :
    sectionOf field = .error fault ↔
      ∃ value, field = some value ∧ value.isTruthy = true ∧ value.kind ≠ .object ∧
        PolicyFault.invalid .sectionNotMapping = fault := by
  unfold sectionOf
  split
  · simp
  · simp [Value.kind]
  · rename_i value hother
    have hkind : value.kind ≠ .object := fun hobject => by
      obtain ⟨members, rfl⟩ := Value.kind_eq_object_iff.mp hobject
      exact hother members rfl
    by_cases htruthy : value.isTruthy = true
    · simp [htruthy, hkind]
    · simp [htruthy]

theorem hasSetting_iff {members inner : Members} {name key : String} {setting : Value}
    (hsection : sectionOf (lookUp? name members) = .ok inner) :
    (Value.object members).HasSetting name key setting ↔ lookUp? key inner = some setting := by
  simp only [Value.HasSetting, Value.hasMember_object]
  unfold sectionOf at hsection
  split at hsection
  · rename_i hnone
    cases hsection
    rw [hnone]
    simp [lookUp?]
  · rename_i hsome
    cases hsection
    simp [hsome]
  · rename_i value hother hsome
    split at hsection
    · cases hsection
    · cases hsection
      constructor
      · rintro ⟨found, hfound, members, rfl, -⟩
        exact absurd (hsome.symm.trans hfound) (by simpa using hother members)
      · intro hnone
        cases hnone

theorem defaultRulesetOf_eq_error_iff :
    defaultRulesetOf field = .error fault ↔
      (∃ name, field = some (.text name) ∧ name ≠ "" ∧ Ruleset.ofName? name = none ∧
        PolicyFault.invalid (.unknownRuleset ⟨some name⟩) = fault) ∨
      (∃ thing, field = some (.foreign thing) ∧ thing.isTruthy = true ∧ thing.isTextual = true ∧
        PolicyFault.invalid (.unknownRuleset ⟨some thing.shown⟩) = fault) ∨
      ∃ name, field = some name ∧ name.isTruthy = true ∧ name.kind ≠ .text ∧
        (∀ thing, name = .foreign thing → thing.isTextual = false) ∧
        PolicyFault.misfit (.lacksMember name.kind "strip") = fault := by
  unfold defaultRulesetOf
  split
  · simp
  · rename_i name
    have htext : (Value.text name).kind = .text := rfl
    have hstandard : Ruleset.ofName? Ruleset.standard.name = some .standard := by decide
    by_cases hempty : name = ""
    · simp [Ruleset.resolve, hempty, hstandard, Value.kind, Scalar.kind]
    · cases hfound : Ruleset.ofName? name <;> simp [Ruleset.resolve, hempty, hfound, htext]
  · rename_i thing
    cases htruthy : thing.isTruthy <;> cases htextual : thing.isTextual <;>
      simp [htruthy, htextual, Value.kind, Scalar.kind, Value.isTruthy, Scalar.isTruthy]
  · rename_i value hother hforeign
    have hnot : ∀ name, value ≠ .text name := hother
    have hnotForeign : ∀ thing, value ≠ .foreign thing := hforeign
    have hkind : value.kind ≠ .text := fun htext => by
      obtain ⟨name, rfl⟩ := Value.kind_eq_text_iff.mp htext
      exact hother name rfl
    by_cases htruthy : value.isTruthy = true
    · simp [htruthy, hkind, hnot, hnotForeign]
    · simp [htruthy, hnot, hnotForeign]

section Numbers

variable {α : Type} {read : Value → Except Misfit α} {default : α}

theorem workerNumber_eq_error_iff :
    workerNumber read default field = .error fault ↔
      ∃ value misfit, field = some value ∧ read value = .error misfit ∧
        (if misfit.isPlain then PolicyFault.invalid (.workerSettings misfit)
          else .misfit misfit) = fault := by
  cases field with
  | none => simp [workerNumber]
  | some value =>
      cases hread : read value with
      | ok number => simp [workerNumber, hread]
      | error misfit =>
          cases hplain : misfit.isPlain <;> simp [workerNumber, hread, hplain]

theorem workerNumber_eq_ok_iff {number : α} :
    workerNumber read default field = .ok number ↔
      (field = none ∧ default = number) ∨
        ∃ value, field = some value ∧ read value = .ok number := by
  cases field with
  | none => simp [workerNumber]
  | some value =>
      cases hread : read value with
      | ok found => simp [workerNumber, hread]
      | error misfit =>
          cases hplain : misfit.isPlain <;> simp [workerNumber, hread, hplain]

end Numbers

section Choices

variable {α : Type} {choice : Choice α} {default : α}

/-- The names of the options of a choice. -/
def Choice.names (choice : Choice α) : List String :=
  choice.options.map (·.1)

theorem Choice.find?_eq_none_iff (choice : Choice α) (name : String) :
    (choice.options.find? fun option => option.1 == name) = none ↔ name ∉ choice.names := by
  rw [List.find?_eq_none, names, List.mem_map]
  constructor
  · rintro hnone ⟨option, hoption, rfl⟩
    exact hnone option hoption (by simp)
  · intro hother option hoption hname
    exact hother ⟨option, hoption, by simpa using hname⟩

theorem Choice.read_eq_error_iff :
    choice.read default field = .error fault ↔
      ∃ value, field = some value ∧
        (value.isWritable = false ∧ PolicyFault.misfit .unwritableInteger = fault ∨
          value.isWritable = true ∧
            Text.lowerString (Text.trimString value.display) ∉ choice.names ∧
            PolicyFault.invalid (.invalidChoice value.shown choice.field choice.names) =
              fault) := by
  cases field with
  | none => simp [read]
  | some value =>
      cases hwritable : value.isWritable with
      | false => simp [read, Value.displayed, hwritable]
      | true =>
          simp only [read, Value.displayed, hwritable, if_true]
          rw [show choice.options.map (·.1) = choice.names from rfl]
          have hnone := choice.find?_eq_none_iff (Text.lowerString (Text.trimString value.display))
          split
          · rename_i option hfound
            rw [hfound] at hnone
            simp [hwritable, ← hnone]
          · rename_i hfound
            simp [hwritable, hnone.mp hfound]

theorem Choice.mem_names_of_read_eq_ok {value : Value} {option : α}
    (hread : choice.read default field = .ok option) (hfield : field = some value) :
    value.isWritable = true ∧
      Text.lowerString (Text.trimString value.display) ∈ choice.names := by
  cases hwritable : value.isWritable with
  | false =>
      have hfails := hread.symm.trans
        (read_eq_error_iff.mpr ⟨value, hfield, Or.inl ⟨hwritable, rfl⟩⟩)
      cases hfails
  | true =>
      refine ⟨rfl, Decidable.byContradiction fun hother => ?_⟩
      have hfails := hread.symm.trans
        (read_eq_error_iff.mpr ⟨value, hfield, Or.inr ⟨hwritable, hother, rfl⟩⟩)
      cases hfails

end Choices

end Readers

namespace Policy

/-- What a value comes to as a policy: a fault that it holds, or a policy that it describes. -/
inductive Settles (value : Value) : Except PolicyFault Policy → Prop
  | fault {fault : PolicyFault} (hholds : Holds value fault) : Settles value (.error fault)
  | policy {policy : Policy} (hsuits : Suits value policy) : Settles value (.ok policy)

theorem Settles.bind {α : Type} {value : Value} {read : Except PolicyFault α}
    {next : α → Except PolicyFault Policy}
    (hfault : ∀ fault, read = .error fault → Holds value fault)
    (hnext : ∀ result, read = .ok result → Settles value (next result)) :
    Settles value (read >>= next) := by
  cases read with
  | error fault => exact .fault (hfault fault rfl)
  | ok result => exact hnext result rfl

section Members

variable {members policies worker : Members} {fault : PolicyFault}

theorem holds_of_sectionOf {name : String} (hname : name ∈ ["policies", "worker"])
    (hread : sectionOf (lookUp? name members) = .error fault) :
    Holds (.object members) fault := by
  obtain ⟨inner, hinner, htruthy, hkind, rfl⟩ := sectionOf_eq_error_iff.mp hread
  exact .sectionKind hname (Value.hasMember_object.mpr hinner) htruthy hkind

theorem holds_of_defaultRulesetOf
    (hread : defaultRulesetOf (lookUp? "default_ruleset" members) = .error fault) :
    Holds (.object members) fault := by
  rcases defaultRulesetOf_eq_error_iff.mp hread with
    ⟨name, hname, hgiven, hunknown, rfl⟩ | ⟨thing, hname, htruthy, htextual, rfl⟩ |
      ⟨name, hname, htruthy, hkind, hforeign, rfl⟩
  · exact .rulesetName (Value.hasMember_object.mpr hname) hgiven hunknown
  · exact .rulesetForeign (Value.hasMember_object.mpr hname) htruthy htextual
  · exact .rulesetKind (Value.hasMember_object.mpr hname) htruthy hkind hforeign

theorem holds_of_maxWorkers (hworker : sectionOf (lookUp? "worker" members) = .ok worker)
    {default : Int}
    (hread : workerNumber Value.toInteger default (lookUp? "max_workers" worker) =
      .error fault) : Holds (.object members) fault := by
  obtain ⟨number, misfit, hnumber, herror, rfl⟩ := workerNumber_eq_error_iff.mp hread
  have hsetting := (hasSetting_iff hworker).mpr hnumber
  split
  · rename_i hplain
    exact .workerText hsetting herror hplain
  · rename_i hplain
    obtain ⟨⟨negative, rfl⟩, rfl⟩ :=
      Value.toInteger_eq_error_iff.mp ⟨herror, Bool.eq_false_iff.mpr hplain⟩
    exact .workerRange hsetting

theorem holds_tooFewWorkers (hworker : sectionOf (lookUp? "worker" members) = .ok worker)
    {count : Int}
    (hread : workerNumber Value.toInteger 4 (lookUp? "max_workers" worker) = .ok count)
    (hfew : count < 1) : Holds (.object members) (.invalid .tooFewWorkers) := by
  rcases workerNumber_eq_ok_iff.mp hread with ⟨-, rfl⟩ | ⟨number, hnumber, hcount⟩
  · exact absurd hfew (by decide)
  · exact .tooFewWorkers ((hasSetting_iff hworker).mpr hnumber) hcount hfew

theorem holds_of_timeout (hworker : sectionOf (lookUp? "worker" members) = .ok worker)
    {default : Binary64}
    (hread : workerNumber Value.toReal default (lookUp? "timeout_s" worker) = .error fault) :
    Holds (.object members) fault := by
  obtain ⟨number, misfit, hnumber, herror, rfl⟩ := workerNumber_eq_error_iff.mp hread
  have hsetting := (hasSetting_iff hworker).mpr hnumber
  split
  · rename_i hplain
    exact .timeText hsetting herror hplain
  · rename_i hplain
    obtain ⟨⟨n, rfl, hlarge⟩, rfl⟩ :=
      Value.toReal_eq_error_iff.mp ⟨herror, Bool.eq_false_iff.mpr hplain⟩
    exact .timeRange hsetting hlarge

theorem holds_noTime (hworker : sectionOf (lookUp? "worker" members) = .ok worker)
    {timeout : Binary64}
    (hread : workerNumber Value.toReal (.ofInt 10) (lookUp? "timeout_s" worker) = .ok timeout)
    (htime : timeout.isNonpositive = true) :
    Holds (.object members) (.invalid .timeoutNotPositive) := by
  rcases workerNumber_eq_ok_iff.mp hread with ⟨-, rfl⟩ | ⟨number, hnumber, hreal⟩
  · exact absurd htime (by decide)
  · exact .noTime ((hasSetting_iff hworker).mpr hnumber) hreal htime

theorem holds_of_choice {α : Type} {choice : Choice α} {default : α} {key : String}
    (hpolicies : sectionOf (lookUp? "policies" members) = .ok policies)
    (hkey : (key, choice.names) ∈ optionNames) (hfield : "policies." ++ key = choice.field)
    (hread : choice.read default (lookUp? key policies) = .error fault) :
    Holds (.object members) fault := by
  obtain ⟨setting, hsetting, hcase⟩ := Choice.read_eq_error_iff.mp hread
  have hsetting := (hasSetting_iff hpolicies).mpr hsetting
  rcases hcase with ⟨hlong, rfl⟩ | ⟨hwritable, hother, rfl⟩
  · exact .unwritable hkey hsetting hlong
  · exact hfield ▸ .noOption hkey hsetting hwritable hother

theorem read_eq_ok_of_setting {α : Type} {read : Value → Except Misfit α} {default number : α}
    {key : String} {setting : Value}
    (hworker : sectionOf (lookUp? "worker" members) = .ok worker)
    (hread : workerNumber read default (lookUp? key worker) = .ok number)
    (hsetting : (Value.object members).HasSetting "worker" key setting) :
    read setting = .ok number := by
  rw [hasSetting_iff hworker] at hsetting
  rcases workerNumber_eq_ok_iff.mp hread with ⟨hnone, -⟩ | ⟨value, hvalue, hok⟩
  · rw [hsetting] at hnone
    cases hnone
  · rw [hsetting] at hvalue
    cases hvalue
    exact hok

end Members

/-- The settings of an object, each read without a fault, and the policy made of them. -/
structure Reads (members policies worker : Members) (count : Int) (policy : Policy) : Prop where
  read_policies : sectionOf (lookUp? "policies" members) = .ok policies
  read_worker : sectionOf (lookUp? "worker" members) = .ok worker
  read_ruleset : defaultRulesetOf (lookUp? "default_ruleset" members) = .ok policy.defaultRuleset
  read_count : workerNumber Value.toInteger 4 (lookUp? "max_workers" worker) = .ok count
  read_timeout : workerNumber Value.toReal (.ofInt 10) (lookUp? "timeout_s" worker) =
    .ok policy.timeout
  some_worker : ¬ count < 1
  some_time : ¬ policy.timeout.isNonpositive = true
  read_unknownRule : UnknownRulePolicy.choice.read .reject (lookUp? "unknown_rule" policies) =
    .ok policy.unknownRule
  read_malformed : MalformedPolicy.choice.read .strict (lookUp? "malformed_formula" policies) =
    .ok policy.malformed
  read_conjunctOrder : ConjunctOrder.choice.read .ordered (lookUp? "conjunction_order" policies) =
    .ok policy.conjunctOrder
  maxWorkers : policy.maxWorkers = count.toNat

namespace Reads

variable {members policies worker : Members} {count : Int} {policy : Policy}

theorem mem_names (hreads : Reads members policies worker count policy) {key : String}
    {names : List String} {setting : Value} (hkey : (key, names) ∈ optionNames)
    (hsetting : (Value.object members).HasSetting "policies" key setting) :
    setting.isWritable = true ∧
      Text.lowerString (Text.trimString setting.display) ∈ names := by
  rw [hasSetting_iff hreads.read_policies] at hsetting
  simp only [optionNames, List.mem_cons, List.not_mem_nil, or_false, Prod.mk.injEq] at hkey
  rcases hkey with ⟨rfl, rfl⟩ | ⟨rfl, rfl⟩ | ⟨rfl, rfl⟩
  · exact Choice.mem_names_of_read_eq_ok hreads.read_unknownRule hsetting
  · exact Choice.mem_names_of_read_eq_ok hreads.read_malformed hsetting
  · exact Choice.mem_names_of_read_eq_ok hreads.read_conjunctOrder hsetting

theorem not_holds (hreads : Reads members policies worker count policy) (fault : PolicyFault) :
    ¬ Holds (.object members) fault := by
  have hcount {number : Value}
      (hnumber : (Value.object members).HasSetting "worker" "max_workers" number) :
      number.toInteger = .ok count :=
    read_eq_ok_of_setting hreads.read_worker hreads.read_count hnumber
  have htimeout {number : Value}
      (hnumber : (Value.object members).HasSetting "worker" "timeout_s" number) :
      number.toReal = .ok policy.timeout :=
    read_eq_ok_of_setting hreads.read_worker hreads.read_timeout hnumber
  -- Each fault is at odds with what was read of its setting.
  intro hholds
  cases hholds with
  | root hnull hkind => exact hkind rfl
  | sectionKind hname hinner htruthy hkind =>
      have herror := sectionOf_eq_error_iff.mpr
        ⟨_, Value.hasMember_object.mp hinner, htruthy, hkind, rfl⟩
      simp only [List.mem_cons, List.not_mem_nil, or_false] at hname
      rcases hname with rfl | rfl
      · cases hreads.read_policies.symm.trans herror
      · cases hreads.read_worker.symm.trans herror
  | rulesetName hname hgiven hunknown =>
      have herror := defaultRulesetOf_eq_error_iff.mpr
        (Or.inl ⟨_, Value.hasMember_object.mp hname, hgiven, hunknown, rfl⟩)
      cases hreads.read_ruleset.symm.trans herror
  | rulesetForeign hname htruthy htextual =>
      have herror := defaultRulesetOf_eq_error_iff.mpr
        (Or.inr (Or.inl ⟨_, Value.hasMember_object.mp hname, htruthy, htextual, rfl⟩))
      cases hreads.read_ruleset.symm.trans herror
  | rulesetKind hname htruthy hkind hforeign =>
      have herror := defaultRulesetOf_eq_error_iff.mpr
        (Or.inr (Or.inr ⟨_, Value.hasMember_object.mp hname, htruthy, hkind, hforeign, rfl⟩))
      cases hreads.read_ruleset.symm.trans herror
  | workerText hnumber hread hplain => cases hread.symm.trans (hcount hnumber)
  | workerRange hnumber => cases hcount hnumber
  | tooFewWorkers hnumber hread hfew =>
      cases hread.symm.trans (hcount hnumber)
      exact hreads.some_worker hfew
  | timeText hnumber hread hplain => cases hread.symm.trans (htimeout hnumber)
  | timeRange hnumber hlarge =>
      have herror := Value.realOfInt_eq_error_iff.mpr ⟨hlarge, rfl⟩
      cases herror.symm.trans (htimeout hnumber)
  | noTime hnumber hread htime =>
      cases hread.symm.trans (htimeout hnumber)
      exact hreads.some_time htime
  | noOption hkey hsetting hwritable hother =>
      exact hother (hreads.mem_names hkey hsetting).2
  | unwritable hkey hsetting hlong =>
      have hwritable := (hreads.mem_names hkey hsetting).1
      rw [hlong] at hwritable
      cases hwritable

theorem isPositive_iff (hreads : Reads members policies worker count policy) :
    policy.timeout.isPositive = true ↔ ¬ HoldsNan (.object members) := by
  constructor
  · rintro hpositive ⟨number, hnumber, hnan⟩
    have htimeout := read_eq_ok_of_setting hreads.read_worker hreads.read_timeout hnumber
    rw [hnan, Except.ok.injEq] at htimeout
    rw [← htimeout] at hpositive
    cases hpositive
  · intro hnumber
    refine (Binary64.isPositive_or_eq_nan (Bool.eq_false_iff.mpr hreads.some_time)).resolve_right
      fun hnan => ?_
    rcases workerNumber_eq_ok_iff.mp hreads.read_timeout with ⟨-, hdefault⟩ | ⟨number, hsome, hread⟩
    · have hother : Binary64.ofInt 10 ≠ .nan := by decide
      exact hother (hdefault.trans hnan)
    · exact hnumber ⟨number, (hasSetting_iff hreads.read_worker).mpr hsome, hnan ▸ hread⟩

theorem suits (hreads : Reads members policies worker count policy) :
    Suits (.object members) policy where
  fits := hreads.not_holds
  known := policy.defaultRuleset.mem_all
  workers := by
    have hcount := hreads.some_worker
    have hworkers := hreads.maxWorkers
    omega
  time := hreads.isPositive_iff

end Reads

theorem settles_ofMembers (members : Members) :
    Settles (.object members) (ofMembers members) := by
  unfold ofMembers
  refine .bind (fun _ => holds_of_sectionOf (by simp)) fun policies hpolicies => ?_
  refine .bind (fun _ => holds_of_sectionOf (by simp)) fun worker hworker => ?_
  refine .bind (fun _ => holds_of_defaultRulesetOf) fun ruleset hruleset => ?_
  refine .bind (fun _ => holds_of_maxWorkers hworker) fun count hcount => ?_
  refine .bind (fun _ => holds_of_timeout hworker) fun timeout htimeout => ?_
  -- Both numbers are read before either is compared, and the choices come last.
  dsimp only
  split
  · rename_i hfew
    exact .fault (holds_tooFewWorkers hworker hcount hfew)
  rename_i hsomeWorker
  split
  · rename_i htime
    exact .fault (holds_noTime hworker htimeout htime)
  rename_i hsomeTime
  refine .bind (fun _ => holds_of_choice hpolicies (by decide) rfl) fun _ hunknownRule => ?_
  refine .bind (fun _ => holds_of_choice hpolicies (by decide) rfl) fun _ hmalformed => ?_
  refine .bind (fun _ => holds_of_choice hpolicies (by decide) rfl) fun _ hconjunctOrder => ?_
  refine .policy ?_
  exact Reads.suits ⟨hpolicies, hworker, hruleset, hcount, htimeout, hsomeWorker, hsomeTime,
    hunknownRule, hmalformed, hconjunctOrder, rfl⟩

theorem suits_default : Suits .null {} where
  fits := by
    intro fault hholds
    cases hholds <;> simp_all
  known := Ruleset.mem_all _
  workers := by decide
  time := by
    have hpositive : ({} : Policy).timeout.isPositive = true := by decide
    simp [hpositive, HoldsNan]

theorem settles_ofValue (value : Value) : Settles value (ofValue value) := by
  unfold ofValue
  split
  · exact .policy suits_default
  · exact settles_ofMembers _
  · rename_i hnull hobject
    refine .fault (.root (fun heq => hnull heq) fun hkind => ?_)
    obtain ⟨members, rfl⟩ := Value.kind_eq_object_iff.mp hkind
    exact hobject members rfl

theorem holds_of_ofValue {value : Value} {fault : PolicyFault}
    (hvalue : ofValue value = .error fault) : Holds value fault := by
  cases hvalue ▸ settles_ofValue value with
  | fault hholds => exact hholds

theorem suits_of_ofValue {value : Value} {policy : Policy} (hvalue : ofValue value = .ok policy) :
    Suits value policy := by
  cases hvalue ▸ settles_ofValue value with
  | policy hsuits => exact hsuits

end Policy

end Deduction
