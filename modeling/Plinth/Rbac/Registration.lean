import Plinth.Rbac.Validator

/-!
# What a registration changes

The rules and grants after the registration of a package, rule by rule: the rules that its
manifest declares belong to it and are in force, the others keep their row. A first install
adds its default grants for whatever rules the table then has; an upgrade adds none and
orphans the package's rules that the new manifest drops.
-/

namespace Plinth.Rbac

open Core Packages List

/-- The manifest in a file; a file without one declares nothing. -/
def manifestOf (file : JsonFile) : RbacManifest :=
  (parseRbacManifest "rbac.json" file).value.getD {}

def RbacManifest.declares (manifest : RbacManifest) (rule : String) : Prop :=
  ∃ r ∈ manifest.rules, r.rule = rule

instance (manifest : RbacManifest) (rule : String) : Decidable (manifest.declares rule) :=
  inferInstanceAs (Decidable (∃ r ∈ manifest.rules, r.rule = rule))

variable {packageName : String} {provides : List ProvidedSignature} {rules : RuleTable}
  {manifest : RbacManifest} {file : JsonFile}

/-- A manifest is registered only if no check finds an error. -/
theorem parseAndValidateRbac_ok
    (ok : parseAndValidateRbac file packageName provides rules = .ok manifest) :
    manifest = manifestOf file ∧
      firstError (validateRules manifest provides packageName rules) = none := by
  unfold parseAndValidateRbac at ok
  split at ok
  case h_1 =>
    cases ok
    exact ⟨rfl, rfl⟩
  case h_2 =>
    dsimp only at ok
    split at ok
    case h_1 => cases ok
    case h_2 =>
    split at ok
    case h_1 => cases ok
    case h_2 parsed isParsed =>
    split at ok <;> cases ok
    rename_i valid
    exact ⟨by simp [manifestOf, isParsed], valid⟩

def FreeFor (rules : RuleTable) (name rule : String) : Prop :=
  ∀ row, rules.find? rule = some row → row.extensionName = name

/-- Check A5 passes a rule that is free or belongs to the extension. -/
theorem freeFor_iff_checkRuleA5 {r : RbacRule} {idx : Nat} {name : String} :
    FreeFor rules name r.rule ↔ firstError (checkRuleA5 r idx name rules) = none := by
  cases found : rules.find? r.rule with
  | none => simp [FreeFor, checkRuleA5, firstError, found]
  | some row =>
    by_cases own : row.extensionName = name
    · simp [FreeFor, checkRuleA5, found, own, firstError]
    · simp [FreeFor, checkRuleA5, found, own, firstError, pushError]

section

variable (valid : firstError (validateRules manifest provides packageName rules) = none)
  {r : RbacRule}
include valid

theorem firstError_validateRules {idx : Nat} (indexed : (r, idx) ∈ manifest.rules.zipIdx) :
    firstError (checkStaticRule r idx provides packageName ++
      checkRuleA5 r idx packageName rules) = none := by
  rw [firstError, List.find?_eq_none] at valid ⊢
  intro message mem
  exact valid message (mem_flatMap.mpr ⟨(r, idx), indexed, mem⟩)

/-- Every declared rule of a valid manifest is free for the extension. -/
theorem owner_of_valid (declared : r ∈ manifest.rules) : FreeFor rules packageName r.rule := by
  rcases getElem_of_mem declared with ⟨idx, bound, isRule⟩
  have indexed : (r, idx) ∈ manifest.rules.zipIdx := by
    rw [mem_zipIdx_iff_getElem?, getElem?_eq_getElem bound, isRule]
  have clean := firstError_validateRules valid indexed
  rw [firstError, find?_append, Option.or_eq_none_iff] at clean
  exact freeFor_iff_checkRuleA5.mpr clean.2

end

def DefaultGrant.stored (grant : DefaultGrant) : GroupRule := .ofText grant.group grant.rule

def RbacRule.row (r : RbacRule) (extensionName : String) : RuleRow where
  rule := r.rule
  namespace_ := r.namespace_
  description := cString r.description
  extensionName := extensionName
  testContract := r.test

namespace RbacTables

@[simp]
theorem upsertRules_frame (tables : RbacTables) (extensionName : String) (rules : List RbacRule) :
    (tables.upsertRules extensionName rules).groups = tables.groups ∧
      (tables.upsertRules extensionName rules).members = tables.members ∧
      (tables.upsertRules extensionName rules).groupRules = tables.groupRules := by
  induction rules generalizing tables with
  | nil => exact ⟨rfl, rfl, rfl⟩
  | cons r rules ih => exact ih _

theorem upsertRules_rules (tables : RbacTables) (name : String) (rules : List RbacRule) :
    (tables.upsertRules name rules).rules =
      (rules.map (RbacRule.row · name)).foldl Table.upsert tables.rules := by
  induction rules generalizing tables with
  | nil => rfl
  | cons r rules ih => exact ih _

variable {rules : List RbacRule} {tables : RbacTables} {rule : String}
  {provides : List ProvidedSignature}

/-- Other rules stay as they were. -/
theorem find?_upsertRules_of_not_declared (tables : RbacTables) (extensionName : String)
    (other : ∀ r ∈ rules, r.rule ≠ rule) :
    (tables.upsertRules extensionName rules).rules.find? rule = tables.rules.find? rule := by
  rw [upsertRules_rules]
  exact Table.find?_foldl_upsert_of_not_mem _ (forall_mem_map.mpr other)

/-- A declared rule belongs to the extension afterwards. -/
theorem find?_upsertRules_of_declared (tables : RbacTables) (extensionName : String)
    (declared : ∃ r ∈ rules, r.rule = rule) :
    ∃ row, (tables.upsertRules extensionName rules).rules.find? rule = some row ∧
      row.extensionName = extensionName ∧ row.orphaned = false := by
  have written : ∃ row ∈ rules.map (RbacRule.row · extensionName), row.rule = rule := by
    simpa [RbacRule.row] using declared
  rcases tables.rules.find?_foldl_upsert_of_mem written with ⟨row, mem, found⟩
  rcases mem_map.mp mem with ⟨r, -, rfl⟩
  exact ⟨_, (congrArg (Table.find? · rule) (upsertRules_rules ..)).trans found, rfl, rfl⟩

@[simp]
theorem insertGroupRule_frame (tables : RbacTables) (group rule : String) :
    (tables.insertGroupRule group rule).rules = tables.rules ∧
      (tables.insertGroupRule group rule).groups = tables.groups ∧
      (tables.insertGroupRule group rule).members = tables.members := by
  simp only [insertGroupRule]
  split <;> exact ⟨rfl, rfl, rfl⟩

/-- A grant is stored, cut at the first NUL, if its group and its rule exist. -/
theorem mem_insertGroupRule {group : String} {grant : GroupRule} :
    grant ∈ (tables.insertGroupRule group rule).groupRules ↔ grant ∈ tables.groupRules ∨
      (grant = .ofText group rule ∧ grant.group ∈ tables.groups ∧
        (tables.rules.find? grant.rule).isSome) := by
  simp only [insertGroupRule]
  split
  case isTrue inserted =>
    simp only [Bool.and_eq_true, contains_eq_mem, decide_eq_true_eq] at inserted
    rw [mem_append, mem_singleton]
    exact or_congr_right ⟨fun isNew => ⟨isNew, isNew ▸ inserted.1⟩, And.left⟩
  case isFalse skipped =>
    simp only [Bool.and_eq_true, contains_eq_mem, decide_eq_true_eq, Bool.not_eq_true',
      decide_eq_false_iff_not] at skipped
    constructor
    · exact .inl
    · rintro (mem | ⟨rfl, exists_, found⟩)
      · exact mem
      · by_contra absent
        exact skipped ⟨⟨exists_, found⟩, absent⟩

@[simp]
theorem insertDefaultGrants_frame (tables : RbacTables) (grants : List DefaultGrant) :
    (tables.insertDefaultGrants grants).rules = tables.rules ∧
      (tables.insertDefaultGrants grants).groups = tables.groups ∧
      (tables.insertDefaultGrants grants).members = tables.members := by
  induction grants generalizing tables with
  | nil => exact ⟨rfl, rfl, rfl⟩
  | cons grant grants ih =>
    have first := tables.insertGroupRule_frame grant.group grant.rule
    rw [← first.1, ← first.2.1, ← first.2.2]
    exact ih _

/-- The grants after the defaults of a manifest were inserted. -/
theorem mem_insertDefaultGrants {grants : List DefaultGrant} {grant : GroupRule} :
    grant ∈ (tables.insertDefaultGrants grants).groupRules ↔ grant ∈ tables.groupRules ∨
      (grant ∈ grants.map DefaultGrant.stored ∧ grant.group ∈ tables.groups ∧
        (tables.rules.find? grant.rule).isSome) := by
  induction grants generalizing tables with
  | nil => simp [insertDefaultGrants]
  | cons first grants ih =>
    have step : grant ∈ (tables.insertDefaultGrants (first :: grants)).groupRules ↔
        grant ∈ ((tables.insertGroupRule first.group first.rule).insertDefaultGrants
          grants).groupRules := Iff.rfl
    rw [step, ih, mem_insertGroupRule]
    simp only [insertGroupRule_frame, map_cons, mem_cons]
    rw [or_assoc, or_and_right]
    rfl

/-- Orphaning marks rows and removes none. -/
theorem find?_setOrphaned (tables : RbacTables) (orphaned : Bool) (affects : RuleRow → Bool)
    (rule : String) :
    (tables.setOrphaned orphaned affects).rules.find? rule =
      (tables.rules.find? rule).map fun row =>
        if affects row then { row with orphaned } else row :=
  tables.rules.find?_update (fun row => by split <;> rfl) rule

def orphanRules (tables : RbacTables) (extensionName : String) (rules : List String) : RbacTables :=
  rules.foldl (fun tables rule => tables.orphanRule extensionName rule) tables

@[simp]
theorem orphanRules_frame (tables : RbacTables) (extensionName : String) (rules : List String) :
    (tables.orphanRules extensionName rules).groups = tables.groups ∧
      (tables.orphanRules extensionName rules).members = tables.members ∧
      (tables.orphanRules extensionName rules).groupRules = tables.groupRules := by
  induction rules generalizing tables with
  | nil => exact ⟨rfl, rfl, rfl⟩
  | cons rule rules ih => exact ih _

theorem find?_orphanRules (tables : RbacTables) (extensionName : String) (rules : List String)
    (rule : String) :
    (tables.orphanRules extensionName rules).rules.find? rule =
      (tables.rules.find? rule).map fun row =>
        if row.extensionName = extensionName ∧ rule ∈ rules then { row with orphaned := true }
        else row := by
  induction rules generalizing tables with
  | nil => simp [orphanRules]
  | cons first rules ih =>
    refine (ih (tables.orphanRule extensionName first)).trans ?_
    rw [orphanRule, find?_setOrphaned, Option.map_map]
    apply Option.map_congr
    intro row found
    have isRule : row.rule = rule := (Table.find?_eq_some.mp found).2
    subst isRule
    by_cases own : row.extensionName = extensionName
    · by_cases isFirst : row.rule = first
      · by_cases later : first ∈ rules <;> simp [own, isFirst, later]
      · simp [own, isFirst]
    · simp [own]

def Admits (tables : RbacTables) (name : String) (manifest : RbacManifest) : Prop :=
  ∀ rule, manifest.declares rule → ∀ owner, tables.owner? rule = some owner → owner = name

/-- A validated manifest may be registered. -/
theorem admits_of_valid {name : String} {manifest : RbacManifest}
    (ok : parseAndValidateRbac file name provides tables.rules = .ok manifest) :
    manifest = manifestOf file ∧ tables.Admits name (manifestOf file) := by
  rcases parseAndValidateRbac_ok ok with ⟨rfl, valid⟩
  refine ⟨rfl, ?_⟩
  rintro rule ⟨r, declared, rfl⟩ owner owned
  rcases Option.map_eq_some_iff.mp owned with ⟨row, found, rfl⟩
  exact owner_of_valid valid declared row found

/-- What a first registration writes. -/
theorem registerExtensionRbacRules_ok {after : RbacTables} {name : String}
    (ok : tables.registerExtensionRbacRules file name provides = .ok after) :
    tables.Admits name (manifestOf file) ∧
      after = (tables.upsertRules name (manifestOf file).rules).insertDefaultGrants
        (manifestOf file).defaultGrants := by
  unfold registerExtensionRbacRules at ok
  split at ok
  case h_1 => cases ok
  case h_2 manifest valid =>
    rcases admits_of_valid valid with ⟨rfl, own⟩
    exact ⟨own, (Except.ok.inj ok).symm⟩

/-- What the registration of an upgrade writes. -/
theorem registerUpgradeRbacRules_ok {after : RbacTables} {name : String}
    (ok : tables.registerUpgradeRbacRules file name provides = .ok after) :
    tables.Admits name (manifestOf file) ∧
      after = tables.reconcileRbacOnUpgrade name (manifestOf file).rules := by
  unfold registerUpgradeRbacRules at ok
  split at ok
  case h_1 => cases ok
  case h_2 manifest valid =>
    rcases admits_of_valid valid with ⟨rfl, own⟩
    exact ⟨own, (Except.ok.inj ok).symm⟩

@[simp]
theorem reconcileRbacOnUpgrade_frame (tables : RbacTables) (extensionName : String)
    (rules : List RbacRule) :
    (tables.reconcileRbacOnUpgrade extensionName rules).groups = tables.groups ∧
      (tables.reconcileRbacOnUpgrade extensionName rules).members = tables.members ∧
      (tables.reconcileRbacOnUpgrade extensionName rules).groupRules = tables.groupRules := by
  rcases tables.upsertRules_frame extensionName rules with ⟨groups, members, groupRules⟩
  rw [← groups, ← members, ← groupRules]
  exact orphanRules_frame ..

theorem find?_reconcileRbacOnUpgrade_of_declared (tables : RbacTables) (extensionName : String)
    (declared : ∃ r ∈ rules, r.rule = rule) :
    ∃ row, (tables.reconcileRbacOnUpgrade extensionName rules).rules.find? rule = some row ∧
      row.extensionName = extensionName ∧ row.orphaned = false := by
  rcases tables.find?_upsertRules_of_declared extensionName declared with
    ⟨row, found, owned, inForce⟩
  refine ⟨row, ?_, owned, inForce⟩
  refine (find?_orphanRules _ extensionName _ rule).trans ?_
  rcases declared with ⟨r, mem, rfl⟩
  rw [found, Option.map_some, if_neg]
  rintro ⟨-, dropped⟩
  have kept := (List.mem_filter.mp dropped).2
  simp only [Bool.not_eq_true', any_eq_false, beq_iff_eq] at kept
  exact kept r mem rfl

/-- A rule that the upgrade drops is orphaned. -/
theorem find?_reconcileRbacOnUpgrade_of_not_declared (tables : RbacTables)
    (extensionName : String) (other : ∀ r ∈ rules, r.rule ≠ rule) :
    (tables.reconcileRbacOnUpgrade extensionName rules).rules.find? rule =
      (tables.rules.find? rule).map fun row =>
        if row.extensionName = extensionName then { row with orphaned := true } else row := by
  refine (find?_orphanRules _ extensionName _ rule).trans ?_
  rw [find?_upsertRules_of_not_declared tables extensionName other]
  apply Option.map_congr
  intro row found
  rcases Table.find?_eq_some.mp found with ⟨mem, rfl⟩
  by_cases own : row.extensionName = extensionName
  · have dropped : (rules.any fun r => r.rule == row.rule) = false := by simpa using other
    have isOld : row ∈ tables.rules.rows.filter fun row => row.extensionName == extensionName :=
      List.mem_filter.mpr ⟨mem, by simp [own]⟩
    rw [if_pos own, if_pos ⟨own, List.mem_filter.mpr ⟨mem_map_of_mem isOld, by
      simp [dropped]⟩⟩]
  · simp [own]

end RbacTables

end Plinth.Rbac
