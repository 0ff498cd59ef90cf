import Plinth.Core.Json
import Plinth.Core.Table

/-!
# Rules, grants and effective rules

The tables `plinth.rbac_rules`, `plinth.groups`, `plinth.group_members` and
`plinth.group_rules`, the statements of `rbac/rule_registrar.cpp` on them, the effective rules
of a user as `rbac/enforcement.cpp` selects them, and the rows that `groups/handlers.cpp` seeds.

Rule names are unique and a rule row cannot be deleted while a grant refers to it, so a grant
is recorded under the name of its rule.
-/

namespace Plinth.Rbac

open Core

structure RuleRow where
  rule : String
  namespace_ : String
  description : String
  extensionName : String
  testContract : Option Json := none
  orphaned : Bool := false

abbrev RuleTable := Table RuleRow String RuleRow.rule

structure GroupRule where
  group : String
  rule : String
  deriving DecidableEq

/-- A grant by names that libpq takes as C strings. -/
def GroupRule.ofText (group rule : String) : GroupRule := ⟨cString group, cString rule⟩

structure GroupMember where
  group : String
  user : String
  deriving DecidableEq

structure RbacTables where
  rules : RuleTable
  groups : List String
  members : List GroupMember
  groupRules : List GroupRule

namespace RbacTables

variable (tables : RbacTables) (extensionName rule user : String)

/-- `upsert_extension_rule`: the row is inserted, or overwritten with its owner. Of the texts that
libpq takes as C strings only the description can hold a NUL. -/
def upsertExtensionRule (namespace_ description extensionName : String)
    (testContract : Option Json) : RbacTables :=
  { tables with
    rules := tables.rules.upsert
      ⟨rule, namespace_, cString description, extensionName, testContract, false⟩ }

def setOrphaned (orphaned : Bool) (affects : RuleRow → Bool) : RbacTables :=
  { tables with
    rules := tables.rules.update
      (fun row => if affects row then { row with orphaned } else row)
      fun row => by split <;> rfl }

def markExtensionRulesOrphaned : RbacTables :=
  tables.setOrphaned true fun row => row.extensionName == extensionName

def clearExtensionRulesOrphaned : RbacTables :=
  tables.setOrphaned false fun row => row.extensionName == extensionName

def orphanRule : RbacTables :=
  tables.setOrphaned true fun row => row.extensionName == extensionName && row.rule == rule

/-- `DELETE FROM plinth.group_rules` for the rules of an extension. -/
def deleteGrantsOf : RbacTables :=
  { tables with
    groupRules := tables.groupRules.filter fun grant =>
      !(tables.rules.find? grant.rule).any fun row => row.extensionName == extensionName }

def deleteExtensionRules : RbacTables :=
  { tables with rules := tables.rules.filter fun row => row.extensionName != extensionName }

/-- `INSERT … SELECT … ON CONFLICT DO NOTHING` of one default grant. -/
def insertGroupRule (group rule : String) : RbacTables :=
  let grant := GroupRule.ofText group rule
  if tables.groups.contains grant.group && (tables.rules.find? grant.rule).isSome &&
      !tables.groupRules.contains grant then
    { tables with groupRules := tables.groupRules ++ [grant] }
  else tables

/-- The groups whose grants a user has: their own, and `everyone`. -/
@[simp]
def inGroup (group : String) : Bool :=
  tables.members.contains { group, user } || group == "everyone"

def granted (rule : String) : Bool :=
  tables.groupRules.any fun grant => grant.rule == rule && tables.inGroup user grant.group

def inForce : Bool :=
  (tables.rules.find? rule).any fun row => !row.orphaned

def effective (rule : String) : Bool :=
  tables.inForce rule && tables.granted user rule

def owner? : Option String :=
  (tables.rules.find? rule).map RuleRow.extensionName

/-- The tables that `bootstrap_groups` leaves in a new database. -/
def bootstrapGroups : RbacTables where
  rules :=
    ⟨[⟨"kernel.admin", "kernel", "Full administrative access", "kernel", none, false⟩,
      ⟨"kernel.realtime.subscribe.applications.changed", "kernel",
        "Subscribe to application catalog invalidations", "kernel", none, false⟩,
      ⟨"packages.install", "kernel", "Upload and install extension packages", "kernel", none,
        false⟩,
      ⟨"packages.read", "kernel", "Read installed-package metadata", "kernel", none, false⟩,
      ⟨"packages.install.with_http_prefixes", "kernel", "Install extension HTTP claims",
        "kernel", none, false⟩, ⟨"packages.install.with_unauthenticated_prefixes", "kernel",
        "Install public extension HTTP claims", "kernel", none, false⟩], by decide⟩
  groups := ["admin", "everyone"]
  members := []
  groupRules :=
    [⟨"admin", "kernel.admin"⟩, ⟨"everyone", "kernel.realtime.subscribe.applications.changed"⟩,
      ⟨"admin", "packages.install"⟩, ⟨"admin", "packages.read"⟩]

end RbacTables

end Plinth.Rbac
