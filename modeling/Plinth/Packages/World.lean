import Plinth.Core.Ensures
import Plinth.Packages.Database

/-!
# The state of an installation and its atomic steps

The database, the tree below `extensions/` and the state of the running kernel, with every
step of the package lifecycle that takes effect as a whole: a committed transaction, a file
operation, or a change of a table in memory. The lifecycle procedures are built from these
commands; a crash can fall between any two of them. The fence of the capability ingress, which
`begin_drain` raises for a name and `end_drain` takes down, is not part of this state: it has its
own model in `Capabilities.Drain`, and only whether a drain has timed out is an answer here.
-/

namespace Plinth.Packages

open Core Function

/-- The directory `extensions/`: the version directories of each package, its link `active`
and the link `active.tmp` that an upgrade renames. -/
structure Files where
  trees : String → String → Option (List StagedFile)
  active : String → Option String
  activeTmp : String → Option String

namespace Files

variable (files : Files) (name version : String)

def setTree (tree : Option (List StagedFile)) : Files :=
  { files with
    trees := update files.trees name (update (files.trees name) version tree) }

def hasFile (path : String) : Bool :=
  (files.trees name version).any fun tree => tree.any fun file => file.path = path

def hasServerRoot : Bool :=
  (files.active name).any fun version =>
    (files.trees name version).any fun tree =>
      tree.any fun file => file.path = "server" || "server/".toList.isPrefixOf file.path.toList

def copyFile (file : StagedFile) : Except String Files :=
  match files.trees name version with
  | none => .error "No such file or directory"
  | some tree =>
    if tree.any fun old => old.path = file.path then .error "File exists"
    else .ok (files.setTree name version (some (tree ++ [file])))

def createSymlink (links : String → Option String) (name target : String) :
    Except String (String → Option String) :=
  if (links name).isSome then .error "File exists"
  else .ok (update links name (some target))

/-- `rename` of `active.tmp` over `active`. -/
def renameLink : Except String Files :=
  match files.activeTmp name with
  | none => .error "No such file or directory"
  | some target =>
    .ok { files with
      active := update files.active name (some target)
      activeTmp := update files.activeTmp name none }

/-- `remove_all` of a package's directory. -/
def removeExtension : Files where
  trees := update files.trees name fun _ => none
  active := update files.active name none
  activeTmp := update files.activeTmp name none

end Files

structure PoolIdentity where
  packageId : String
  version : String
  deriving DecidableEq

structure Memory where
  routes : List (String × String)
  pools : String → Option PoolIdentity

def Memory.empty : Memory := ⟨[], fun _ => none⟩

structure World where
  db : Database
  files : Files
  memory : Memory

def World.fresh : World where
  db :=
    { packages := .empty
      rbac := .bootstrapGroups
      capabilities := Table.empty
      panels := []
      namespaces := fun _ => none
      folded := fun _ => Bool.noConfusion
      credentials := []
      migrations := [] }
  files := ⟨fun _ _ => none, fun _ => none, fun _ => none⟩
  memory := .empty

inductive FileOperation where
  | createTree (name version : String)
  | copyFile (name version : String) (file : StagedFile)
  | removeTree (name version : String)
  | removeActive (name : String)
  | linkActive (name version : String)
  | removeStagedLink (name : String)
  | stageLink (name version : String)
  | renameLink (name : String)
  | removeExtension (name : String)

def Files.perform (files : Files) : FileOperation → Except String Files
  | .createTree name version =>
    .ok (files.setTree name version (some ((files.trees name version).getD [])))
  | .copyFile name version file => files.copyFile name version file
  | .removeTree name version => .ok (files.setTree name version none)
  | .removeActive name => .ok { files with active := update files.active name none }
  | .linkActive name version => do
      return { files with active := ← Files.createSymlink files.active name version }
  | .removeStagedLink name =>
    .ok { files with activeTmp := update files.activeTmp name none }
  | .stageLink name version => do
      return { files with activeTmp := ← Files.createSymlink files.activeTmp name version }
  | .renameLink name => files.renameLink name
  | .removeExtension name => .ok (files.removeExtension name)

inductive KernelOperation where
  | registerRoutes (name version : String)
  | unregisterRoutes (name version : String)
  | createPool (name id version : String)
  | destroyPool (name : String)

/-- `create_pool` needs the directory `active/server`. -/
def World.operate (world : World) : KernelOperation → Except String Memory
  | .registerRoutes name version =>
    .ok { world.memory with
      routes := (name, version) :: world.memory.routes.filter (· != (name, version)) }
  | .unregisterRoutes name version =>
    .ok { world.memory with routes := world.memory.routes.filter (· != (name, version)) }
  | .createPool name id version =>
    if world.files.hasServerRoot name then
      .ok { world.memory with
        pools := update world.memory.pools name (some ⟨id, version⟩) }
    else .error "runtime pool creation failed"
  | .destroyPool name =>
    .ok { world.memory with pools := update world.memory.pools name none }

inductive Command where
  | commit (transaction : Transaction)
  | file (operation : FileOperation)
  | kernel (operation : KernelOperation)

def World.apply (command : Command) (world : World) : Except String World :=
  match command with
  | .commit transaction => do return { world with db := ← world.db.commit transaction }
  | .file operation => do return { world with files := ← world.files.perform operation }
  | .kernel operation => do return { world with memory := ← world.operate operation }

end Plinth.Packages
