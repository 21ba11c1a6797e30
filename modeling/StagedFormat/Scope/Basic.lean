import StagedFormat.Disk.Walk
import StagedFormat.Listing.Tree
import StagedFormat.Scope.Filter
import StagedFormat.Settings.Basic
import StagedFormat.Target.Basic

/-! Scopes: which targets a command works on, in each of its modes. -/

namespace StagedFormat

/-- The targets of one command, and whether they are only checked. -/
structure Scope where
  targets : List Target
  dryRun : Bool
  deriving DecidableEq, Repr

inductive ScopeError where
  | git (error : Git.GitError)
  | listing (error : Listing.ListingError)
  deriving DecidableEq, Repr

def ScopeError.message : ScopeError → String
  | .git error => error.message
  | .listing error => error.message

/-- What scopes are resolved with: the settings, and the directory that arguments are relative to. -/
structure Resolver where
  settings : Settings
  directory : Path

namespace Scope

/-- Ascending paths, each place once. -/
def distinct : List Path → List Path
  | [] => []
  | path :: rest =>
    match distinct rest with
    | [] => [path]
    | next :: others => if path.same next then path :: others else path :: next :: others

def sortedPaths (paths : List Path) : List Path :=
  distinct (paths.mergeSort fun a b => a.order b != .gt)

end Scope

namespace Resolver

def insideBuildOutput (resolver : Resolver) (disk : Disk) (path : Path) : Bool :=
  path.ancestors.any (resolver.settings.isBuildOutput disk)

/-- The source files that one argument stands for. One that does not exist stands for none. -/
def filesOf (resolver : Resolver) (disk : Disk) (argument : Path) : List Path :=
  let path := (resolver.directory.join argument).normalize
  if !disk.pathExists path || resolver.insideBuildOutput disk path then []
  else
    let found :=
      if disk.isFile path then [path]
      else disk.filesBelow (resolver.settings.isBuildOutput disk) path
    found.filter resolver.settings.isSourceFile

/-- Every source file that an argument reaches, build output left out. -/
def workingDirectory (resolver : Resolver) (disk : Disk) (arguments : List Path) (dryRun : Bool) :
    Scope :=
  let files := Scope.sortedPaths (arguments.flatMap (resolver.filesOf disk))
  { targets := files.map fun path => .file { path, root := some resolver.directory }, dryRun }

/-- Whether a path relative to the root is a source file that the arguments choose. -/
def selects (resolver : Resolver) (filters : List Path) (path : Path) : Bool :=
  resolver.settings.isSourceFile path && Scope.passes filters path

/-- The target of a staged change: with its working file if that holds the same content. -/
def stagedTarget (root : Path) (change : Listing.Change) : Target :=
  let blob : IndexBlob := { root, path := change.path, mode := change.mode, hash := change.hash }
  if change.isClean then .pair blob { path := root.join change.path, root := some root }
  else .blob blob

/-- The root of the repository and the answer to a command there. A new staging area starts with a
free lock. -/
def consult (resolver : Resolver) (workspace : Workspace) (command : Git.Command) :
    Except ScopeError (Path × ByteArray) × Workspace :=
  match workspace.gitText resolver.directory .showToplevel with
  | (.error error, next) => (.error (.git error), next)
  | (.ok root, next) =>
    match next.git ⟨root⟩ command with
    | (.error error, next) => (.error (.git error), next)
    | (.ok listing, next) => (.ok (⟨root⟩, listing), { next with poisoned := false })

/-- The scope that follows from the answer to a command: from the root, the places there that the arguments choose,
and the listing. -/
def survey (resolver : Resolver) (workspace : Workspace) (command : Git.Command) (arguments : List Path)
    (scope : Path → List Path → ByteArray → Except ScopeError Scope) : Except ScopeError Scope × Workspace :=
  let (answer, next) := resolver.consult workspace command
  (answer.bind fun (root, listing) =>
    scope root (Scope.filters next.disk root resolver.directory arguments) listing, next)

/-- The staged source files that pass. -/
def stagedScope (resolver : Resolver) (dryRun : Bool) (root : Path) (filters : List Path) (listing : ByteArray) :
    Except ScopeError Scope := do
  let changes ← (Listing.Change.ofListing listing).mapError .listing
  let chosen := changes.filter fun change => change.isStagedContent && resolver.selects filters change.path
  return { targets := chosen.map (stagedTarget root), dryRun }

/-- The source files of a commit that pass; they are never written. -/
def committedScope (resolver : Resolver) (root : Path) (filters : List Path) (listing : ByteArray) :
    Except ScopeError Scope := do
  let entries ← (Listing.TreeEntry.ofListing listing).mapError .listing
  let chosen := entries.filter fun entry => entry.isBlob && resolver.selects filters entry.path
  return {
    targets := chosen.map fun entry =>
      .blob { root, path := entry.path, mode := entry.mode, hash := entry.hash }
    dryRun := true }

def preCommit (resolver : Resolver) (workspace : Workspace) (arguments : List Path) (dryRun : Bool) :
    Except ScopeError Scope × Workspace :=
  resolver.survey workspace .status arguments (resolver.stagedScope dryRun)

def prePush (resolver : Resolver) (workspace : Workspace) (arguments : List Path) (commit : String) :
    Except ScopeError Scope × Workspace :=
  resolver.survey workspace (.listTree commit) arguments resolver.committedScope

end Resolver

end StagedFormat
