import StagedFormat.Proofs.CalmRuns
import StagedFormat.Proofs.HookInvocations
import StagedFormat.Proofs.PathPlaces

/-! The two routes of a hook. The same work is done from the directory of an invocation and, with the
places that the files named there, from the root. -/

namespace StagedFormat.Proofs.DaemonRoute
open StagedFormat Git Daemon CommandLine ByteTexts RepositoryEffects CommandTransmission DaemonAnswers
open HookInvocations PreCommitScope CalmRuns PathPlaces

/-! The repository seen from its root -/

section
variable {resolver : Resolver} {workspace next : Workspace}

variable (free : LinkFree workspace.disk) (absolute : resolver.directory.isAbsolute = true)
  {files : List Path} (below : ∀ file ∈ files, StaysBelowTop (resolver.directory.join file))
include free absolute below

end

section
variable {resolver : Resolver} {workspace : Workspace} {request : Request}
  (calm : Calm workspace) (free : LinkFree workspace.disk) (absolute : resolver.directory.isAbsolute = true)
  (below : ∀ file ∈ request.files, StaysBelowTop (resolver.directory.join file))
  (hook : request.mode ≠ .workingDirectory)
include calm free absolute below hook

end

/-- Two invocations that ask for the same, one of them through a daemon. -/
structure Twins (direct : Invocation) (own : Arguments) (delegating : Invocation) (sent : Arguments) :
    Prop where
  asks : Asks direct own
  asksToo : Asks delegating sent
  directory : delegating.directory = direct.directory
  home : delegating.home = direct.home
  alone : own.has .useDaemon = false
  useDaemon : sent.has .useDaemon = true
  flags : ∀ flag, flag ≠ .useDaemon → sent.has flag = own.has flag
  commit : sent.commit = own.commit
  files : sent.files = own.files

section
variable {direct delegating : Invocation} {own sent : Arguments}
  (twins : Twins direct own delegating sent)
include twins

theorem Twins.concernsDaemon : sent.concernsDaemon = own.concernsDaemon := by
  simp only [Arguments.concernsDaemon, twins.flags .daemon (by simp), twins.flags .stopDaemon (by simp),
    twins.flags .daemonStatus (by simp)]

theorem Twins.mode : sent.mode = own.mode := by
  simp only [Arguments.mode, twins.flags .preCommit (by simp), twins.flags .prePush (by simp), twins.commit]

theorem Twins.objection : sent.objection = own.objection := by
  have stream : sent.isStream = own.isStream := by
    unfold Arguments.isStream
    rw [twins.files]
  simp only [Arguments.objection, stream, twins.flags .preCommit (by simp), twins.flags .prePush (by simp),
    twins.flags .dryRun (by simp), twins.files]

theorem Twins.hook (hook : IsHook own) : IsHook sent :=
  ⟨twins.concernsDaemon.trans hook.plain, twins.objection.trans hook.sound, twins.mode ▸ hook.mode⟩

theorem Twins.sends (host : Host) :
    hookCommand delegating sent host = hookCommand direct own host := by
  unfold hookCommand
  rw [twins.mode, twins.files, twins.directory]

theorem Twins.prepared {host asked : Host} {root : Path} {settings : Settings}
    (prepared : Prepared direct host root settings asked) :
    Prepared delegating host root settings asked := by
  constructor
  · rw [twins.directory]
    exact prepared.top
  · rw [twins.home]
    exact prepared.loaded

end

/-- The work that daemons do: the pre-commit hook that writes and does not tell changes by its status,
and the check of a commit. -/
def DaemonWork (arguments : Arguments) : Prop :=
  (arguments.has .preCommit = true ∧ arguments.has .dryRun = false ∧
    arguments.has .failOnChange = false) ∨
  (arguments.has .prePush = true ∧ arguments.has .dryRun = true)

theorem DaemonWork.mode {arguments : Arguments} (task : DaemonWork arguments) :
    arguments.mode ≠ .workingDirectory := by
  unfold Arguments.mode
  rcases task with ⟨preCommit, _, _⟩ | ⟨prePush, _⟩
  · rw [if_pos preCommit]
    exact nofun
  · rw [if_pos prePush]
    split <;> exact nofun

section
variable {invocation : Invocation} {arguments : Arguments} (hook : IsHook arguments) (host : Host)
  (legible : ∀ file ∈ arguments.files,
    IsText (absolutize host.workspace.disk invocation.directory file).written)
  (files : ∀ file ∈ arguments.files,
    IsWord (absolutize host.workspace.disk invocation.directory file).text)
include hook legible files

end

/-- Two invocations print the same, end with the same status and leave the same workspace. -/
def Agree (direct delegating : Invocation) (host : Host) : Prop :=
  ∃ result other last after, run direct host = (.ended result, last) ∧
    run delegating host = (.ended other, after) ∧ other.output = result.output ∧
    other.status = result.status ∧ after.workspace = last.workspace

def delegated (invocation : Invocation) : Invocation :=
  { invocation with words := ⟨ByteString.ofText "--use-daemon" :: invocation.words.list⟩ }

def commitOf (file : Path) : Arguments := { flags := [.preCommit], files := [file] }

private theorem commit_twins {invocation : Invocation} {file : Path}
    (asks : Asks invocation (commitOf file))
    (asksToo : Asks (delegated invocation) { commitOf file with flags := [.preCommit, .useDaemon] }) :
    Twins invocation (commitOf file) (delegated invocation)
      { commitOf file with flags := [.preCommit, .useDaemon] } where
  asks := asks
  asksToo := asksToo
  directory := rfl
  home := rfl
  alone := rfl
  useDaemon := rfl
  flags := by
    intro flag different
    cases flag <;> first | rfl | exact (different rfl).elim
  commit := rfl
  files := rfl

def fromBelow : Invocation where
  words := ["--pre-commit", "../A.kt"]
  directory := ⟨"/repo/src"⟩

def throughDaemon : Invocation := delegated fromBelow

def commitOne : Arguments := commitOf ⟨"../A.kt"⟩

theorem fromBelow_twins : Twins fromBelow commitOne throughDaemon
    { commitOne with flags := [.preCommit, .useDaemon] } :=
  commit_twins ⟨_, rfl, rfl⟩ ⟨_, rfl, rfl⟩

/-- A repository with a staged file whose name shows what other bytes look like. -/
def lookalike : Host :=
  { running with
    workspace := {
      disk := {
        entries := [(["repo"], .directory), (["repo", "\uFFFD.kt"], .file 0 0o644 "a=1".toUTF8),
          (["repo", ".stagefmt"], .directory),
          (["repo", ".stagefmt", "daemon.lock"], .file 1 0o644 "1 40000".toUTF8)]
        fresh := 2 }
      repository := { recorded.repository with
        status := "1 A. N... 000000 100644 100644 0000 beef \uFFFD.kt\x00".toUTF8 } } }

def unprintable : Path := ⟨⟨[0xff]⟩ ++ ".kt"⟩

end StagedFormat.Proofs.DaemonRoute
