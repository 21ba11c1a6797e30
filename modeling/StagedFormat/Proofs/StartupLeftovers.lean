import StagedFormat.Proofs.DaemonExclusion
import StagedFormat.Proofs.DiskSkeleton

/-! A daemon that starts where another one left a lock file that nobody has locked any more. Whatever text is
in the file, the start ends with a file that has the new record. -/

namespace StagedFormat.Proofs.StartupLeftovers
open StagedFormat Disk Daemon ByteTexts PathSegments DiskFollowing DiskReplacement DiskGrowth DiskSkeleton LockExclusion
  DaemonExclusion

def above (lock : Path) : Path := (lock.parent?).getD ⟨""⟩

/-- The lock file can be opened, or created once there is a directory for it, and nobody has it locked. -/
def Available (lock : Path) (space : LockSpace) : Prop :=
  ∃ made file next, space.disk.makeDirectories (above lock) = .ok made ∧
    made.openOrCreate lock = .ok (file, next) ∧ file ∉ space.held

/-- What is at the path of a lock file that nobody has locked: nothing, or a file with these bytes. -/
inductive Leftover (lock : Path) (space : LockSpace) : Option ByteArray → Prop where
  /-- The directory is there or can be made, and it has a place for the file. -/
  | absent {made location} : space.disk.inspect lock = .error .notFound →
      space.disk.makeDirectories (above lock) = .ok made → made.find true lock = .ok ⟨location, none⟩ →
      Leftover lock space none
  | left {location id mode content} :
      (∀ follow, space.disk.find follow lock = .ok ⟨location, some (.file id mode content)⟩) →
      space.disk.inspect (above lock) = .ok .directory → id ∉ space.held → Leftover lock space (some content)

/-- What daemons of other repositories do while one of an older version is asked to exit, or is given time
to, takes neither the place of the lock file nor the lock. -/
structure Bystanders (lock : Path) (host : Host) : Prop where
  asked : ∀ port, Available lock host.space →
    Available lock (((host.deliver port (Client.request .exit)).2).advance handoffWait).space
  waits : ∀ disk, Available lock ⟨disk, host.held⟩ →
    Available lock ((Host.surroundings.setDisk host disk).advance handoffWait).space

private theorem bystanders_none {host : Host} (none : host.servers = []) (lock : Path) : Bystanders lock host := by
  have idle (other : Host) (alone : other.servers = []) : (other.advance handoffWait).space = other.space := by
    simp only [Host.advance, Host.eachServer, alone, List.foldl_nil]
    rfl
  constructor
  case asked =>
    intro port available
    have unheard : (host.deliver port (Client.request .exit)).2 = host := by
      simp only [Host.deliver, Host.server?, none, List.find?_nil]
    rwa [unheard, idle host none]
  case waits =>
    intro disk available
    rwa [idle (Host.surroundings.setDisk host disk) none]

section
variable {lock : Path} {space : LockSpace}

private theorem run_acquired (steps : Nat) (file : FileId) :
    Lock.Attempt.run lock steps (.acquired file) space = (.acquired file, space) := by
  induction steps with
  | zero => rfl
  | succ steps ih => exact ih

private theorem run_onward {attempt after : Lock.Attempt} {next : LockSpace} (steps : Nat)
    (stepped : attempt.step lock space = (after, next)) :
    Lock.Attempt.run lock (steps + 1) attempt space = Lock.Attempt.run lock steps after next := by
  change Lock.Attempt.run lock steps (attempt.step lock space).1 (attempt.step lock space).2 = _
  rw [stepped]

/-- A lock that is available is taken, with the file that is at the path. -/
theorem acquire_available (available : Available lock space) :
    ∃ file next, Lock.acquire lock space = (.ok (some ⟨lock, some file⟩), ⟨next, file :: space.held⟩) ∧
      Lock.isLinked next lock file = true := by
  obtain ⟨made, file, next, ready, opened, free⟩ := available
  have linked : Lock.isLinked next lock file = true := isLinked_iff.mpr (find_opened opened)
  have opening : Lock.Attempt.step lock (.opening attemptLimit) ⟨made, space.held⟩ =
      (.locking file 2, ⟨next, space.held⟩) := by
    simp only [attemptLimit, Lock.Attempt.step, opened]
  have locking : Lock.Attempt.step lock (.locking file 2) ⟨next, space.held⟩ =
      (.checking file 2, ⟨next, file :: space.held⟩) := by
    simp only [Lock.Attempt.step, List.contains_iff_mem, if_neg free]
  have checking : Lock.Attempt.step lock (.checking file 2) ⟨next, file :: space.held⟩ =
      (.acquired file, ⟨next, file :: space.held⟩) := if_pos linked
  refine ⟨file, next, ?_, linked⟩
  rw [acquire_made ready]
  change answer lock (Lock.Attempt.run lock (9 + 1 + 1 + 1 + 1) _ _) = _
  rw [run_onward _ opening, run_onward _ locking, run_onward _ checking, run_acquired]
  rfl

end

theorem writeRecord_held {lock : Lock} {file : FileId} (held : lock.file = some file) (record : Record)
    (space : LockSpace) :
    lock.writeRecord record space =
      (.ok (), { space with disk := space.disk.writeOpened file record.text.toUTF8 }) := by
  simp only [Lock.writeRecord, held, overwriteOpened_emptied]

theorem slashless_lockPath (root : Path) : endsInSlash (lockPath root) = false := by
  have proper : Proper "daemon.lock" := by decide
  rw [lockPath, endsInSlash, getLast?_join _ (Proper.clean proper)]
  rfl

private theorem above_lockPath (root : Path) : above (lockPath root) = root.join ⟨stateDirectory⟩ := by
  have state : Proper stateDirectory := by decide
  obtain ⟨front, joined, _⟩ := segments_join root (Proper.clean state)
  rw [segments_proper state] at joined
  rw [above, lockPath, parent?_join joined (by decide) (by decide), Option.getD_some]

private theorem slashless_above (root : Path) : endsInSlash (above (lockPath root)) = false := by
  have proper : Proper stateDirectory := by decide
  rw [above_lockPath, endsInSlash, getLast?_join _ (Proper.clean proper)]
  rfl


private theorem makeDirectory_fresh {disk next : Disk} {path : Path} (made : disk.makeDirectory path = .ok next) :
    next.fresh = disk.fresh := by
  unfold makeDirectory at made
  cases found : disk.find false (withoutEndSlash path) with
  | error cause => rw [found] at made; cases made
  | ok place =>
    rw [found] at made
    obtain ⟨location, stands⟩ := place
    cases stands with
    | some entry => cases made
    | none => cases made; rfl

private theorem makes_fresh {disk next : Disk} (makes : Makes disk next) : next.fresh = disk.fresh := by
  induction makes with
  | refl => rfl
  | tail _ made ih =>
    obtain ⟨path, made⟩ := made
    exact (makeDirectory_fresh made).trans ih

section
variable {root : Path} {space : LockSpace} (issued : ∀ file ∈ space.held, file < space.disk.fresh)
include issued

private theorem available_vacant {made : Disk} {location : Location}
    (ready : space.disk.makeDirectories (above (lockPath root)) = .ok made)
    (vacant : made.find true (lockPath root) = .ok ⟨location, none⟩) : Available (lockPath root) space := by
  refine ⟨made, _, _, ready, openOrCreate_vacant (slashless_lockPath root) vacant, ?_⟩
  rw [makes_fresh (build_makes ready)]
  exact fun member => Nat.lt_irrefl _ (issued _ member)

private theorem available_leftover {content : Option ByteArray} (leftover : Leftover (lockPath root) space content) :
    Available (lockPath root) space := by
  cases leftover with
  | absent _ ready vacant => exact available_vacant issued ready vacant
  | left found stands free =>
    obtain ⟨_, stands⟩ := inspect_ok.mp stands
    exact ⟨_, _, _, makeDirectories_there (slashless_above root) stands,
      openOrCreate_file (slashless_lockPath root) (found true), free⟩

private theorem available_removed {location : Location} {id mode : Nat} {content : ByteArray}
    (found : space.disk.find true (lockPath root) = .ok ⟨location, some (.file id mode content)⟩)
    (stands : space.disk.inspect (above (lockPath root)) = .ok .directory) :
    Available (lockPath root) ⟨space.disk.erase location, space.held⟩ := by
  have entry := (find_grounded found).2.symm
  have framed := erase_framed entry
  have nonempty := nonempty_of_file entry
  obtain ⟨home, stands⟩ := inspect_ok.mp stands
  have there := find_framed framed stands
  have gone := find_framed framed found
  rw [entry?_erase _ nonempty, if_pos rfl] at gone
  rw [framed.passes rfl (find_grounded stands).2.symm] at there
  exact available_vacant (by exact issued) (makeDirectories_there (slashless_above root) there) gone

end

theorem unlink_entry {disk : Disk} {path : Path} {location : Location} {entry : Entry}
    (found : disk.find false path = .ok ⟨location, some entry⟩) (removable : entry ≠ .directory) :
    Lock.unlink path disk = (.ok (), disk.erase location) := by
  have removed : disk.removeFile path = .ok (disk.erase location) := by
    rw [removeFile, found]
    cases entry with
    | directory => exact absurd rfl removable
    | link => rfl
    | file => rfl
  rw [Lock.unlink, removed]

section
variable {disk : Disk} {path : Path} {location : Location} {id mode : Nat} {content : ByteArray}
  (found : disk.find true path = .ok ⟨location, some (.file id mode content)⟩)
include found

theorem read_text {text : String} (legible : String.fromUTF8? content = some text) :
    Record.read disk path = .ok (Record.parse text).toOption := by
  have bytes : disk.readBytes path = .ok content := readBytes_ok.mpr ⟨_, _, _, found⟩
  simp only [Record.read, readText, bytes, legible, bind, Except.bind, pure, Except.pure]

private theorem read_illegible (illegible : String.fromUTF8? content = none) :
    Record.read disk path = .error (.io path.text .notText) := by
  have bytes : disk.readBytes path = .ok content := readBytes_ok.mpr ⟨_, _, _, found⟩
  simp only [Record.read, readText, bytes, illegible, bind, Except.bind, throw, throwThe,
    MonadExceptOf.throw]

end

private theorem read_absent {disk : Disk} {path : Path} (missing : disk.inspect path = .error .notFound) :
    Record.read disk path = .ok none := by
  simp only [Record.read, readText, readBytes, missing, bind, Except.bind]

section
variable {host : Host} {config : Config}

/-- A daemon that is asked to exit is not heard again; one that cannot be asked loses its lock file. -/
theorem stop_recorded {root : Path} {location : Location} {id mode : Nat} {content : ByteArray}
    (found : host.workspace.disk.find false (lockPath root) = .ok ⟨location, some (.file id mode content)⟩)
    {record : Record} (read : Record.read host.workspace.disk (lockPath root) = .ok (some record)) :
    (∃ port, Client.stop Host.surroundings root host =
      (.ok .stopped, (host.deliver port (Client.request .exit)).2)) ∨
    Client.stop Host.surroundings root host =
      (.ok .staleLockRemoved, Host.surroundings.setDisk host (host.workspace.disk.erase location)) := by
  have own : Record.read (Host.surroundings.disk host) (lockPath root) = .ok (some record) := read
  have removed : Lock.unlink (lockPath root) (Host.surroundings.disk host) =
      (.ok (), host.workspace.disk.erase location) := unlink_entry found nofun
  unfold Client.stop
  rw [own]
  dsimp only
  cases Client.connect Host.surroundings host root with
  | ok port => exact .inl ⟨port, rfl⟩
  | error error =>
    dsimp only
    rw [removed]
    exact .inr rfl

/-- A start goes on at once when nothing is recorded, or a daemon that need not give way. -/
theorem displace_nothing {record : Option Record}
    (read : Record.read host.workspace.disk (lockPath config.root) = .ok record)
    (stays : ∀ found, record = some found → config.version ≤ found.version) :
    host.displaceOlder config = (.ok (), host) := by
  unfold Host.displaceOlder
  rw [read]
  cases record with
  | none => rfl
  | some found => exact if_pos (stays found rfl)

private theorem displace_older {record : Record}
    (read : Record.read host.workspace.disk (lockPath config.root) = .ok (some record))
    (older : ¬ config.version ≤ record.version) {outcome : StopOutcome} {next : Host}
    (stopped : Client.stop Host.surroundings config.root host = (.ok outcome, next)) :
    host.displaceOlder config = (.ok (), next.advance handoffWait) := by
  unfold Host.displaceOlder
  rw [read]
  dsimp only
  rw [if_neg older, stopped]

/-- Whatever text a lock file holds, the way is free afterwards. -/
theorem displace_leftover {content : Option ByteArray}
    (leftover : Leftover (lockPath config.root) host.space content)
    (legible : ∀ bytes, content = some bytes → String.fromUTF8? bytes ≠ none)
    (issued : ∀ file ∈ host.held, file < host.workspace.disk.fresh)
    (bystanders : Bystanders (lockPath config.root) host) :
    ∃ ready, host.displaceOlder config = (.ok (), ready) ∧ Available (lockPath config.root) ready.space := by
  have available := available_leftover issued leftover
  cases leftover with
  | absent missing => exact ⟨host, displace_nothing (read_absent missing) nofun, available⟩
  | @left location id mode bytes found stands free =>
    obtain ⟨text, same⟩ := Option.ne_none_iff_exists'.mp (legible bytes rfl)
    have read : Record.read host.workspace.disk (lockPath config.root) = .ok (Record.parse text).toOption :=
      read_text (found true) same
    cases parsed : Record.parse text with
    | error reason =>
      rw [parsed] at read
      exact ⟨host, displace_nothing read (fun _ recorded => by cases recorded), available⟩
    | ok record =>
      have recorded : Record.read host.workspace.disk (lockPath config.root) = .ok (some record) := by
        rw [read, parsed]
        rfl
      by_cases older : config.version ≤ record.version
      · refine ⟨host, displace_nothing recorded ?_, available⟩
        rintro _ ⟨⟩
        exact older
      · rcases stop_recorded (found false) recorded with ⟨port, stopped⟩ | removed
        · exact ⟨_, displace_older recorded older stopped, bystanders.asked port available⟩
        · have removable := @available_removed config.root host.space issued _ _ _ _ (found true) stands
          exact ⟨_, displace_older recorded older removed, bystanders.waits _ removable⟩

def reached (limits : Limits) : Option Shutdown :=
  if limits.interval = 0 then none else limits.expiry 0 0

private theorem check_started {server : Server} {now : Nat} (quiet : server.signal = none)
    (started : server.started = now) (last : server.lastCommand = now) (due : server.nextCheck = now) :
    (server.check now).signal = reached server.limits := by
  unfold Server.check reached
  by_cases unchecked : server.limits.interval = 0 <;> simp [quiet, started, last, due, unchecked]

/-- A daemon that listens has published its record, unless it has reached a limit already. -/
theorem listen_published {lock : Lock} {file : FileId} (held : lock.file = some file) :
    (host.listen config lock).1 = .ok ((reached config.limits).elim (.listening host.freshPort) .stopped) ∧
      (reached config.limits = none → (host.listen config lock).2.workspace.disk =
        host.workspace.disk.writeOpened file (Record.text ⟨config.version, host.freshPort⟩).toUTF8) := by
  unfold Host.listen
  simp only [writeRecord_held held]
  rw [check_started]
  case quiet | started | last | due => rfl
  dsimp only
  cases reached config.limits with
  | none => exact ⟨rfl, fun _ => rfl⟩
  | some reason => exact ⟨rfl, nofun⟩

/-- No text in a lock file that nobody has locked keeps a daemon from starting: it gets the lock and publishes
its version and its port. A file that is no text fails every start. -/
theorem start_over_leftover {content : Option ByteArray}
    (leftover : Leftover (lockPath config.root) host.space content)
    (issued : ∀ file ∈ host.held, file < host.workspace.disk.fresh)
    (bystanders : Bystanders (lockPath config.root) host) :
    (∀ bytes, content = some bytes → String.fromUTF8? bytes = none →
      host.start config = (.error (.io (lockPath config.root).text .notText), host)) ∧
    ((∀ bytes, content = some bytes → String.fromUTF8? bytes ≠ none) →
      ∃ ready lock taken published port,
        host.displaceOlder config = (.ok (), ready) ∧
        Lock.acquire (lockPath config.root) ready.space = (.ok (some lock), taken) ∧
        lock.writeRecord ⟨config.version, port⟩ taken = (.ok (), published) ∧
        published.disk.readBytes (lockPath config.root) = .ok (Record.text ⟨config.version, port⟩).toUTF8 ∧
        (host.start config).1 = .ok ((reached config.limits).elim (.listening port) .stopped) ∧
        (reached config.limits = none → (host.start config).2.workspace.disk = published.disk)) := by
  constructor
  · intro bytes same illegible
    subst same
    cases leftover with
    | left found stands free =>
      have unread : Record.read host.workspace.disk (lockPath config.root) = _ :=
        read_illegible (found true) illegible
      simp only [Host.start, Host.displaceOlder, unread]
  · intro legible
    obtain ⟨ready, displaced, available⟩ := displace_leftover leftover legible issued bystanders
    obtain ⟨file, next, acquired, linked⟩ := acquire_available available
    have started : host.start config =
        (ready.withSpace ⟨next, file :: ready.held⟩).listen config ⟨lockPath config.root, some file⟩ := by
      simp only [Host.start, displaced, acquired]
      rfl
    obtain ⟨outcome, published⟩ := @listen_published (ready.withSpace ⟨next, file :: ready.held⟩) config
      ⟨lockPath config.root, some file⟩ file rfl
    rw [started]
    exact ⟨ready, _, _, _, ready.freshPort, displaced, acquired, writeRecord_held rfl _ _,
      readBytes_writeOpened linked _, outcome, published⟩

end

/-- A machine on which a daemon crashed; its lock file holds these bytes. -/
def crashed (content : ByteArray) : Host :=
  { isolated with
    workspace := {
      disk := {
        entries := [(["r"], .directory), (["r", ".stagefmt"], .directory),
          (["r", ".stagefmt", "daemon.lock"], .file 0 plainMode content)]
        fresh := 1 }
      repository := { root := ⟨"/r"⟩ } } }

private theorem leftover_crashed (content : ByteArray) :
    Leftover (lockPath ⟨"/r"⟩) (crashed content).space (some content) :=
  .left (fun follow => by cases follow <;> rfl) rfl (by rintro ⟨⟩)

theorem start_over_leftover_older : ∃ published port,
    published.readBytes (lockPath ⟨"/r"⟩) = .ok (Record.text ⟨2, port⟩).toUTF8 ∧
      ((crashed "1 40000".toUTF8).start (ofVersion 2)).1 = .ok (.listening port) ∧
      ((crashed "1 40000".toUTF8).start (ofVersion 2)).2.workspace.disk = published := by
  have legible : ∀ bytes, some "1 40000".toUTF8 = some bytes → String.fromUTF8? bytes ≠ none := by
    rintro _ ⟨⟩ illegible
    rw [fromUTF8?_eq_some.mpr rfl] at illegible
    cases illegible
  obtain ⟨_, _, _, published, port, _, _, _, published', outcome, disk⟩ :=
    (@start_over_leftover (crashed "1 40000".toUTF8) (ofVersion 2) _ (leftover_crashed _) nofun
      (bystanders_none rfl _)).2 legible
  exact ⟨_, port, published', outcome, disk rfl⟩

/-- A byte that is no text keeps every daemon from starting, though nobody has the lock. -/
theorem illegible_leftover_blocks :
    Leftover (lockPath ⟨"/r"⟩) (crashed ⟨#[0xff]⟩).space (some ⟨#[0xff]⟩) ∧ (crashed ⟨#[0xff]⟩).held = [] ∧
      (crashed ⟨#[0xff]⟩).servers = [] ∧
      ((crashed ⟨#[0xff]⟩).start (ofVersion 1)).1 = .error (.io "/r/.stagefmt/daemon.lock" .notText) :=
  ⟨leftover_crashed _, rfl, rfl, rfl⟩

end StagedFormat.Proofs.StartupLeftovers
