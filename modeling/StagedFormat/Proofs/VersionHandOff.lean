import StagedFormat.Proofs.DaemonDeparture
import StagedFormat.Proofs.LockSite

/-! A daemon of a later version that starts while an earlier one runs, with their steps in every order.
It asks the earlier one to exit, waits for a fixed time and tries the lock. The earlier one takes up the
request when it has done what came before, so that neither of them may be left. -/

namespace StagedFormat.Proofs.VersionHandOff
open StagedFormat Disk Daemon ByteTexts DiskFollowing DiskSkeleton LockExclusion DaemonExclusion StartupLeftovers
  LockSite DaemonDeparture

/-- What the later daemon is doing. -/
inductive Newer where
  | starting
  | calling (call : Stopping)
  /-- It is connected to the earlier one, which reads the line when it takes up the connection. -/
  | sending
  /-- It gives the earlier one time. -/
  | resting (since : Nat)
  | acquiring

/-- The earlier daemon is process 0, the later one is process 1. -/
structure State where
  older : DaemonSupervision.State
  /-- The earlier daemon has not closed its port. -/
  listens : Bool
  held : List FileId
  phase : Nat → Phase
  newer : Newer := .starting
  /-- When the earlier daemon was asked to exit. -/
  asked : Option Nat := none

def State.disk (state : State) : Disk := state.older.workspace.disk

def State.now (state : State) : Nat := state.older.now

def State.lock (state : State) : LockExclusion.State :=
  { space := { disk := state.disk, held := state.held }, phase := state.phase }

def State.onDisk (state : State) (disk : Disk) : State :=
  { state with older.workspace.disk := disk }

def State.withLock (state : State) (lock : LockExclusion.State) : State :=
  { state.onDisk lock.space.disk with held := lock.space.held, phase := lock.phase }

theorem withLock_lock (state : State) (lock : LockExclusion.State) : (state.withLock lock).lock = lock := rfl

theorem withLock_phase (state : State) (lock : LockExclusion.State) :
    (state.withLock lock).phase = lock.phase := rfl

/-- What may happen next. Connections to a port that is open succeed, and others are refused. Only the two
daemons touch the lock file. -/
inductive Step (services : Services) (path : Path) (version : UInt32) (state : State) : State → Prop where
  /-- The earlier daemon works, clients come to it, and time passes. -/
  | works {event older} : DaemonSupervision.Step services state.older event older →
      Apart path state.disk older.workspace.disk →
      Step services path version state { state with older }
  | closes : state.older.ended ≠ none → Step services path version state { state with listens := false }
  | unlinks {lock} : state.listens = false → LockExclusion.Step path (.unlink 0) state.lock lock →
      Step services path version state (state.withLock lock)
  | unlocks {lock} : LockExclusion.Step path (.unlock 0) state.lock lock →
      Step services path version state (state.withLock lock)
  | displaces {record} : state.newer = .starting → Record.read state.disk path = .ok (some record) →
      record.version < version →
      Step services path version state { state with newer := .calling .reading }
  | proceeds {record} : state.newer = .starting → Record.read state.disk path = .ok record →
      (∀ found, record = some found → version ≤ found.version) →
      Step services path version state { state with newer := .acquiring }
  | calls {call rest disk} : state.newer = .calling call → Call path state.disk call (some rest) disk →
      (call = .dialing state.older.server.port → state.listens = false) →
      Step services path version state { state.onDisk disk with newer := .calling rest }
  | connects : state.newer = .calling (.dialing state.older.server.port) → state.listens = true →
      Step services path version state
        { state with older.backlog := state.older.backlog ++ [exitRequest], newer := .sending }
  | asks : state.newer = .sending →
      Step services path version state { state with newer := .resting state.now, asked := some state.now }
  | breaks : state.newer = .sending → state.listens = false →
      Step services path version state { state with newer := .calling .removing }
  | misses {disk} : state.newer = .calling .reading → Call path state.disk .reading none disk →
      Step services path version state { state.onDisk disk with newer := .resting state.now }
  | removes {disk} : state.newer = .calling .removing → (Lock.unlink path state.disk).1 = .ok () →
      Call path state.disk .removing none disk →
      Step services path version state { state.onDisk disk with newer := .resting state.now }
  | rested {since} : state.newer = .resting since → since + handoffWait ≤ state.now →
      Step services path version state { state with newer := .acquiring }
  | begins {lock} : state.newer = .acquiring → state.phase 1 = .idle →
      LockExclusion.Step path (.begin 1) state.lock lock →
      Step services path version state (state.withLock lock)
  | prepares {lock} : state.newer = .acquiring → LockExclusion.Step path (.prepared 1) state.lock lock →
      Step services path version state (state.withLock lock)
  | attempts {lock} : state.newer = .acquiring → LockExclusion.Step path (.attempt 1) state.lock lock →
      Step services path version state (state.withLock lock)

def Reaches (services : Services) (path : Path) (version : UInt32) : State → State → Prop :=
  Relation.ReflTransGen (Step services path version)

/-! ### What is known of a hand-off -/

/-- An earlier daemon that has the lock and has published its record. -/
structure Situation where
  root : Path
  /-- The version of the later daemon. -/
  version : UInt32
  location : Location
  file : FileId
  record : Record

section
variable (situation : Situation)

/-- The earlier daemon's lock file is as it published it. -/
structure Published (state : State) : Prop where
  owns : Owns state.lock 0 situation.file
  site : ∃ mode, Site situation.root state.disk situation.location
    (some (.file situation.file mode situation.record.text.toUTF8))

/-- The later daemon need not ask the earlier one to exit, or has asked it and given it the time. -/
def Excused (state : State) : Prop :=
  situation.version ≤ situation.record.version ∨
    ∃ since, state.asked = some since ∧ since + handoffWait ≤ state.now

def removals : Phase → Nat
  | .attempting (.acquired _) => 1
  | _ => 0

/-- An attempt with this file can be made anew once for each time that the file is replaced. -/
def Enough (state : State) (file : FileId) (left : Nat) : Prop :=
  removals (state.phase 0) + 1 ≤ left ∨
    Lock.isLinked state.disk (lockPath situation.root) file = true ∧ removals (state.phase 0) ≤ left

/-- An attempt of the later daemon can be made often enough, and if it is about the earlier daemon's
file, the earlier daemon was given the time to let go of it. -/
def AttemptKnown (state : State) : Lock.Attempt → Prop
  | .opening left | .stale _ left => removals (state.phase 0) + 1 ≤ left
  | .locking file left | .checking file left =>
    (file = situation.file → Excused situation state) ∧ Enough situation state file left
  | _ => True

def NewerKnown (state : State) : Newer → Prop
  | .starting | .calling _ => state.phase 1 = .idle
  | .sending => state.phase 1 = .idle ∧ Leaves state.older
  | .resting since => state.phase 1 = .idle ∧
      (state.asked = some since ∨ Gone situation.root state.disk situation.location situation.file)
  | .acquiring => Excused situation state ∨
      Gone situation.root state.disk situation.location situation.file

structure Sound (state : State) : Prop where
  exclusive : Exclusive state.lock
  /-- A file is locked once. -/
  once : state.held.Nodup
  holders : ∀ file ∈ state.held, Holds state.lock 0 file ∨ Holds state.lock 1 file
  issued : situation.file < state.disk.fresh
  record : recordOf state.older.server = situation.record
  own : ∀ file, Holds state.lock 0 file → file = situation.file
  place : Published situation state ∨ Gone situation.root state.disk situation.location situation.file
  request : ∀ since, state.asked = some since → Leaves state.older
  newer : NewerKnown situation state state.newer
  attempt : ∀ attempt, state.phase 1 = .attempting attempt → AttemptKnown situation state attempt

end

variable {situation : Situation}

theorem Published.read {state : State} (published : Published situation state) :
    Record.read state.disk (lockPath situation.root) = .ok (some situation.record) := by
  obtain ⟨mode, site⟩ := published.site
  rw [read_text (site true) (fromUTF8?_eq_some.mpr rfl), RecordTexts.parse_text]
  rfl

theorem Published.not_gone {state : State} (published : Published situation state) :
    ¬ Gone situation.root state.disk situation.location situation.file := by
  intro gone
  obtain ⟨mode, site⟩ := published.site
  exact gone.not_linked (site.isLinked_iff.mpr ⟨mode, _, rfl⟩)

theorem Published.apart {state next : State} (published : Published situation state)
    (phase : next.phase = state.phase) (apart : Apart (lockPath situation.root) state.disk next.disk) :
    Published situation next := by
  obtain ⟨owns, mode, site⟩ := published
  exact ⟨(congrFun phase 0).trans owns, mode, site.apart apart⟩

theorem Excused.later {state next : State} (excused : Excused situation state)
    (asked : next.asked = state.asked) (now : state.now ≤ next.now) : Excused situation next := by
  refine excused.imp_right ?_
  rintro ⟨since, told, waited⟩
  exact ⟨since, asked.trans told, waited.trans now⟩

theorem AttemptKnown.apart {state next : State} {attempt : Lock.Attempt}
    (known : AttemptKnown situation state attempt) (phase : next.phase 0 = state.phase 0)
    (apart : Apart (lockPath situation.root) state.disk next.disk) (asked : next.asked = state.asked)
    (now : state.now ≤ next.now) : AttemptKnown situation next attempt := by
  have enough (file : FileId) (left : Nat) (before : Enough situation state file left) :
      Enough situation next file left := by
    rw [Enough, phase, LockExclusion.isLinked_iff, apart.found, ← LockExclusion.isLinked_iff]
    exact before
  cases attempt with
  | opening left | stale file left =>
    rw [AttemptKnown, phase]
    exact known
  | locking file left | checking file left =>
    exact ⟨fun own => (known.1 own).later asked now, enough file left known.2⟩
  | acquired | refused | failed => trivial

theorem Sound.moved {state next : State} (sound : Sound situation state)
    (phase : next.phase = state.phase) (held : next.held = state.held)
    (fresh : state.disk.fresh ≤ next.disk.fresh)
    (record : recordOf next.older.server = recordOf state.older.server)
    (place : Published situation next ∨ Gone situation.root next.disk situation.location situation.file)
    (request : ∀ since, next.asked = some since → Leaves next.older)
    (newer : NewerKnown situation next next.newer)
    (attempt : ∀ attempt, next.phase 1 = .attempting attempt → AttemptKnown situation next attempt) :
    Sound situation next := by
  have holds (process : Nat) (file : FileId) : Holds next.lock process file ↔ Holds state.lock process file := by
    rw [Holds, Holds, State.lock, State.lock, phase]
  refine ⟨⟨?_, ?_⟩, ?_, ?_, ?_, record.trans sound.record, ?_, place, request, newer, attempt⟩
  · intro process file mine
    change file ∈ next.held
    rw [held]
    exact sound.exclusive.locked process file ((holds process file).mp mine)
  · intro one other file first second
    exact sound.exclusive.alone one other file ((holds one file).mp first) ((holds other file).mp second)
  · rw [held]
    exact sound.once
  · intro file member
    rw [holds, holds]
    exact sound.holders file (held ▸ member)
  · exact Nat.lt_of_lt_of_le sound.issued fresh
  · intro file mine
    exact sound.own file ((holds 0 file).mp mine)

/-- Neither the lock file nor what is locked is touched, and the earlier daemon was asked nothing. -/
theorem Sound.apart {state next : State} (sound : Sound situation state)
    (phase : next.phase = state.phase) (held : next.held = state.held)
    (apart : Apart (lockPath situation.root) state.disk next.disk) (asked : next.asked = state.asked)
    (now : state.now ≤ next.now) (record : recordOf next.older.server = recordOf state.older.server)
    (leaves : Leaves state.older → Leaves next.older) (newer : NewerKnown situation next next.newer) :
    Sound situation next := by
  refine sound.moved phase held apart.fresh record ?_ ?_ newer ?_
  · exact sound.place.imp (Published.apart · phase apart) (Gone.apart · apart)
  · intro since told
    exact leaves (sound.request since (asked.symm.trans told))
  · intro attempt attempts
    rw [phase] at attempts
    exact (sound.attempt attempt attempts).apart (congrFun phase 0) apart asked now

theorem NewerKnown.apart {state next : State} {newer : Newer} (known : NewerKnown situation state newer)
    (phase : next.phase = state.phase) (apart : Apart (lockPath situation.root) state.disk next.disk)
    (asked : next.asked = state.asked) (now : state.now ≤ next.now)
    (leaves : Leaves state.older → Leaves next.older) : NewerKnown situation next newer := by
  cases newer with
  | starting | calling => exact (congrFun phase 1).trans known
  | sending => exact ⟨(congrFun phase 1).trans known.1, leaves known.2⟩
  | resting since =>
    exact ⟨(congrFun phase 1).trans known.1, known.2.imp asked.trans (Gone.apart · apart)⟩
  | acquiring => exact known.imp (Excused.later · asked now) (Gone.apart · apart)

/-- Where no record is read, the earlier daemon's file is gone. -/
theorem Sound.unread {state : State} (sound : Sound situation state)
    (missing : ∀ record, Record.read state.disk (lockPath situation.root) ≠ .ok (some record)) :
    Gone situation.root state.disk situation.location situation.file :=
  sound.place.resolve_left fun published => missing _ published.read

/-- Whoever removes the lock file, the earlier daemon's file is gone then. -/
theorem Sound.removed {state : State} (sound : Sound situation state) :
    Gone situation.root (Lock.unlink (lockPath situation.root) state.disk).2 situation.location
      situation.file := by
  rcases sound.place with ⟨_, _, site⟩ | gone
  · exact site.unlinked
  · exact gone.unlinked

private theorem removals_le (phase : Phase) : removals phase ≤ 1 := by
  unfold removals
  split <;> omega

theorem Sound.lets {state : State} {lock : LockExclusion.State} (sound : Sound situation state)
    (exclusive : Exclusive lock) (once : lock.space.held.Nodup)
    (holders : ∀ file ∈ lock.space.held, Holds lock 0 file ∨ Holds lock 1 file)
    (fresh : state.disk.fresh ≤ lock.space.disk.fresh)
    (own : ∀ file, Holds lock 0 file → file = situation.file)
    (gone : Gone situation.root lock.space.disk situation.location situation.file)
    (other : lock.phase 1 = state.phase 1) (fewer : removals (lock.phase 0) ≤ removals (state.phase 0))
    (enough : ∀ file left, Enough situation state file left →
      Enough situation (state.withLock lock) file left) : Sound situation (state.withLock lock) := by
  refine ⟨exclusive, once, holders, Nat.lt_of_lt_of_le sound.issued fresh, sound.record, own, .inr gone,
    sound.request, ?newer, ?tried⟩
  case newer =>
    have known := sound.newer
    change NewerKnown situation (state.withLock lock) state.newer
    cases newer : state.newer with
    | starting | calling =>
      rw [newer] at known
      exact other.trans known
    | sending =>
      rw [newer] at known
      exact ⟨other.trans known.1, known.2⟩
    | resting since =>
      rw [newer] at known
      exact ⟨other.trans known.1, .inr gone⟩
    | acquiring => exact .inr gone
  case tried =>
    intro attempt attempts
    have known := sound.attempt attempt (other.symm.trans attempts)
    cases attempt with
    | opening left | stale file left =>
      change removals (lock.phase 0) + 1 ≤ left
      exact (Nat.add_le_add_right fewer 1).trans known
    | locking file left | checking file left => exact ⟨known.1, enough file left known.2⟩
    | acquired | refused | failed => trivial

theorem Sound.unlinks {state : State} {lock : LockExclusion.State} (sound : Sound situation state)
    (step : LockExclusion.Step (lockPath situation.root) (.unlink 0) state.lock lock) :
    Sound situation (state.withLock lock) := by
  have exclusive := LockExclusion.exclusive_preserves step sound.exclusive
  obtain ⟨file, owns, first, second, disk, held⟩ : ∃ file, Owns state.lock 0 file ∧
      lock.phase 0 = .releasing file ∧ lock.phase 1 = state.phase 1 ∧
      lock.space.disk = (Lock.unlink (lockPath situation.root) state.disk).2 ∧
      lock.space.held = state.held := by
    cases step with
    | unlink owns => exact ⟨_, owns, move_phase_self .., move_phase_other _ _ _ (by decide), rfl, rfl⟩
  have own : file = situation.file := sound.own file owns.holds
  have before : removals (state.phase 0) = 1 := by rw [show state.phase 0 = _ from owns]; rfl
  have after : removals (lock.phase 0) = 0 := by rw [first]; rfl
  refine sound.lets exclusive (held ▸ sound.once) ?holders ?fresh ?own ?gone second (by omega) ?enough
  case holders =>
    intro other member
    rw [Holds, Holds, first, second]
    rcases sound.holders other (held ▸ member) with mine | theirs
    · rw [sound.own other mine, ← own]
      exact .inl rfl
    · exact .inr theirs
  case fresh => rw [disk, unlink_fresh]
  case own =>
    intro other holds
    rw [Holds, first] at holds
    exact (Option.some.inj holds).symm.trans own
  case gone =>
    rw [disk]
    exact sound.removed
  case enough =>
    intro other left enough
    refine .inl ?_
    rw [withLock_phase, after]
    unfold Enough at enough
    omega

theorem Sound.unlocks {state : State} {lock : LockExclusion.State} (sound : Sound situation state)
    (step : LockExclusion.Step (lockPath situation.root) (.unlock 0) state.lock lock) :
    Sound situation (state.withLock lock) := by
  have exclusive := LockExclusion.exclusive_preserves step sound.exclusive
  obtain ⟨file, standing, first, second, disk, held⟩ : ∃ file, state.phase 0 = .releasing file ∧
      lock.phase 0 = .idle ∧ lock.phase 1 = state.phase 1 ∧ lock.space.disk = state.disk ∧
      lock.space.held = state.held.erase file := by
    cases step with
    | unlock standing => exact ⟨_, standing, move_phase_self .., move_phase_other _ _ _ (by decide), rfl, rfl⟩
  have own : file = situation.file := sound.own file (congrArg Phase.file? standing)
  have before : removals (state.phase 0) = 0 := by rw [standing]; rfl
  have after : removals (lock.phase 0) = 0 := by rw [first]; rfl
  refine sound.lets exclusive (held ▸ sound.once.erase file) ?holders ?fresh ?own ?gone second (by omega) ?enough
  case holders =>
    intro other member
    rw [Holds, Holds, first, second]
    have left : other ∈ state.held.erase file := held ▸ member
    obtain ⟨different, before⟩ := (sound.once.mem_erase_iff).mp left
    rcases sound.holders other before with mine | theirs
    · exact absurd ((sound.own other mine).trans own.symm) different
    · exact .inr theirs
  case fresh => rw [disk]
  case own =>
    intro other holds
    rw [Holds, first] at holds
    cases holds
  case gone =>
    rw [disk]
    refine sound.place.resolve_left fun published => ?_
    cases standing.symm.trans published.owns
  case enough =>
    intro other left enough
    rw [Enough, before] at enough
    rw [Enough, withLock_phase, after]
    change _ ∨ Lock.isLinked lock.space.disk _ _ = true ∧ _
    rwa [disk]

/-! ### The later daemon's attempt -/

private theorem tried_older (state : State) (phase : Phase) (space : LockSpace) :
    (state.withLock (state.lock.move 1 phase space)).phase 0 = state.phase 0 :=
  move_phase_other state.lock phase space Nat.zero_ne_one

theorem tried_newer (state : State) (phase : Phase) (space : LockSpace) :
    (state.withLock (state.lock.move 1 phase space)).phase 1 = phase :=
  move_phase_self state.lock 1 phase space

/-- What is known of an attempt stays known when the attempt goes on and leaves the files alone. -/
theorem AttemptKnown.remains {state : State} {attempt : Lock.Attempt}
    (known : AttemptKnown situation state attempt) (held : List FileId) :
    AttemptKnown situation
      (state.withLock (state.lock.move 1 (.attempting attempt) ⟨state.disk, held⟩)) attempt :=
  known.apart (tried_older ..) (apart_refl _ _) rfl (Nat.le_refl _)

section
variable {state : State} (sound : Sound situation state) (newer : state.newer = .acquiring)
include sound newer

/-- The later daemon goes on with its attempt; what it finds at the path is the earlier daemon's file, or
that one is gone. -/
theorem Sound.tries {phase : Phase} {space : LockSpace}
    (exclusive : Exclusive (state.lock.move 1 phase space)) (once : space.held.Nodup)
    (holders : ∀ file ∈ space.held, Holds state.lock 0 file ∨ phase.file? = some file)
    (fresh : state.disk.fresh ≤ space.disk.fresh)
    (place : space.disk = state.disk ∨ Gone situation.root space.disk situation.location situation.file)
    (known : ∀ attempt, phase = .attempting attempt →
      AttemptKnown situation (state.withLock (state.lock.move 1 phase space)) attempt) :
    Sound situation (state.withLock (state.lock.move 1 phase space)) := by
  have second : (state.lock.move 1 phase space).phase 1 = phase := tried_newer state phase space
  have first : (state.lock.move 1 phase space).phase 0 = state.phase 0 := tried_older state phase space
  have holds (file : FileId) : Holds (state.lock.move 1 phase space) 0 file ↔ Holds state.lock 0 file := by
    rw [Holds, Holds, first]
    rfl
  refine ⟨exclusive, once, ?holders, Nat.lt_of_lt_of_le sound.issued fresh, sound.record, ?own, ?place,
    sound.request, ?newer, ?attempt⟩
  case holders =>
    intro file member
    refine (holders file member).imp (holds file).mpr fun mine => ?_
    exact (congrArg Phase.file? second).trans mine
  case own =>
    intro file mine
    exact sound.own file ((holds file).mp mine)
  case place =>
    rcases place with same | gone
    · replace same : (state.withLock (state.lock.move 1 phase space)).disk = state.disk := same
      refine sound.place.imp ?_ fun gone => same ▸ gone
      rintro ⟨owns, mode, site⟩
      exact ⟨first.trans owns, mode, same ▸ site⟩
    · exact .inr gone
  case newer =>
    have before := sound.newer
    rw [newer] at before
    change NewerKnown situation _ state.newer
    rw [newer]
    rcases place with same | gone
    · replace same : (state.withLock (state.lock.move 1 phase space)).disk = state.disk := same
      exact before.imp id fun gone => same ▸ gone
    · exact .inr gone
  case attempt =>
    intro attempt attempts
    exact known attempt (second.symm.trans attempts)

/-- A step that neither locks nor unlocks leaves it with what it held. -/
theorem Sound.keeps {phase : Phase} {disk : Disk}
    (exclusive : Exclusive (state.lock.move 1 phase ⟨disk, state.held⟩))
    (same : phase.file? = (state.phase 1).file?) (fresh : state.disk.fresh ≤ disk.fresh)
    (place : disk = state.disk ∨ Gone situation.root disk situation.location situation.file)
    (known : ∀ attempt, phase = .attempting attempt →
      AttemptKnown situation (state.withLock (state.lock.move 1 phase ⟨disk, state.held⟩)) attempt) :
    Sound situation (state.withLock (state.lock.move 1 phase ⟨disk, state.held⟩)) :=
  sound.tries newer exclusive sound.once
    (fun file member => (sound.holders file member).imp_right same.trans) fresh place known

theorem Sound.begins (free : state.phase 1 = .idle)
    (exclusive : Exclusive (state.lock.move 1 .preparing state.lock.space)) :
    Sound situation (state.withLock (state.lock.move 1 .preparing state.lock.space)) :=
  sound.keeps newer exclusive (by rw [free]; rfl) (Nat.le_refl _) (.inl rfl) nofun

/-- Three attempts are enough, because the earlier daemon removes its file once. -/
theorem Sound.prepares (preparing : state.phase 1 = .preparing)
    (exclusive : Exclusive (state.lock.move 1 (.attempting (.opening attemptLimit)) state.lock.space)) :
    Sound situation
      (state.withLock (state.lock.move 1 (.attempting (.opening attemptLimit)) state.lock.space)) := by
  refine sound.keeps newer exclusive (by rw [preparing]; rfl) (Nat.le_refl _) (.inl rfl) ?_
  rintro _ ⟨⟩
  exact Nat.succ_le_succ ((removals_le _).trans (by decide))

theorem Sound.opens {left : Nat} {file : FileId} {next : Disk}
    (standing : state.phase 1 = .attempting (.opening (left + 1)))
    (opened : state.disk.openOrCreate (lockPath situation.root) = .ok (file, next))
    (exclusive : Exclusive (state.lock.move 1 (.attempting (.locking file left)) ⟨next, state.held⟩)) :
    Sound situation
      (state.withLock (state.lock.move 1 (.attempting (.locking file left)) ⟨next, state.held⟩)) := by
  have room : removals (state.phase 0) ≤ left := Nat.le_of_succ_le_succ (sound.attempt _ standing)
  have same : (Phase.attempting (.locking file left)).file? = (state.phase 1).file? := by
    rw [standing]
    rfl
  have before := sound.newer
  rw [newer] at before
  rcases sound.place with published | gone
  · obtain ⟨mode, site⟩ := published.site
    cases (openOrCreate_file (slashless_lockPath situation.root) (site true)).symm.trans opened
    refine sound.keeps newer exclusive same (Nat.le_refl _) (.inl rfl) ?_
    rintro _ ⟨⟩
    refine ⟨fun _ => before.resolve_right published.not_gone, .inr ⟨?_, room⟩⟩
    exact site.isLinked_iff.mpr ⟨mode, _, rfl⟩
  · obtain ⟨different, fresh, gone, linked⟩ := gone.opened sound.issued opened
    refine sound.keeps newer exclusive same fresh (.inr gone) ?_
    rintro _ ⟨⟩
    exact ⟨fun own => absurd own different, .inr ⟨linked, room⟩⟩

theorem Sound.locks {left : Nat} {file : FileId}
    (standing : state.phase 1 = .attempting (.locking file left)) (free : file ∉ state.held)
    (exclusive : Exclusive
      (state.lock.move 1 (.attempting (.checking file left)) ⟨state.disk, file :: state.held⟩)) :
    Sound situation (state.withLock
      (state.lock.move 1 (.attempting (.checking file left)) ⟨state.disk, file :: state.held⟩)) := by
  refine sound.tries newer exclusive (List.nodup_cons.mpr ⟨free, sound.once⟩) ?_ (Nat.le_refl _) (.inl rfl) ?_
  · intro other member
    rcases List.mem_cons.mp member with rfl | before
    · exact .inr rfl
    · refine (sound.holders other before).imp_right fun mine => ?_
      rw [Holds, show state.lock.phase 1 = _ from standing] at mine
      cases mine
  · rintro _ ⟨⟩
    have before := sound.attempt _ standing
    have known : AttemptKnown situation state (.checking file left) := before
    exact known.remains _

theorem Sound.abandons {left : Nat} {file : FileId}
    (standing : state.phase 1 = .attempting (.stale file left))
    (exclusive : Exclusive
      (state.lock.move 1 (.attempting (.opening left)) ⟨state.disk, state.held.erase file⟩)) :
    Sound situation (state.withLock
      (state.lock.move 1 (.attempting (.opening left)) ⟨state.disk, state.held.erase file⟩)) := by
  refine sound.tries newer exclusive (sound.once.erase file) ?_ (Nat.le_refl _) (.inl rfl) ?_
  · intro other member
    obtain ⟨different, before⟩ := (sound.once.mem_erase_iff).mp member
    refine (sound.holders other before).imp_right fun mine => ?_
    rw [Holds, show state.lock.phase 1 = _ from standing] at mine
    exact absurd (Option.some.inj mine).symm different
  · rintro _ ⟨⟩
    have before := sound.attempt _ standing
    have known : AttemptKnown situation state (.opening left) := before
    exact known.remains _

/-- The attempt goes on with what it holds, and the files stay as they are. -/
theorem Sound.concludes {attempt after : Lock.Attempt} (standing : state.phase 1 = .attempting attempt)
    (same : (Phase.attempting after).file? = (Phase.attempting attempt).file?)
    (exclusive : Exclusive (state.lock.move 1 (.attempting after) state.lock.space))
    (known : AttemptKnown situation state after) :
    Sound situation (state.withLock (state.lock.move 1 (.attempting after) state.lock.space)) := by
  refine sound.keeps newer exclusive (by rw [standing, same]) (Nat.le_refl _) (.inl rfl) ?_
  rintro _ ⟨⟩
  exact known.remains _

theorem Sound.attempts {lock : LockExclusion.State}
    (step : LockExclusion.Step (lockPath situation.root) (.attempt 1) state.lock lock) :
    Sound situation (state.withLock lock) := by
  have exclusive := LockExclusion.exclusive_preserves step sound.exclusive
  cases step with
  | @attempt _ _ attempt standing =>
    have known := sound.attempt attempt standing
    cases attempt with
    | opening left =>
      cases left with
      | zero => exact absurd known (Nat.not_succ_le_zero _)
      | succ left =>
        simp only [Lock.Attempt.step] at exclusive ⊢
        cases opened : state.lock.space.disk.openOrCreate (lockPath situation.root) with
        | error cause =>
          rw [opened] at exclusive
          exact sound.concludes newer standing rfl exclusive trivial
        | ok result =>
          rw [opened] at exclusive
          exact sound.opens newer standing opened exclusive
    | locking file left =>
      simp only [Lock.Attempt.step, List.contains_iff_mem] at exclusive ⊢
      by_cases taken : file ∈ state.lock.space.held
      · rw [if_pos taken] at exclusive ⊢
        exact sound.concludes newer standing rfl exclusive trivial
      · rw [if_neg taken] at exclusive ⊢
        exact sound.locks newer standing taken exclusive
    | checking file left =>
      simp only [Lock.Attempt.step] at exclusive ⊢
      by_cases linked : Lock.isLinked state.lock.space.disk (lockPath situation.root) file = true
      · rw [if_pos linked] at exclusive ⊢
        exact sound.concludes newer standing rfl exclusive trivial
      · rw [if_neg linked] at exclusive ⊢
        have enough : AttemptKnown situation state (.stale file left) :=
          known.2.resolve_right fun there => linked there.1
        exact sound.concludes newer standing rfl exclusive enough
    | stale file left => exact sound.abandons newer standing exclusive
    | acquired | refused | failed => exact sound.concludes newer standing rfl exclusive trivial

end

/-! ### One step, whoever makes it -/

/-- What a stop call does before it removes the file leaves the files alone. -/
theorem call_disk {path : Path} {disk after : Disk} {call : Stopping} {rest : Option Stopping}
    (step : Call path disk call rest after) : call = .removing ∨ after = disk := by
  cases step with
  | removed => exact .inl rfl
  | absent | present | lost | found | answered | unanswered => exact .inr rfl

private theorem call_removing {path : Path} {disk after : Disk} {rest : Option Stopping}
    (step : Call path disk .removing rest after) : rest = none ∧ after = (Lock.unlink path disk).2 := by
  cases step with
  | removed => exact ⟨rfl, rfl⟩

theorem Sound.connects {state : State} (sound : Sound situation state) (idle : state.phase 1 = .idle) :
    Sound situation { state with
      older.backlog := state.older.backlog ++ [exitRequest]
      newer := .sending } := by
  have leaves : Leaves { state.older with backlog := state.older.backlog ++ [exitRequest] } :=
    .inr ⟨exitRequest, List.mem_append_right _ (List.mem_append_right _ List.mem_cons_self), exitRequest_exits⟩
  refine sound.moved rfl rfl (Nat.le_refl _) rfl ?_ (fun _ _ => leaves) ⟨idle, leaves⟩ ?_
  · exact sound.place.imp_left fun ⟨owns, site⟩ => ⟨owns, site⟩
  · intro attempt attempts
    cases idle.symm.trans attempts

theorem Sound.asks {state : State} (sound : Sound situation state) (sending : state.newer = .sending) :
    Sound situation { state with newer := .resting state.now, asked := some state.now } := by
  obtain ⟨idle, leaves⟩ : NewerKnown situation state .sending := sending ▸ sound.newer
  refine sound.moved rfl rfl (Nat.le_refl _) rfl ?_ (fun _ _ => leaves) ⟨idle, .inl rfl⟩ ?_
  · exact sound.place.imp_left fun ⟨owns, site⟩ => ⟨owns, site⟩
  · intro attempt attempts
    cases idle.symm.trans attempts

/-- The later daemon ends its call because the earlier one's file is gone. -/
theorem Sound.vacates {state : State} {disk : Disk} (sound : Sound situation state)
    (idle : state.phase 1 = .idle) (fresh : state.disk.fresh ≤ disk.fresh)
    (gone : Gone situation.root disk situation.location situation.file) :
    Sound situation { state.onDisk disk with newer := .resting state.now } := by
  refine sound.moved rfl rfl fresh rfl (.inr gone) sound.request ⟨idle, .inr gone⟩ ?_
  intro attempt attempts
  cases idle.symm.trans attempts

/-- Before the later daemon tries to take the lock it does nothing about it. -/
theorem Sound.idle {state : State} (sound : Sound situation state) (before : state.newer ≠ .acquiring) :
    state.phase 1 = .idle := by
  have known := sound.newer
  cases newer : state.newer with
  | starting | calling =>
    rw [newer] at known
    exact known
  | sending | resting =>
    rw [newer] at known
    exact known.1
  | acquiring => exact absurd newer before

theorem Sound.step {services : Services} {state next : State} (sound : Sound situation state)
    (step : Step services (lockPath situation.root) situation.version state next) :
    Sound situation next := by
  cases step with
  | works step apart =>
    obtain ⟨now, record⟩ := step_record step
    have leaves (before : Leaves state.older) : Leaves _ := before.step step
    exact sound.apart rfl rfl apart rfl now record leaves (sound.newer.apart rfl apart rfl now leaves)
  | closes =>
    exact sound.apart rfl rfl (apart_refl _ _) rfl (Nat.le_refl _) rfl id
      (sound.newer.apart rfl (apart_refl _ _) rfl (Nat.le_refl _) id)
  | unlinks _ step => exact sound.unlinks step
  | unlocks step => exact sound.unlocks step
  | displaces starting =>
    exact sound.apart rfl rfl (apart_refl _ _) rfl (Nat.le_refl _) rfl id (sound.idle (by rw [starting]; nofun))
  | proceeds starting read stays =>
    refine sound.apart rfl rfl (apart_refl _ _) rfl (Nat.le_refl _) rfl id ?_
    refine sound.place.imp (fun published => .inl ?_) id
    exact stays _ (Except.ok.inj (read.symm.trans published.read))
  | calls calling step _ =>
    rcases call_disk step with rfl | rfl
    · cases (call_removing step).1
    · exact sound.apart rfl rfl (apart_refl _ _) rfl (Nat.le_refl _) rfl id (sound.idle (by rw [calling]; nofun))
  | connects calling _ => exact sound.connects (sound.idle (by rw [calling]; nofun))
  | asks sending => exact sound.asks sending
  | breaks sending =>
    refine sound.apart rfl rfl (apart_refl _ _) rfl (Nat.le_refl _) rfl id ?_
    exact sound.idle (by rw [sending]; nofun)
  | misses calling step =>
    cases step with
    | absent missing =>
      exact sound.vacates (sound.idle (by rw [calling]; nofun)) (Nat.le_refl _) (sound.unread missing)
  | removes calling _ step =>
    cases step with
    | removed =>
      exact sound.vacates (sound.idle (by rw [calling]; nofun)) (unlink_fresh _ _).ge sound.removed
  | rested resting waited =>
    have known := sound.newer
    rw [resting] at known
    refine sound.apart rfl rfl (apart_refl _ _) rfl (Nat.le_refl _) rfl id ?_
    exact known.2.imp (fun asked => .inr ⟨_, asked, waited⟩) id
  | begins newer free step =>
    have exclusive := LockExclusion.exclusive_preserves step sound.exclusive
    cases step with
    | begin => exact sound.begins newer free exclusive
  | prepares newer step =>
    have exclusive := LockExclusion.exclusive_preserves step sound.exclusive
    cases step with
    | prepared preparing => exact sound.prepares newer preparing exclusive
  | attempts newer step => exact sound.attempts newer step

theorem Sound.reaches {services : Services} {start state : State} (sound : Sound situation start)
    (reaches : Reaches services (lockPath situation.root) situation.version start state) :
    Sound situation state := by
  induction reaches with
  | refl => exact sound
  | tail _ step ih => exact ih.step step

end StagedFormat.Proofs.VersionHandOff
