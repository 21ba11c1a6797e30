import Mathlib.Data.Set.Function
import Mathlib.Logic.Relation
import StagedFormat.Daemon.Client
import StagedFormat.Proofs.DiskGrowth

/-! Processes that take and release one lock, in every order of their steps. A file is locked by one
process at a time, and who owns the lock has the file that is at the path: so there is one owner. -/

namespace StagedFormat.Proofs.LockExclusion
open StagedFormat Disk Daemon DiskGrowth

inductive Phase where
  | idle
  /-- It makes the directories above the file. -/
  | preparing
  | attempting (attempt : Lock.Attempt)
  /-- The file is removed from its path, and still locked. -/
  | releasing (file : FileId)

def Phase.file? : Phase → Option FileId
  | .attempting (.checking file _) | .attempting (.stale file _) | .attempting (.acquired file)
  | .releasing file => some file
  | _ => none

def Phase.isFree : Phase → Bool
  | .idle | .attempting .refused | .attempting (.failed _) => true
  | _ => false

structure State where
  space : LockSpace
  phase : Nat → Phase

def State.move (state : State) (process : Nat) (phase : Phase) (space : LockSpace) : State :=
  { space, phase := Function.update state.phase process phase }

def State.onDisk (state : State) (disk : Disk) : State := { state with space.disk := disk }

/-- A process has the file locked. -/
def Holds (state : State) (process : Nat) (file : FileId) : Prop :=
  (state.phase process).file? = some file

/-- A process was given the lock and has not begun to release it. -/
def Owns (state : State) (process : Nat) (file : FileId) : Prop :=
  state.phase process = .attempting (.acquired file)

theorem Owns.holds {state : State} {process : Nat} {file : FileId} (owns : Owns state process file) :
    Holds state process file := by
  rw [Holds, owns]
  rfl

inductive Event where
  | begin (process : Nat)
  | makeDirectory (process : Nat)
  | prepared (process : Nat)
  | attempt (process : Nat)
  | record (process : Nat)
  | unlink (process : Nat)
  | unlock (process : Nat)
  | crash (process : Nat)
  /-- Something happens that makes no difference to where the path leads. -/
  | elsewhere

def Event.acquires : Event → Bool
  | .begin _ | .makeDirectory _ | .prepared _ | .attempt _ => true
  | _ => false

def Event.process? : Event → Option Nat
  | .begin process | .makeDirectory process | .prepared process | .attempt process | .record process
  | .unlink process | .unlock process | .crash process => some process
  | .elsewhere => none

/-- What may happen next. -/
inductive Step (path : Path) : Event → State → State → Prop where
  | begin {state process} : (state.phase process).isFree →
      Step path (.begin process) state (state.move process .preparing state.space)
  | makeDirectory {state process above disk} : state.phase process = .preparing →
      state.space.disk.makeDirectory above = .ok disk →
      Step path (.makeDirectory process) state (state.onDisk disk)
  | prepared {state process} : state.phase process = .preparing →
      Step path (.prepared process) state
        (state.move process (.attempting (.opening attemptLimit)) state.space)
  | attempt {state process attempt} : state.phase process = .attempting attempt →
      Step path (.attempt process) state
        (state.move process (.attempting (attempt.step path state.space).1)
          (attempt.step path state.space).2)
  | record {state process file} (content : ByteArray) : Owns state process file →
      Step path (.record process) state (state.onDisk (state.space.disk.writeOpened file content))
  | unlink {state process file} : Owns state process file →
      Step path (.unlink process) state (state.move process (.releasing file)
        { state.space with disk := (Lock.unlink path state.space.disk).2 })
  | unlock {state process file} : state.phase process = .releasing file →
      Step path (.unlock process) state
        (state.move process .idle { state.space with held := state.space.held.erase file })
  | crash {state process} :
      Step path (.crash process) state (state.move process .idle
        { state.space with
          held := (state.phase process).file?.elim state.space.held state.space.held.erase })
  | elsewhere {state disk} :
      (∀ follow, disk.find follow path = state.space.disk.find follow path) →
      Step path .elsewhere state (state.onDisk disk)

def Reaches (path : Path) : State → State → Prop :=
  Relation.ReflTransGen fun state next => ∃ event, Step path event state next

@[simp] theorem move_space (state : State) (process : Nat) (phase : Phase) (space : LockSpace) :
    (state.move process phase space).space = space := rfl

@[simp] theorem move_phase_self (state : State) (process : Nat) (phase : Phase) (space : LockSpace) :
    (state.move process phase space).phase process = phase := Function.update_self ..

@[simp] theorem move_phase_other (state : State) {process other : Nat} (phase : Phase) (space : LockSpace)
    (different : other ≠ process) : (state.move process phase space).phase other = state.phase other :=
  Function.update_of_ne different ..

theorem phase_other {path : Path} {event : Event} {state next : State} (step : Step path event state next)
    {other : Nat} (different : event.process? ≠ some other) : next.phase other = state.phase other := by
  cases step with
  | makeDirectory | record | elsewhere => rfl
  | begin | prepared | attempt | unlink | unlock | crash =>
    exact move_phase_other _ _ _ fun same => different (congrArg some same.symm)

/-- Each file is locked by one process at most. -/
structure Exclusive (state : State) : Prop where
  locked : ∀ process file, Holds state process file → file ∈ state.space.held
  alone : ∀ one other file, Holds state one file → Holds state other file → one = other

theorem Exclusive.move {state : State} (exclusive : Exclusive state) {process : Nat} {phase : Phase}
    {space : LockSpace} (own : ∀ file, phase.file? = some file → file ∈ space.held ∧
      (Holds state process file ∨ file ∉ state.space.held))
    (others : ∀ other file, other ≠ process → Holds state other file → file ∈ space.held) :
    Exclusive (state.move process phase space) := by
  have mine {file : FileId} (holds : Holds (state.move process phase space) process file) :
      phase.file? = some file := by rwa [Holds, move_phase_self] at holds
  have theirs {other : Nat} {file : FileId} (different : other ≠ process)
      (holds : Holds (state.move process phase space) other file) : Holds state other file := by
    rwa [Holds, move_phase_other state phase space different] at holds
  have clash {other : Nat} {file : FileId} (different : other ≠ process)
      (first : Holds (state.move process phase space) process file)
      (second : Holds (state.move process phase space) other file) : False := by
    rcases (own file (mine first)).2 with before | new
    · exact different (exclusive.alone _ _ _ (theirs different second) before)
    · exact new (exclusive.locked _ _ (theirs different second))
  constructor
  · intro other file holds
    by_cases same : other = process
    · subst same
      exact (own file (mine holds)).1
    · exact others other file same (theirs same holds)
  · intro one other file first second
    by_cases left : one = process
    · by_cases right : other = process
      · rw [left, right]
      · subst left
        exact (clash right first second).elim
    · by_cases right : other = process
      · subst right
        exact (clash left second first).elim
      · exact exclusive.alone one other file (theirs left first) (theirs right second)

theorem Exclusive.onDisk {state : State} (exclusive : Exclusive state) (disk : Disk) :
    Exclusive (state.onDisk disk) := ⟨exclusive.locked, exclusive.alone⟩

theorem Exclusive.erase {state : State} (exclusive : Exclusive state) {process : Nat} {file : FileId}
    (holds : Holds state process file) {other : Nat} {another : FileId} (different : other ≠ process)
    (held : Holds state other another) : another ∈ state.space.held.erase file := by
  refine (List.mem_erase_of_ne ?_).mpr (exclusive.locked other another held)
  rintro rfl
  exact different (exclusive.alone _ _ _ held holds)

/-- What a step of an attempt does to the files and locks: it may open the file, lock a free one, or
unlock its own. The last look is at the path that the lock is for. -/
theorem attempt_step_cases (path : Path) (attempt : Lock.Attempt) (space : LockSpace) :
    ((attempt.step path space).2.held = space.held ∧
      Grows space.disk (attempt.step path space).2.disk ∧
      (Phase.attempting (attempt.step path space).1).file? = (Phase.attempting attempt).file? ∧
      ∀ file, (attempt.step path space).1 = .acquired file →
        attempt = .acquired file ∨ Lock.isLinked (attempt.step path space).2.disk path file = true) ∨
    (∃ file left, attempt = .locking file left ∧ file ∉ space.held ∧
      attempt.step path space = (.checking file left, { space with held := file :: space.held })) ∨
    ∃ file left, attempt = .stale file left ∧
      attempt.step path space = (.opening left, { space with held := space.held.erase file }) := by
  cases attempt with
  | opening left =>
    refine .inl ?_
    cases left with
    | zero => exact ⟨rfl, .refl _, rfl, nofun⟩
    | succ left =>
      simp only [Lock.Attempt.step]
      cases opened : space.disk.openOrCreate path with
      | error cause => exact ⟨rfl, .refl _, rfl, nofun⟩
      | ok result => exact ⟨rfl, openOrCreate_grows opened, rfl, nofun⟩
  | locking file left =>
    simp only [Lock.Attempt.step]
    by_cases taken : space.held.contains file = true
    · rw [if_pos taken]
      exact .inl ⟨rfl, .refl _, rfl, nofun⟩
    · rw [if_neg taken]
      exact .inr (.inl ⟨file, left, rfl, by simpa using taken, rfl⟩)
  | checking file left =>
    refine .inl ?_
    simp only [Lock.Attempt.step]
    by_cases linked : Lock.isLinked space.disk path file = true
    · rw [if_pos linked]
      refine ⟨rfl, .refl _, rfl, ?_⟩
      intro other same
      cases same
      exact .inr linked
    · rw [if_neg linked]
      exact ⟨rfl, .refl _, rfl, nofun⟩
  | stale file left => exact .inr (.inr ⟨file, left, rfl, rfl⟩)
  | acquired file => exact .inl ⟨rfl, .refl _, rfl, fun _ same => .inl same⟩
  | refused => exact .inl ⟨rfl, .refl _, rfl, nofun⟩
  | failed cause => exact .inl ⟨rfl, .refl _, rfl, nofun⟩

/-- Every step keeps each file with one process; where the path leads does not matter for that. -/
theorem exclusive_preserves {path : Path} {event : Event} {state next : State}
    (step : Step path event state next) (exclusive : Exclusive state) : Exclusive next := by
  cases step with
  | begin _ => exact exclusive.move nofun fun other file _ => exclusive.locked other file
  | makeDirectory _ _ => exact exclusive.onDisk _
  | prepared _ => exact exclusive.move nofun fun other file _ => exclusive.locked other file
  | @attempt _ process attempt standing =>
    have mine {file : FileId} (own : (Phase.attempting attempt).file? = some file) :
        Holds state process file := by rwa [Holds, standing]
    rcases attempt_step_cases path attempt state.space with
      ⟨held, _, same, _⟩ | ⟨file, left, rfl, free, done⟩ | ⟨file, left, rfl, done⟩
    · refine exclusive.move ?_ fun other another _ holds => held ▸ exclusive.locked other another holds
      intro file own
      have holds := mine (same ▸ own)
      exact ⟨held ▸ exclusive.locked process file holds, .inl holds⟩
    · rw [done]
      refine exclusive.move ?_ fun other another _ holds => .tail _ (exclusive.locked other another holds)
      rintro _ ⟨⟩
      exact ⟨List.mem_cons_self, .inr free⟩
    · rw [done]
      exact exclusive.move nofun fun other another different holds => exclusive.erase (mine rfl) different holds
  | record _ _ => exact exclusive.onDisk _
  | @unlink _ process file owns =>
    refine exclusive.move ?_ fun other another _ => exclusive.locked other another
    rintro _ ⟨⟩
    exact ⟨exclusive.locked _ _ owns.holds, .inl owns.holds⟩
  | @unlock _ process file standing =>
    have holds : Holds state process file := by rw [Holds, standing]; rfl
    exact exclusive.move nofun fun other another different held => exclusive.erase holds different held
  | @crash _ process =>
    refine exclusive.move nofun fun other another different held => ?_
    cases own : (state.phase process).file? with
    | none => exact exclusive.locked other another held
    | some file => exact exclusive.erase own different held
  | elsewhere _ => exact exclusive.onDisk _

/-- The owner's file is the one at the path. -/
def Linked (path : Path) (state : State) : Prop :=
  ∀ process file, Owns state process file → Lock.isLinked state.space.disk path file = true

theorem isLinked_iff {disk : Disk} {path : Path} {file : FileId} :
    Lock.isLinked disk path file = true ↔
      ∃ location mode content, disk.find true path = .ok ⟨location, some (.file file mode content)⟩ := by
  unfold Lock.isLinked
  constructor
  · intro linked
    split at linked
    · rename_i id mode content inspected
      obtain ⟨location, found⟩ := DiskFollowing.inspect_ok.mp inspected
      exact ⟨location, mode, content, by rw [found, beq_iff_eq.mp linked]⟩
    · cases linked
  · rintro ⟨location, mode, content, found⟩
    rw [DiskFollowing.inspect_ok.mpr ⟨location, found⟩]
    exact beq_self_eq_true file

theorem readBytes_writeOpened {disk : Disk} {path : Path} {file : FileId}
    (linked : Lock.isLinked disk path file = true) (content : ByteArray) :
    (disk.writeOpened file content).readBytes path = .ok content := by
  obtain ⟨location, mode, old, found⟩ := isLinked_iff.mp linked
  obtain ⟨later, there, _⟩ := find_stays (writeOpened_stays disk file content) found
  have held := (DiskFollowing.find_grounded there).2
  rw [entry?_writeOpened, ← (DiskFollowing.find_grounded found).2] at held
  cases Option.some.inj held
  simp only [rewritten, if_pos] at there
  exact DiskFollowing.readBytes_ok.mpr ⟨_, _, _, there⟩

private theorem isLinked_unique {disk : Disk} {path : Path} {one other : FileId}
    (first : Lock.isLinked disk path one = true) (second : Lock.isLinked disk path other = true) :
    one = other := by
  obtain ⟨_, _, _, found⟩ := isLinked_iff.mp first
  obtain ⟨_, _, _, again⟩ := isLinked_iff.mp second
  rw [found] at again
  cases again
  rfl

private theorem isLinked_stays {disk next : Disk} (stays : Stays disk next) {path : Path} {file : FileId}
    (linked : Lock.isLinked disk path file = true) : Lock.isLinked next path file = true := by
  obtain ⟨location, mode, content, found⟩ := isLinked_iff.mp linked
  obtain ⟨later, there, same⟩ := find_stays stays found
  cases later with
  | directory => cases same
  | link target => cases same
  | file id mode content =>
    cases same
    exact isLinked_iff.mpr ⟨location, mode, content, there⟩

theorem Linked.move {path : Path} {state : State} {process : Nat} {phase : Phase} {space : LockSpace}
    (own : ∀ file, phase = .attempting (.acquired file) → Lock.isLinked space.disk path file = true)
    (others : ∀ other file, other ≠ process → Owns state other file →
      Lock.isLinked space.disk path file = true) : Linked path (state.move process phase space) := by
  intro other file owns
  by_cases same : other = process
  · subst same
    rw [Owns, move_phase_self] at owns
    exact own file owns
  · rw [Owns, move_phase_other state phase space same] at owns
    exact others other file same owns

theorem Linked.onDisk {path : Path} {state : State} (linked : Linked path state) {disk : Disk}
    (stays : Stays state.space.disk disk) : Linked path (state.onDisk disk) :=
  fun process file owns => isLinked_stays stays (linked process file owns)

/-- One owner can only be another if both are the same process. -/
theorem owner_unique {path : Path} {state : State} (exclusive : Exclusive state) {one other : Nat}
    {file another : FileId} (first : Owns state one file) (second : Owns state other another)
    (linked : Lock.isLinked state.space.disk path file = true)
    (also : Lock.isLinked state.space.disk path another = true) : one = other := by
  cases isLinked_unique linked also
  exact exclusive.alone one other file first.holds second.holds

theorem linked_preserves {path : Path} {event : Event} {state next : State}
    (step : Step path event state next) (exclusive : Exclusive state) (linked : Linked path state) :
    Linked path next := by
  cases step with
  | begin _ => exact .move nofun fun other file _ => linked other file
  | makeDirectory _ made => exact linked.onDisk (makeDirectory_grows made).stays
  | prepared _ => exact .move nofun fun other file _ => linked other file
  | @attempt _ process attempt standing =>
    rcases attempt_step_cases path attempt state.space with
      ⟨_, grows, _, looked⟩ | ⟨file, left, rfl, _, done⟩ | ⟨file, left, rfl, done⟩
    · refine .move ?_ fun other file _ owns => isLinked_stays grows.stays (linked other file owns)
      intro file acquired
      rcases looked file (Phase.attempting.inj acquired) with before | found
      · subst before
        exact isLinked_stays grows.stays (linked process file standing)
      · exact found
    · rw [done]
      exact .move nofun fun other file _ => linked other file
    · rw [done]
      exact .move nofun fun other file _ => linked other file
  | record content _ => exact linked.onDisk (writeOpened_stays _ _ _)
  | @unlink _ process file owns =>
    refine .move nofun fun other another different owner => ?_
    exact (different (owner_unique exclusive owner owns (linked _ _ owner) (linked _ _ owns))).elim
  | unlock _ => exact .move nofun fun other file _ => linked other file
  | crash => exact .move nofun fun other file _ => linked other file
  | elsewhere same =>
    intro process file owns
    obtain ⟨location, mode, content, found⟩ := isLinked_iff.mp (linked process file owns)
    exact isLinked_iff.mpr ⟨location, mode, content, (same true).trans found⟩

/-- No event of an attempt takes away or changes anything that is there. -/
theorem acquires_grows {path : Path} {event : Event} {state next : State}
    (step : Step path event state next) (acquires : event.acquires = true) :
    Grows state.space.disk next.space.disk := by
  cases step with
  | begin _ => exact .refl _
  | makeDirectory _ made => exact makeDirectory_grows made
  | prepared _ => exact .refl _
  | @attempt _ process attempt standing =>
    rcases attempt_step_cases path attempt state.space with
      ⟨_, grows, _⟩ | ⟨file, left, _, _, done⟩ | ⟨file, left, _, done⟩
    · exact grows
    · rw [done]
      exact .refl _
    · rw [done]
      exact .refl _
  | record | unlink | unlock | crash | elsewhere => cases acquires

theorem safe_idle (path : Path) {start : State} (idle : ∀ process, start.phase process = .idle) :
    Exclusive start ∧ Linked path start := by
  have free (process : Nat) : (start.phase process).file? = none := by rw [idle]; rfl
  refine ⟨⟨fun process file holds => ?_, fun one other file holds => ?_⟩, fun process file owns => ?_⟩
  · rw [Holds, free] at holds
    cases holds
  · rw [Holds, free] at holds
    cases holds
  · rw [Owns, idle] at owns
    cases owns

theorem reaches_safe {path : Path} {start state : State} (idle : ∀ process, start.phase process = .idle)
    (reached : Reaches path start state) : Exclusive state ∧ Linked path state := by
  induction reached with
  | refl => exact safe_idle path idle
  | tail _ stepped ih =>
    obtain ⟨event, step⟩ := stepped
    exact ⟨exclusive_preserves step ih.1, linked_preserves step ih.1 ih.2⟩

/-- In every order of their steps, at most one of the processes owns the lock, and it has locked the
file that is at the path. No event of an attempt, whatever comes of it, changes what is there. -/
theorem lock_excludes {path : Path} {start state : State} (idle : ∀ process, start.phase process = .idle)
    (reached : Reaches path start state) :
    (∀ one other file another, Owns state one file → Owns state other another →
      one = other ∧ file = another) ∧
    (∀ process file, Owns state process file →
      file ∈ state.space.held ∧ Lock.isLinked state.space.disk path file = true) ∧
    ∀ event next, event.acquires = true → Step path event state next →
      ∀ location entry, state.space.disk.entry? location = some entry →
        next.space.disk.entry? location = some entry := by
  obtain ⟨exclusive, linked⟩ := reaches_safe idle reached
  refine ⟨?_, ?_, fun _ _ acquires step => acquires_grows step acquires⟩
  · intro one other file another first second
    have mine := linked one file first
    have theirs := linked other another second
    exact ⟨owner_unique exclusive first second mine theirs, isLinked_unique mine theirs⟩
  · intro process file owns
    exact ⟨exclusive.locked process file owns.holds, linked process file owns⟩

/-! The steps of a process that runs alone make up the whole operations. -/

/-- One process goes on with its attempt, and the others wait. -/
def Attempts (path : Path) (process : Nat) : State → State → Prop :=
  Relation.ReflTransGen fun state next =>
    ∃ event, event.acquires = true ∧ event.process? = some process ∧ Step path event state next

theorem Attempts.reaches {path : Path} {process : Nat} {state next : State}
    (attempts : Attempts path process state next) : Reaches path state next := by
  induction attempts with
  | refl => exact .refl
  | tail _ stepped ih =>
    obtain ⟨event, _, _, step⟩ := stepped
    exact ih.tail ⟨event, step⟩

def Makes : Disk → Disk → Prop :=
  Relation.ReflTransGen fun disk next => ∃ path, disk.makeDirectory path = .ok next

private theorem settle_makes {disk next : Disk} {path : Path}
    (settled : makeDirectories.settle disk path = .ok next) :
    Makes disk next := by
  unfold makeDirectories.settle at settled
  split at settled
  · rename_i made
    cases settled
    exact .single ⟨path, made⟩
  · split at settled
    · cases settled
      exact .refl
    · cases settled

theorem build_makes {disk next : Disk} {steps : Nat} {path : Path}
    (built : makeDirectories.build disk steps path = .ok next) : Makes disk next := by
  induction steps generalizing path next with
  | zero =>
    unfold makeDirectories.build at built
    split at built
    · cases built
      exact .refl
    · split at built
      · contradiction
      · exact settle_makes built
  | succ steps ih =>
    unfold makeDirectories.build at built
    split at built
    · cases built
      exact .refl
    · split at built
      · rename_i _ above _ same _
        cases same
        cases lower : makeDirectories.build disk steps above with
        | error cause =>
          rw [lower] at built
          cases built
        | ok between =>
          rw [lower] at built
          exact (ih lower).trans (settle_makes built)
      · exact settle_makes built

theorem move_move (state : State) (process : Nat) (one other : Phase) (space last : LockSpace) :
    (state.move process one space).move process other last = state.move process other last := by
  simp only [State.move, Function.update_idem]

section
variable {path : Path} {state : State} {process : Nat}

private theorem attempts_makes {disk next : Disk} (makes : Makes disk next) {held : List FileId} :
    Attempts path process (state.move process .preparing ⟨disk, held⟩)
      (state.move process .preparing ⟨next, held⟩) := by
  induction makes with
  | refl => exact .refl
  | tail _ made ih =>
    obtain ⟨above, made⟩ := made
    exact ih.tail ⟨.makeDirectory process, rfl, rfl, .makeDirectory (move_phase_self ..) made⟩

private theorem attempts_run (steps : Nat) (attempt : Lock.Attempt) (space : LockSpace) :
    Attempts path process (state.move process (.attempting attempt) space)
      (state.move process (.attempting (Lock.Attempt.run path steps attempt space).1)
        (Lock.Attempt.run path steps attempt space).2) := by
  induction steps generalizing attempt space with
  | zero => exact .refl
  | succ steps ih =>
    have first : Step path (.attempt process) (state.move process (.attempting attempt) space) _ :=
      .attempt (move_phase_self ..)
    rw [move_move, move_space] at first
    exact .head ⟨_, rfl, rfl, first⟩ (ih _ _)

def answer (path : Path) : Lock.Attempt × LockSpace → Except DaemonError (Option Lock) × LockSpace
  | (.acquired file, space) => (.ok (some { path, file := some file }), space)
  | (.failed cause, space) => (.error (.io path.text cause), space)
  | (_, space) => (.ok none, space)

theorem acquire_made {space : LockSpace} {disk : Disk}
    (made : space.disk.makeDirectories ((path.parent?).getD ⟨""⟩) = .ok disk) :
    Lock.acquire path space =
      answer path (Lock.Attempt.run path (4 * attemptLimit + 1) (.opening attemptLimit) { space with disk }) := by
  unfold Lock.acquire
  dsimp only
  rw [made]
  dsimp only
  generalize Lock.Attempt.run path (4 * attemptLimit + 1) (.opening attemptLimit) { space with disk } = outcome
  obtain ⟨attempt, _⟩ := outcome
  cases attempt <;> rfl

private theorem acquire_unmade {space : LockSpace} {cause : IoError}
    (made : space.disk.makeDirectories ((path.parent?).getD ⟨""⟩) = .error cause) :
    Lock.acquire path space = (.error (.io ((path.parent?).getD ⟨""⟩).text cause), space) := by
  unfold Lock.acquire
  dsimp only
  rw [made]

theorem answer_space (outcome : Lock.Attempt × LockSpace) : (answer path outcome).2 = outcome.2 := by
  obtain ⟨attempt, space⟩ := outcome
  cases attempt <;> rfl

private theorem answer_acquired (outcome : Lock.Attempt × LockSpace) (file : FileId) :
    (answer path outcome).1 = .ok (some { path, file := some file }) ↔ outcome.1 = .acquired file := by
  obtain ⟨attempt, space⟩ := outcome
  cases attempt <;> simp [answer]

/-- Taking the lock in one go is a run of the process's own steps. -/
theorem attempts_acquire (idle : state.phase process = .idle) :
    ∃ phase, Attempts path process state (state.move process phase (Lock.acquire path state.space).2) ∧
      ∀ file, phase = .attempting (.acquired file) ↔
        (Lock.acquire path state.space).1 = .ok (some { path, file := some file }) := by
  have begun : Attempts path process state (state.move process .preparing state.space) :=
    .single ⟨_, rfl, rfl, .begin (by rw [idle]; rfl)⟩
  cases made : state.space.disk.makeDirectories ((path.parent?).getD ⟨""⟩) with
  | error cause =>
    rw [acquire_unmade made]
    exact ⟨.preparing, begun, by simp⟩
  | ok disk =>
    have prepared := @Step.prepared path (state.move process .preparing { state.space with disk }) process
      (move_phase_self ..)
    rw [move_move, move_space] at prepared
    have ran := @attempts_run path state process (4 * attemptLimit + 1)
      (.opening attemptLimit) { state.space with disk }
    rw [acquire_made made, answer_space]
    have ready := begun.trans (attempts_makes (build_makes made))
    refine ⟨_, ready.trans (.head ⟨_, rfl, rfl, prepared⟩ ran), ?_⟩
    intro file
    rw [answer_acquired, Phase.attempting.injEq]

/-- Releasing the lock in one go is two steps. -/
theorem reaches_release {file : FileId} (owns : Owns state process file) :
    Reaches path state (state.move process .idle
      (Lock.release { path, file := some file } state.space).2.2) := by
  have first := @Step.unlink path _ _ _ owns
  have second := @Step.unlock path _ process file (move_phase_self state process (.releasing file)
    { state.space with disk := (Lock.unlink path state.space.disk).2 })
  rw [move_move] at second
  exact .tail (.single ⟨_, first⟩) ⟨_, second⟩

end

/-- One process takes the lock, and the next one is refused. -/
theorem reaches_second {path : Path} {start : State} (idle : ∀ process, start.phase process = .idle)
    {file : FileId}
    (first : (Lock.acquire path start.space).1 = .ok (some { path, file := some file }))
    (second : (Lock.acquire path (Lock.acquire path start.space).2).1 = .ok none) :
    ∃ state, Reaches path start state ∧ Owns state 0 file ∧ ∀ another, ¬ Owns state 1 another := by
  obtain ⟨phase, ran, acquired⟩ := @attempts_acquire path start 0 (idle 0)
  generalize (Lock.acquire path start.space).2 = space at ran second
  obtain ⟨other, again, refused⟩ := @attempts_acquire path (start.move 0 phase space) 1 (by
    rw [move_phase_other start phase space (by decide)]
    exact idle 1)
  rw [move_space] at again refused
  rw [second] at refused
  refine ⟨_, ran.reaches.trans again.reaches, ?_, ?_⟩
  · rw [Owns, move_phase_other _ other _ (by decide), move_phase_self]
    exact (acquired file).mpr first
  · intro another owns
    rw [Owns, move_phase_self] at owns
    cases (refused another).mp owns

def blank : State := { space := { disk := { entries := [], fresh := 0 }, held := [] }, phase := fun _ => .idle }

theorem lock_excludes_second : ∃ state,
    Reaches (lockPath ⟨"/r"⟩) blank state ∧ Owns state 0 0 ∧ (∀ file, ¬ Owns state 1 file) ∧
      ∀ process file, Owns state process file → process = 0 ∧ file = 0 := by
  obtain ⟨state, ran, owns, refused⟩ :=
    @reaches_second (lockPath ⟨"/r"⟩) blank (fun _ => rfl) 0 (by rfl) (by rfl)
  have safe := lock_excludes (fun _ => rfl) ran
  exact ⟨state, ran, owns, refused, fun process file another => safe.1 _ _ _ _ another owns⟩

end StagedFormat.Proofs.LockExclusion
