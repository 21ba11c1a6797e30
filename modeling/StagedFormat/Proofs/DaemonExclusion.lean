import StagedFormat.Daemon.Host
import StagedFormat.Proofs.LockExclusion
import StagedFormat.Proofs.RecordTexts

/-! Daemons that start and end, and clients that ask them to stop, in every order of their steps. A
stop call that reaches nobody removes the lock file by its path. As long as that file is no daemon's,
one daemon owns the lock; stop calls keep to that if they meet settled daemons only. -/

namespace StagedFormat.Proofs.DaemonExclusion
open StagedFormat Disk Daemon DiskGrowth LockExclusion

inductive Stopping where
  | reading
  | connecting
  | dialing (port : UInt16)
  | removing

/-- A step of a stop call, what is left of the call, and the files after it. -/
inductive Call (path : Path) (disk : Disk) : Stopping → Option Stopping → Disk → Prop where
  | absent : (∀ record, Record.read disk path ≠ .ok (some record)) → Call path disk .reading none disk
  | present {record} : Record.read disk path = .ok (some record) →
      Call path disk .reading (some .connecting) disk
  | lost : (∀ record, Record.read disk path ≠ .ok (some record)) →
      Call path disk .connecting (some .removing) disk
  | found {record} : Record.read disk path = .ok (some record) →
      Call path disk .connecting (some (.dialing record.port)) disk
  | answered {port} : Call path disk (.dialing port) none disk
  | unanswered {port} : Call path disk (.dialing port) (some .removing) disk
  | removed : Call path disk .removing none (Lock.unlink path disk).2

inductive Role where
  | idle
  /-- It asks a daemon to stop; if it is a daemon of a later version, it starts then. -/
  | calling (call : Stopping) (later : Option UInt32)
  | starting (version : UInt32)
  | acquiring (version : UInt32)
  /-- It owns the lock and has a port, but has not published its record. -/
  | listening (version : UInt32) (port : UInt16)
  | serving (port : UInt16)
  /-- It owns the lock, but has given up its port. -/
  | closing

structure State where
  lock : LockExclusion.State
  role : Nat → Role

def State.disk (state : State) : Disk := state.lock.space.disk

def State.act (state : State) (process : Nat) (role : Role) : State :=
  { state with role := Function.update state.role process role }

def State.onDisk (state : State) (disk : Disk) : State := { state with lock := state.lock.onDisk disk }

def Listens (state : State) (process : Nat) (port : UInt16) : Prop :=
  (∃ version, state.role process = .listening version port) ∨ state.role process = .serving port

def Role.after (later : Option UInt32) : Option Stopping → Role
  | some call => .calling call later
  | none => later.elim .idle .acquiring

inductive Event where
  | invoke (process : Nat)
  | start (process : Nat)
  | look (process : Nat)
  | call (process : Nat)
  | lock (event : LockExclusion.Event)
  | leave (process : Nat)
  | bind (process : Nat)
  | publish (process : Nat)
  | close (process : Nat)

/-- What may happen next. -/
inductive Step (path : Path) : Event → State → State → Prop where
  | invoke {state process} : state.role process = .idle → (state.lock.phase process).isFree →
      Step path (.invoke process) state (state.act process (.calling .reading none))
  | start {state process} (version : UInt32) : state.role process = .idle →
      (state.lock.phase process).isFree →
      Step path (.start process) state (state.act process (.starting version))
  | displace {state process version record} : state.role process = .starting version →
      Record.read state.disk path = .ok (some record) → record.version < version →
      Step path (.look process) state (state.act process (.calling .reading (some version)))
  | proceed {state process version} : state.role process = .starting version →
      (∀ record, Record.read state.disk path = .ok (some record) → version ≤ record.version) →
      Step path (.look process) state (state.act process (.acquiring version))
  | call {state process call later rest disk} : state.role process = .calling call later →
      Call path state.disk call rest disk →
      Step path (.call process) state ((state.onDisk disk).act process (.after later rest))
  | acquire {state process version event lock} : state.role process = .acquiring version →
      event.acquires → event.process? = some process → LockExclusion.Step path event state.lock lock →
      Step path (.lock event) state { state with lock }
  | leave {state process version} : state.role process = .acquiring version →
      (state.lock.phase process).isFree → Step path (.leave process) state (state.act process .idle)
  | bind {state process version file port} : state.role process = .acquiring version →
      Owns state.lock process file → (∀ other, ¬ Listens state other port) →
      Step path (.bind process) state (state.act process (.listening version port))
  | truncate {state process version port file} : state.role process = .listening version port →
      Owns state.lock process file →
      Step path (.lock (.record process)) state
        (state.onDisk (state.disk.writeOpened file ByteArray.empty))
  | publish {state process version port file} : state.role process = .listening version port →
      Owns state.lock process file →
      Step path (.publish process) state
        ((state.onDisk (state.disk.writeOpened file (Record.mk version port).text.toUTF8)).act process
          (.serving port))
  | close {state process file} : Owns state.lock process file →
      Step path (.close process) state (state.act process .closing)
  | unlink {state process lock} : state.role process = .closing →
      LockExclusion.Step path (.unlink process) state.lock lock →
      Step path (.lock (.unlink process)) state (State.act { state with lock } process .idle)
  | unlock {state process lock} : LockExclusion.Step path (.unlock process) state.lock lock →
      Step path (.lock (.unlock process)) state { state with lock }
  | crash {state process lock} : LockExclusion.Step path (.crash process) state.lock lock →
      Step path (.lock (.crash process)) state (State.act { state with lock } process .idle)
  | elsewhere {state lock} : LockExclusion.Step path .elsewhere state.lock lock →
      Step path (.lock .elsewhere) state { state with lock }

def Reaches (path : Path) : State → State → Prop :=
  Relation.ReflTransGen fun state next => ∃ event, Step path event state next

structure Initial (state : State) : Prop where
  phase : ∀ process, state.lock.phase process = .idle
  role : ∀ process, state.role process = .idle

/-- A step that keeps stop calls and daemons apart: a call goes on only while the owner of the lock
serves, nobody becomes the owner during a call, and a port that somebody listens on answers. -/
structure Orderly (state : State) (event : Event) (next : State) : Prop where
  settled : ∀ process, event = .call process → ∀ owner file, Owns state.lock owner file →
    ∃ port, state.role owner = .serving port
  apart : ∀ owner file, Owns next.lock owner file → ¬ Owns state.lock owner file →
    ∀ process call later, state.role process ≠ .calling call later
  answers : ∀ process port later, state.role process = .calling (.dialing port) later →
    next.role process = .calling .removing later → ∀ listener, ¬ Listens state listener port

def OrderlyReaches (path : Path) : State → State → Prop :=
  Relation.ReflTransGen fun state next => ∃ event, Step path event state next ∧ Orderly state event next

@[simp] theorem act_lock (state : State) (process : Nat) (role : Role) :
    (state.act process role).lock = state.lock := rfl

@[simp] theorem act_role_self (state : State) (process : Nat) (role : Role) :
    (state.act process role).role process = role := Function.update_self ..

@[simp] theorem act_role_other (state : State) {process other : Nat} (role : Role)
    (different : other ≠ process) : (state.act process role).role other = state.role other :=
  Function.update_of_ne different ..

private theorem act_role (state : State) (process : Nat) (role : Role) (other : Nat) :
    (state.act process role).role other = if other = process then role else state.role other := by
  split
  · rename_i same
    rw [same, act_role_self]
  · rename_i different
    rw [act_role_other state role different]

private theorem act_idle (state : State) (process other : Nat) :
    (state.act process .idle).role other = state.role other ∨
      other = process ∧ (state.act process .idle).role other = .idle := by
  by_cases same : other = process
  · exact .inr ⟨same, by rw [same, act_role_self]⟩
  · exact .inl (act_role_other _ _ same)

/-- Every step keeps each file with one process: removing the lock file does not unlock it. -/
theorem exclusive_preserves {path : Path} {event : Event} {state next : State}
    (step : Step path event state next) (exclusive : Exclusive state.lock) : Exclusive next.lock := by
  cases step with
  | invoke | start | displace | proceed | leave | bind | close => exact exclusive
  | call | truncate | publish => exact exclusive.onDisk _
  | acquire _ _ _ step | unlink _ step => exact LockExclusion.exclusive_preserves step exclusive
  | unlock step | crash step | elsewhere step => exact LockExclusion.exclusive_preserves step exclusive

private theorem read_eq_some {disk : Disk} {path : Path} {record : Record} :
    Record.read disk path = .ok (some record) ↔
      ∃ text, disk.readText path = .ok text ∧ Record.parse text = .ok record := by
  unfold Record.read
  cases held : disk.readText path with
  | error cause => cases cause <;> simp
  | ok text => cases parsed : Record.parse text <;> simp [Except.toOption, parsed]

private theorem read_of_find {disk next : Disk} {path : Path} {record : Record}
    (same : ∀ location entry, disk.find true path = .ok ⟨location, some entry⟩ →
      next.find true path = .ok ⟨location, some entry⟩)
    (read : Record.read disk path = .ok (some record)) : Record.read next path = .ok (some record) := by
  obtain ⟨text, held, parsed⟩ := read_eq_some.mp read
  obtain ⟨location, id, mode, found⟩ := DiskFollowing.readText_iff.mp held
  exact read_eq_some.mpr
    ⟨text, DiskFollowing.readText_iff.mpr ⟨location, id, mode, same _ _ found⟩, parsed⟩

theorem read_writeOpened {disk : Disk} {path : Path} {file : FileId}
    (linked : Lock.isLinked disk path file = true) (record : Record) :
    Record.read (disk.writeOpened file record.text.toUTF8) path = .ok (some record) := by
  have written := DiskFollowing.readBytes_ok.mp (readBytes_writeOpened linked record.text.toUTF8)
  exact read_eq_some.mpr ⟨record.text, DiskFollowing.readText_iff.mpr written, RecordTexts.parse_text record⟩

/-- What holds as long as every step is orderly. -/
structure Sound (path : Path) (state : State) : Prop where
  exclusive : Exclusive state.lock
  linked : Linked path state.lock
  /-- A daemon that serves owns the lock and has published its port. -/
  published : ∀ process port, state.role process = .serving port →
    ∃ file version, Owns state.lock process file ∧
      Record.read state.disk path = .ok (some { version, port })
  /-- A call goes to the owner, who may be closing meanwhile. -/
  dialing : ∀ process port later, state.role process = .calling (.dialing port) later →
    ∀ owner file, Owns state.lock owner file →
      state.role owner = .serving port ∨ state.role owner = .closing
  /-- What is removed is nobody's. -/
  removing : ∀ process later, state.role process = .calling .removing later →
    ∀ owner file, ¬ Owns state.lock owner file

theorem Sound.owner {path : Path} {state : State} (sound : Sound path state) {one other : Nat}
    {file another : FileId} (first : Owns state.lock one file) (second : Owns state.lock other another) :
    one = other := by
  exact owner_unique sound.exclusive first second (sound.linked _ _ first) (sound.linked _ _ second)

section
variable {path : Path} {state : State} (sound : Sound path state)
include sound

/-- A process may take up another role if it has published what it serves, and if whom it calls, or
whose file it removes, is known. -/
theorem Sound.act {process : Nat} {role : Role}
    (published : ∀ port, role = .serving port → ∃ file version, Owns state.lock process file ∧
      Record.read state.disk path = .ok (some { version, port }))
    (dialed : ∀ port later, role = .calling (.dialing port) later → ∀ owner file,
      Owns state.lock owner file → state.role owner = .serving port ∨ state.role owner = .closing)
    (removed : ∀ later, role = .calling .removing later → ∀ owner file, ¬ Owns state.lock owner file)
    (own : role = .closing ∨
      (∀ port, state.role process ≠ .serving port) ∧ state.role process ≠ .closing) :
    Sound path (state.act process role) := by
  refine ⟨sound.exclusive, sound.linked, ?_, ?_, ?_⟩
  · intro other port serving
    rw [act_role] at serving
    split at serving
    · rename_i same
      exact same ▸ published port serving
    · exact sound.published other port serving
  · intro other port later calling owner file owns
    have known : state.role owner = .serving port ∨ state.role owner = .closing := by
      rw [act_role] at calling
      split at calling
      · exact dialed port later calling owner file owns
      · exact sound.dialing other port later calling owner file owns
    rw [act_role]
    split
    · rename_i same
      subst same
      rcases own with closing | ⟨away, open'⟩
      · exact .inr closing
      · rcases known with serving | closing
        · exact (away port serving).elim
        · exact (open' closing).elim
    · exact known
  · intro other later calling
    rw [act_role] at calling
    split at calling
    · exact removed later calling
    · exact sound.removing other later calling

/-- Files and locks may change if no daemon becomes the owner during a call, and what is published
stays. A process that is not an owner any more may have stopped. -/
theorem Sound.change {next : State} (exclusive : Exclusive next.lock) (linked : Linked path next.lock)
    (roles : ∀ process, next.role process = state.role process ∨
      next.role process = .idle ∧ ∀ file, ¬ Owns next.lock process file)
    (owners : ∀ owner file, Owns next.lock owner file → Owns state.lock owner file ∨
      ∀ process call later, state.role process ≠ .calling call later)
    (served : ∀ process port file, next.role process = .serving port →
      Owns state.lock process file → Owns next.lock process file)
    (read : ∀ process port record, state.role process = .serving port →
      next.role process = .serving port → Record.read state.disk path = .ok (some record) →
        Record.read next.disk path = .ok (some record)) : Sound path next := by
  have before {process : Nat} {role : Role} (now : next.role process = role) (busy : role ≠ .idle) :
      state.role process = role := by
    rcases roles process with same | ⟨idle, _⟩
    · rw [← same, now]
    · exact (busy (now.symm.trans idle)).elim
  refine ⟨exclusive, linked, ?_, ?_, ?_⟩
  · intro process port serving
    have earlier := before serving nofun
    obtain ⟨file, version, owns, published⟩ := sound.published process port earlier
    exact ⟨file, version, served process port file serving owns, read process port _ earlier serving published⟩
  · intro process port later calling owner file owns
    have earlier := before calling nofun
    rcases owners owner file owns with owned | quiet
    · rcases roles owner with same | ⟨_, gone⟩
      · rw [same]
        exact sound.dialing process port later earlier owner file owned
      · exact (gone file owns).elim
    · exact (quiet _ _ _ earlier).elim
  · intro process later calling owner file owns
    have earlier := before calling nofun
    rcases owners owner file owns with owned | quiet
    · exact sound.removing process later earlier owner file owned
    · exact quiet _ _ _ earlier

theorem Sound.write {process : Nat} {version : UInt32} {port : UInt16} {file : FileId}
    (listening : state.role process = .listening version port) (owns : Owns state.lock process file)
    (content : ByteArray) : Sound path (state.onDisk (state.disk.writeOpened file content)) := by
  refine sound.change (sound.exclusive.onDisk _) (sound.linked.onDisk (writeOpened_stays _ _ _))
    (fun _ => .inl rfl) (fun _ _ => .inl) (fun _ _ _ _ owned => owned) ?_
  intro other another record serving _ _
  obtain ⟨held, _, owner, _⟩ := sound.published other another serving
  cases sound.owner owner owns
  rw [listening] at serving
  cases serving

end

private theorem call_preserves {path : Path} {state : State} {process : Nat} {call : Stopping}
    {later : Option UInt32} {rest : Option Stopping} {disk : Disk} (sound : Sound path state)
    (calling : state.role process = .calling call later) (step : Call path state.disk call rest disk)
    (settled : ∀ owner file, Owns state.lock owner file → ∃ port, state.role owner = .serving port)
    (answers : ∀ port, call = .dialing port → rest = some .removing → ∀ listener, ¬ Listens state listener port) :
    Sound path ((state.onDisk disk).act process (.after later rest)) := by
  have away : (∀ port, state.role process ≠ .serving port) ∧ state.role process ≠ .closing := by
    rw [calling]
    exact ⟨nofun, nofun⟩
  have done {role : Role} (idle : role = .after later none) : Sound path (state.act process role) := by
    cases later <;> exact sound.act (by rw [idle]; nofun) (by rw [idle]; nofun) (by rw [idle]; nofun) (.inr away)
  cases step with
  | absent _ => exact done rfl
  | answered => exact done rfl
  | present _ => exact sound.act nofun nofun nofun (.inr away)
  | lost missing =>
    refine sound.act nofun nofun ?_ (.inr away)
    intro _ _ owner file owns
    obtain ⟨port, serving⟩ := settled owner file owns
    obtain ⟨_, _, _, published⟩ := sound.published owner port serving
    exact missing _ published
  | @found record read =>
    refine sound.act nofun ?_ nofun (.inr away)
    rintro _ _ ⟨⟩ owner file owns
    obtain ⟨port, serving⟩ := settled owner file owns
    obtain ⟨_, _, _, published⟩ := sound.published owner port serving
    rw [read] at published
    cases published
    exact .inl serving
  | @unanswered port =>
    refine sound.act nofun nofun ?_ (.inr away)
    intro _ _ owner file owns
    obtain ⟨another, serving⟩ := settled owner file owns
    rcases sound.dialing process port later calling owner file owns with known | closing
    · exact answers port rfl rfl owner (.inr known)
    · rw [serving] at closing
      cases closing
  | removed =>
    have nobody := sound.removing process later calling
    have still : Sound path (state.onDisk (Lock.unlink path state.disk).2) := by
      refine sound.change (sound.exclusive.onDisk _) (fun owner file owns => (nobody owner file owns).elim)
        (fun _ => .inl rfl) (fun _ _ => .inl) (fun _ _ _ _ owned => owned) ?_
      intro other port _ serving _ _
      obtain ⟨file, _, owns, _⟩ := sound.published other port serving
      exact (nobody other file owns).elim
    cases later <;> exact still.act nofun nofun nofun (.inr away)

/-- A process that unlinks, unlocks or crashes is not an owner any more, and the others are as before. -/
theorem Sound.letGo {path : Path} {state next : State} {process : Nat} {event : LockExclusion.Event}
    (sound : Sound path state) (step : LockExclusion.Step path event state.lock next.lock)
    (mine : event.process? = some process) (gone : ∀ file, ¬ Owns next.lock process file)
    (away : ∀ port, next.role process ≠ .serving port)
    (roles : ∀ other, next.role other = state.role other ∨ other = process ∧ next.role other = .idle)
    (read : ∀ other port record, other ≠ process → state.role other = .serving port →
      Record.read state.disk path = .ok (some record) → Record.read next.disk path = .ok (some record)) :
    Sound path next := by
  have others {other : Nat} (different : other ≠ process) :
      next.lock.phase other = state.lock.phase other :=
    phase_other step (by rw [mine]; exact fun same => different (Option.some.inj same).symm)
  refine sound.change (LockExclusion.exclusive_preserves step sound.exclusive)
    (linked_preserves step sound.exclusive sound.linked) ?_ ?_ ?_ ?_
  · intro other
    rcases roles other with same | ⟨rfl, idle⟩
    · exact .inl same
    · exact .inr ⟨idle, gone⟩
  · intro owner file owns
    refine .inl ?_
    have different : owner ≠ process := by
      rintro rfl
      exact gone file owns
    rwa [Owns, others different] at owns
  · intro other port file serving owns
    have different : other ≠ process := by
      rintro rfl
      exact away port serving
    rwa [Owns, others different]
  · intro other port record before serving published
    have different : other ≠ process := by
      rintro rfl
      exact away port serving
    exact read other port record different before published

/-- An attempt for the lock makes no daemon an owner while somebody stops one. -/
theorem Sound.acquire {path : Path} {state : State} {process : Nat} {version : UInt32}
    {event : LockExclusion.Event} {lock : LockExclusion.State} (sound : Sound path state)
    (acquiring : state.role process = .acquiring version) (acquires : event.acquires)
    (mine : event.process? = some process) (step : LockExclusion.Step path event state.lock lock)
    (apart : ∀ owner file, Owns lock owner file → ¬ Owns state.lock owner file →
      ∀ process call later, state.role process ≠ .calling call later) : Sound path { state with lock } := by
  refine sound.change (LockExclusion.exclusive_preserves step sound.exclusive)
    (linked_preserves step sound.exclusive sound.linked) (fun _ => .inl rfl) ?_ ?_ ?_
  · intro owner file owns
    by_cases before : Owns state.lock owner file
    · exact .inl before
    · exact .inr (apart owner file owns before)
  · intro other port file serving owns
    have different : event.process? ≠ some other := by
      rw [mine]
      rintro ⟨⟩
      cases acquiring.symm.trans serving
    rwa [Owns, phase_other step different]
  · exact fun _ _ _ _ _ published => read_of_find (fun _ _ => find_grows (acquires_grows step acquires)) published

private theorem sound_preserves {path : Path} {event : Event} {state next : State}
    (step : Step path event state next) (orderly : Orderly state event next) (sound : Sound path state) :
    Sound path next := by
  have steady {process : Nat} {role : Role} (standing : state.role process = role)
      (busy : ∀ port, role ≠ .serving port) (open' : role ≠ .closing) :
      (∀ port, state.role process ≠ .serving port) ∧ state.role process ≠ .closing := by
    rw [standing]
    exact ⟨busy, open'⟩
  cases step with
  | invoke idle _ => exact sound.act nofun nofun nofun (.inr (steady idle nofun nofun))
  | start version idle _ => exact sound.act nofun nofun nofun (.inr (steady idle nofun nofun))
  | displace starting _ _ => exact sound.act nofun nofun nofun (.inr (steady starting nofun nofun))
  | proceed starting _ => exact sound.act nofun nofun nofun (.inr (steady starting nofun nofun))
  | leave acquiring _ => exact sound.act nofun nofun nofun (.inr (steady acquiring nofun nofun))
  | bind acquiring _ _ => exact sound.act nofun nofun nofun (.inr (steady acquiring nofun nofun))
  | close _ => exact sound.act nofun nofun nofun (.inl rfl)
  | call calling step =>
    refine call_preserves sound calling step (orderly.settled _ rfl) ?_
    rintro port rfl rfl
    exact orderly.answers _ port _ calling (act_role_self ..)
  | acquire acquiring acquires mine step =>
    exact sound.acquire acquiring acquires mine step fun owner file owns before =>
      orderly.apart owner file owns before
  | truncate listening owns => exact sound.write listening owns _
  | @publish _ process version port file listening owns =>
    refine (sound.write listening owns _).act ?_ nofun nofun (.inr ?_)
    · rintro _ ⟨⟩
      exact ⟨file, version, owns, read_writeOpened (sound.linked _ _ owns) _⟩
    · exact steady listening nofun nofun
  | @unlink _ process lock closing step =>
    have owns : ∃ file, Owns state.lock process file := by
      cases step with
      | unlink owns => exact ⟨_, owns⟩
    refine sound.letGo step rfl ?_ (by rw [act_role_self]; exact nofun) (act_idle _ process) ?_
    · intro file owned
      cases step with
      | unlink _ => rw [act_lock, Owns, move_phase_self] at owned; cases owned
    · intro other port _ different serving _
      obtain ⟨_, _, owner, _⟩ := sound.published other port serving
      exact (different (sound.owner owner owns.choose_spec)).elim
  | @unlock _ process lock step =>
    cases step with
    | unlock standing =>
      refine sound.letGo (.unlock standing) rfl ?_ ?_ (fun _ => .inl rfl) fun _ _ _ _ _ published => published
      · intro file owned
        rw [Owns, move_phase_self] at owned
        cases owned
      · intro port serving
        obtain ⟨_, _, owner, _⟩ := sound.published process port serving
        rw [Owns, standing] at owner
        cases owner
  | @crash _ process lock step =>
    cases step with
    | crash =>
      refine sound.letGo .crash rfl ?_ (by rw [act_role_self]; exact nofun) (act_idle _ process)
        fun _ _ _ _ _ published => published
      intro file owned
      rw [act_lock, Owns, move_phase_self] at owned
      cases owned
  | @elsewhere _ lock step =>
    have safe := LockExclusion.exclusive_preserves step sound.exclusive
    have linked := linked_preserves step sound.exclusive sound.linked
    cases step with
    | elsewhere same =>
      refine sound.change safe linked (fun _ => .inl rfl) (fun _ _ => .inl) (fun _ _ _ _ owned => owned) ?_
      exact fun _ _ _ _ _ published => read_of_find (fun _ _ => (same true).trans) published

private theorem sound_initial {path : Path} {state : State} (initial : Initial state) : Sound path state := by
  obtain ⟨exclusive, linked⟩ := @reaches_safe path _ _ initial.phase .refl
  refine ⟨exclusive, linked, ?_, ?_, ?_⟩ <;>
    · intro process
      rw [initial.role]
      exact nofun

/-- Only a stop call takes the file at the path away from a daemon. -/
theorem linked_or_removed {path : Path} {event : Event} {state next : State}
    (step : Step path event state next) (exclusive : Exclusive state.lock) (linked : Linked path state.lock) :
    Linked path next.lock ∨ ∃ process later owner file, event = .call process ∧
      state.role process = .calling .removing later ∧ Owns state.lock owner file := by
  cases step with
  | invoke | start | displace | proceed | leave | bind | close => exact .inl linked
  | truncate | publish => exact .inl (linked.onDisk (writeOpened_stays _ _ _))
  | acquire _ _ _ step | unlink _ step => exact .inl (linked_preserves step exclusive linked)
  | unlock step | crash step | elsewhere step => exact .inl (linked_preserves step exclusive linked)
  | @call _ process _ later _ _ calling step =>
    cases step with
    | absent | present | lost | found | answered | unanswered => exact .inl linked
    | removed =>
      by_cases owned : ∃ owner file, Owns state.lock owner file
      · obtain ⟨owner, file, owns⟩ := owned
        exact .inr ⟨process, later, owner, file, rfl, calling, owns⟩
      · exact .inl fun owner file owns => (owned ⟨owner, file, owns⟩).elim

/-- At every time one daemon owns the file at the path of the lock, and only the removal by a stop call
takes it away. If every step is orderly, nothing is removed while a daemon owns the lock, and one
daemon owns it. -/
theorem daemons_exclude {path : Path} {start : State} (initial : Initial start) :
    (∀ state, Reaches path start state →
      (∀ one other file another, Owns state.lock one file → Owns state.lock other another →
        Lock.isLinked state.disk path file = true → Lock.isLinked state.disk path another = true →
          one = other) ∧
      ∀ event next, Step path event state next → Linked path state.lock →
        Linked path next.lock ∨ ∃ process later owner file, event = .call process ∧
          state.role process = .calling .removing later ∧ Owns state.lock owner file) ∧
    ∀ state, OrderlyReaches path start state →
      (∀ one other file another, Owns state.lock one file → Owns state.lock other another → one = other) ∧
      Linked path state.lock ∧
      ∀ process later, state.role process = .calling .removing later →
        ∀ owner file, ¬ Owns state.lock owner file := by
  have first : Sound path start := sound_initial initial
  constructor
  · intro state reached
    have exclusive : Exclusive state.lock := by
      induction reached with
      | refl => exact first.exclusive
      | tail _ stepped ih => exact exclusive_preserves stepped.choose_spec ih
    refine ⟨fun one other file another => owner_unique exclusive, ?_⟩
    exact fun event next step linked => linked_or_removed step exclusive linked
  · intro state reached
    have sound : Sound path state := by
      induction reached with
      | refl => exact first
      | tail _ stepped ih =>
        obtain ⟨event, step, orderly⟩ := stepped
        exact sound_preserves step orderly ih
    exact ⟨fun one other file another => sound.owner, sound.linked, sound.removing⟩

/-- A stop call whose steps follow each other comes to an end with these files. -/
inductive Finishes (path : Path) : Stopping → Disk → Disk → Prop where
  | last {call disk after} : Call path disk call none after → Finishes path call disk after
  | next {call rest disk between after} : Call path disk call (some rest) between →
      Finishes path rest between after → Finishes path call disk after

private theorem connecting_finishes (path : Path) (disk : Disk) :
    Finishes path .connecting disk (Lock.unlink path disk).2 := by
  by_cases found : ∃ record, Record.read disk path = .ok (some record)
  · obtain ⟨record, read⟩ := found
    exact .next (.found read) (.next .unanswered (.last .removed))
  · exact .next (.lost fun record read => found ⟨record, read⟩) (.last .removed)

/-- A stop call in one go makes these steps; what a daemon that is reached does is another's. -/
theorem stop_finishes {σ : Type} (around : Surroundings σ) (root : Path) (state : σ)
    (lawful : ∀ disk, around.disk (around.setDisk state disk) = disk) :
    ∃ disk, Finishes (lockPath root) .reading (around.disk state) disk ∧
      ((Client.stop around root state).1 ≠ .ok .stopped →
        around.disk (Client.stop around root state).2 = disk) := by
  unfold Client.stop
  cases read : Record.read (around.disk state) (lockPath root) with
  | error error => exact ⟨_, .last (.absent (by rw [read]; nofun)), fun _ => rfl⟩
  | ok found =>
    cases found with
    | none => exact ⟨_, .last (.absent (by rw [read]; nofun)), fun _ => rfl⟩
    | some record =>
      cases connected : Client.connect around state root with
      | ok port =>
        have answered := Finishes.next (.found read) (.last .answered)
        exact ⟨_, .next (.present read) answered, fun other => (other rfl).elim⟩
      | error error => exact ⟨_, .next (.present read) (connecting_finishes _ _), fun _ => lawful _⟩

private theorem orderly_attempts {path : Path} {state : State} {process : Nat} {version : UInt32}
    {lock : LockExclusion.State} (acquiring : state.role process = .acquiring version)
    (quiet : ∀ other call later, state.role other ≠ .calling call later)
    (attempts : Attempts path process state.lock lock) : OrderlyReaches path state { state with lock } := by
  induction attempts with
  | refl => exact .refl
  | @tail before after _ stepped ih =>
    obtain ⟨event, acquires, mine, step⟩ := stepped
    refine ih.tail ⟨.lock event, .acquire acquiring acquires mine step, nofun, ?_, ?_⟩
    · exact fun _ _ _ _ => quiet
    · exact fun other port later calling _ => (quiet other _ _ calling).elim

structure Vacant (state : State) : Prop where
  unowned : ∀ owner file, ¬ Owns state.lock owner file
  silent : ∀ listener port, ¬ Listens state listener port

theorem Initial.vacant {state : State} (initial : Initial state) : Vacant state := by
  refine ⟨fun owner file owns => ?_, ?_⟩
  · rw [Owns, initial.phase] at owns
    cases owns
  · rintro listener port (⟨version, listening⟩ | serving)
    · rw [initial.role] at listening
      cases listening
    · rw [initial.role] at serving
      cases serving

theorem Vacant.act {state : State} (vacant : Vacant state) (process : Nat) {role : Role}
    (unheard : ∀ version port, role ≠ .listening version port ∧ role ≠ .serving port) :
    Vacant (state.act process role) := by
  refine ⟨vacant.unowned, fun listener port listens => ?_⟩
  by_cases same : listener = process
  · subst same
    rcases listens with ⟨version, listening⟩ | serving
    · exact (unheard version port).1 (by rwa [act_role_self] at listening)
    · exact (unheard 0 port).2 (by rwa [act_role_self] at serving)
  · refine vacant.silent listener port ?_
    rwa [Listens, act_role_other state role same] at listens

theorem Vacant.orderly {state next : State} {event : Event} (before : Vacant state) (after : Vacant next) :
    Orderly state event next where
  settled _ _ owner file owns := (before.unowned owner file owns).elim
  apart owner file owns := (after.unowned owner file owns).elim
  answers _ port _ _ _ listener := before.silent listener port

theorem Vacant.tail {path : Path} {start state : State} (reached : OrderlyReaches path start state)
    (vacant : Vacant state) {event : Event} {process : Nat} {role : Role}
    (step : Step path event state (state.act process role))
    (unheard : ∀ version port, role ≠ .listening version port ∧ role ≠ .serving port) :
    OrderlyReaches path start (state.act process role) ∧ Vacant (state.act process role) := by
  have later := vacant.act process unheard
  exact ⟨reached.tail ⟨event, step, vacant.orderly later⟩, later⟩

/-- A client that reaches nobody removes the lock file that a crashed daemon left. -/
theorem orderly_removal {path : Path} {state : State} (initial : Initial state) {record : Record}
    (stale : Record.read state.disk path = .ok (some record)) :
    ∃ next, OrderlyReaches path state next ∧ Initial next ∧
      next.lock = state.lock.onDisk (Lock.unlink path state.disk).2 := by
  have free : (state.lock.phase 0).isFree = true := by rw [initial.phase]; rfl
  have unheard {call : Stopping} (version : UInt32) (port : UInt16) :
      Role.calling call none ≠ .listening version port ∧ Role.calling call none ≠ .serving port :=
    ⟨nofun, nofun⟩
  obtain ⟨reached, vacant⟩ := initial.vacant.tail .refl (@Step.invoke path _ _ (initial.role 0) free) unheard
  obtain ⟨reached, vacant⟩ := vacant.tail reached (.call (act_role_self ..) (.present stale)) unheard
  obtain ⟨reached, vacant⟩ := vacant.tail reached (.call (act_role_self ..) (.found stale)) unheard
  obtain ⟨reached, vacant⟩ := vacant.tail reached (.call (act_role_self ..) .unanswered) unheard
  refine ⟨_, reached.tail ⟨_, .call (act_role_self _ 0 _) .removed, vacant.orderly (Initial.vacant ?ended)⟩,
    ?ended, rfl⟩
  refine ⟨initial.phase, fun other => ?_⟩
  by_cases same : other = 0
  · subst same
    exact act_role_self ..
  · refine (act_role_other _ _ same).trans ?_
    simp only [State.onDisk, act_role_other _ _ same]
    exact initial.role other

/-- Where no record is found, the next daemon gets the lock. -/
theorem orderly_start {path : Path} {state : State} (initial : Initial state) (process : Nat)
    {file : FileId} (gone : ∀ record, Record.read state.disk path ≠ .ok (some record))
    (taken : (Lock.acquire path state.lock.space).1 = .ok (some { path, file := some file })) :
    ∃ next, OrderlyReaches path state next ∧ Owns next.lock process file := by
  have free : (state.lock.phase process).isFree = true := by rw [initial.phase]; rfl
  obtain ⟨reached, vacant⟩ := initial.vacant.tail .refl (@Step.start path _ _ 1 (initial.role process) free)
    fun _ _ => ⟨nofun, nofun⟩
  obtain ⟨reached, vacant⟩ := vacant.tail reached (.proceed (act_role_self ..) fun record read =>
    (gone record read).elim) fun _ _ => ⟨nofun, nofun⟩
  have quiet (other : Nat) (call : Stopping) (later : Option UInt32) :
      ((state.act process (.starting 1)).act process (.acquiring 1)).role other ≠ .calling call later := by
    by_cases same : other = process
    · subst same
      rw [act_role_self]
      exact nofun
    · rw [act_role_other _ _ same, act_role_other _ _ same, initial.role]
      exact nofun
  obtain ⟨standing, attempts, acquired⟩ := @attempts_acquire path state.lock process (initial.phase process)
  refine ⟨_, reached.trans (orderly_attempts (act_role_self ..) quiet attempts), ?_⟩
  rw [Owns, move_phase_self]
  exact (acquired file).mpr taken

def leftover : State :=
  { lock := {
      space := {
        disk := {
          entries := [(["r"], .directory), (["r", ".stagefmt"], .directory),
            (["r", ".stagefmt", "daemon.lock"], .file 0 plainMode "1 40000".toUTF8)]
          fresh := 1 }
        held := [] }
      phase := fun _ => .idle }
    role := fun _ => .idle }

theorem daemons_exclude_leftover : ∃ state,
    OrderlyReaches (lockPath ⟨"/r"⟩) leftover state ∧ Owns state.lock 1 1 ∧
      Lock.isLinked state.disk (lockPath ⟨"/r"⟩) 1 = true ∧
      ∀ process file, Owns state.lock process file → process = 1 := by
  have initial : Initial leftover := ⟨fun _ => rfl, fun _ => rfl⟩
  have stale : Record.read leftover.disk (lockPath ⟨"/r"⟩) = .ok (some ⟨1, 40000⟩) :=
    read_eq_some.mpr ⟨"1 40000", by rfl, RecordTexts.parse_text ⟨1, 40000⟩⟩
  obtain ⟨cleared, removed, settled, lock⟩ := orderly_removal initial stale
  have nothing : Record.read (Lock.unlink (lockPath ⟨"/r"⟩) leftover.disk).2 (lockPath ⟨"/r"⟩) = .ok none := by rfl
  have gone (record : Record) : Record.read cleared.disk (lockPath ⟨"/r"⟩) ≠ .ok (some record) := by
    rw [State.disk, lock]
    intro found
    cases nothing.symm.trans found
  have taken : (Lock.acquire (lockPath ⟨"/r"⟩) cleared.lock.space).1 =
      .ok (some { path := lockPath ⟨"/r"⟩, file := some 1 }) := by
    rw [lock]
    rfl
  obtain ⟨state, started, owns⟩ := orderly_start settled 1 gone taken
  have reached := removed.trans started
  obtain ⟨_, orderly⟩ := @daemons_exclude (lockPath ⟨"/r"⟩) leftover initial
  obtain ⟨one, linked, _⟩ := orderly state reached
  exact ⟨state, reached, owns, linked 1 1 owns, fun process file owner => one _ _ _ _ owner owns⟩

def isolated : Host :=
  { workspace := {
      disk := { entries := [(["r"], .directory)], fresh := 0 }
      repository := { root := ⟨"/r"⟩ } }
    loopback := false }

def ofVersion (version : UInt32) : Config := { Config.standard ⟨"/r"⟩ {} with version }

/-- The later daemon takes the earlier one for gone and removes its lock file. Both go on, each with a
file that it has locked. -/
theorem daemons_side_by_side :
    let host := ((isolated.start (ofVersion 1)).2.start (ofVersion 2)).2
    host.servers.map (fun server => (server.2.version, server.2.lock)) =
        [(2, { path := lockPath ⟨"/r"⟩, file := some 1 }), (1, { path := lockPath ⟨"/r"⟩, file := some 0 })] ∧
      host.held = [1, 0] ∧
      Lock.isLinked host.workspace.disk (lockPath ⟨"/r"⟩) 0 = false := by
  decide +kernel

end StagedFormat.Proofs.DaemonExclusion
