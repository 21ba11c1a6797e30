import StagedFormat.Proofs.VersionHandOff

/-! When a daemon of a later version is told that another one has the lock. The fixed time that it gives the
earlier one need not be enough, so it may be turned away by a daemon that is about to go. -/

namespace StagedFormat.Proofs.HandOffRefusal
open StagedFormat Daemon DiskSkeleton StartupLeftovers LockSite DaemonDeparture VersionHandOff
open LockExclusion (Phase Holds phase_other move_move move_space move_phase_self answer acquire_made answer_space)
open DaemonExclusion (leftover isolated ofVersion)

/-! ### The later daemon's steps in one go -/

section
variable (services : Services) {path : Path} {version : UInt32}

def remaining : Lock.Attempt → Nat
  | .opening left => 4 * left + 1
  | .stale _ left => 4 * left + 2
  | .checking _ left => 4 * left + 3
  | .locking _ left => 4 * left + 4
  | _ => 0

private theorem remaining_step (attempt : Lock.Attempt) (space : LockSpace) :
    remaining (attempt.step path space).1 ≤ remaining attempt - 1 := by
  cases attempt with
  | opening left =>
    cases left with
    | zero => exact Nat.zero_le _
    | succ left =>
      simp only [Lock.Attempt.step]
      split <;> simp only [remaining] <;> omega
  | locking file left | checking file left =>
    simp only [Lock.Attempt.step]
    split <;> simp only [remaining] <;> omega
  | stale | acquired | refused | failed => exact Nat.le_refl _

private theorem remaining_run {steps : Nat} {attempt : Lock.Attempt} (enough : remaining attempt ≤ steps)
    (space : LockSpace) : remaining (Lock.Attempt.run path steps attempt space).1 = 0 := by
  induction steps generalizing attempt space with
  | zero => exact Nat.le_zero.mp enough
  | succ steps ih =>
    have fewer := @remaining_step path attempt space
    exact ih (fewer.trans (by omega)) _

private theorem acquire_ready {space : LockSpace} (ready : space.disk.makeDirectories (above path) = .ok space.disk) :
    Lock.acquire path space =
      answer path (Lock.Attempt.run path (4 * attemptLimit + 1) (.opening attemptLimit) space) := by
  obtain ⟨disk, held⟩ := space
  exact acquire_made ready

/-- Who tries to take the lock is told that another one has it exactly if the attempt is refused. -/
theorem answer_none_iff {outcome : Lock.Attempt × LockSpace} (finished : remaining outcome.1 = 0) :
    (answer path outcome).1 = .ok none ↔ outcome.1 = .refused := by
  obtain ⟨attempt, _⟩ := outcome
  cases attempt <;> simp [answer, remaining] at finished ⊢

section
variable {state : State} (newer : state.newer = .acquiring)
include newer

private theorem tries_step {attempt after : Lock.Attempt} {space next : LockSpace}
    (stepped : attempt.step path space = (after, next)) :
    Step services path version (state.withLock (state.lock.move 1 (.attempting attempt) space))
      (state.withLock (state.lock.move 1 (.attempting after) next)) := by
  have tried : LockExclusion.Step path (.attempt 1) (state.lock.move 1 (.attempting attempt) space) _ :=
    .attempt (move_phase_self ..)
  rw [move_move, move_space, stepped] at tried
  exact .attempts newer tried

private theorem reaches_run (steps : Nat) (attempt : Lock.Attempt) (space : LockSpace) :
    Reaches services path version (state.withLock (state.lock.move 1 (.attempting attempt) space))
      (state.withLock (state.lock.move 1 (.attempting (Lock.Attempt.run path steps attempt space).1)
        (Lock.Attempt.run path steps attempt space).2)) := by
  induction steps generalizing attempt space with
  | zero => exact .refl
  | succ steps ih => exact .head (tries_step services newer rfl) (ih _ _)

variable (idle : state.phase 1 = .idle)
include idle

private theorem reaches_opening : Reaches services path version state
    (state.withLock (state.lock.move 1 (.attempting (.opening attemptLimit)) state.lock.space)) := by
  have free : (state.lock.phase 1).isFree := by
    rw [show state.lock.phase 1 = .idle from idle]
    rfl
  have begun : Step services path version state _ := .begins newer idle (.begin free)
  have prepared : LockExclusion.Step path (.prepared 1) (state.lock.move 1 .preparing state.lock.space) _ :=
    .prepared (move_phase_self ..)
  rw [move_move, move_space] at prepared
  exact .head begun (.single (.prepares newer prepared))

/-- When the time is over, the later daemon takes the lock or is told that another one has it. -/
theorem reaches_acquire (ready : state.disk.makeDirectories (above path) = .ok state.disk) :
    ∃ attempt, Reaches services path version state
        (state.withLock (state.lock.move 1 (.attempting attempt) (Lock.acquire path state.lock.space).2)) ∧
      ((Lock.acquire path state.lock.space).1 = .ok none ↔ attempt = .refused) := by
  have taken : Lock.acquire path state.lock.space = _ := acquire_ready ready
  have ran := @reaches_run services path version state newer (4 * attemptLimit + 1) (.opening attemptLimit)
    state.lock.space
  have finished := @remaining_run path (4 * attemptLimit + 1) (.opening attemptLimit) (Nat.le_refl _)
    state.lock.space
  rw [taken, answer_space]
  exact ⟨_, (reaches_opening services newer idle).trans ran, answer_none_iff finished⟩

private theorem turned_away {root : Path} {location : Location} {file : FileId}
    (site : ∃ mode content, Site root state.disk location (some (.file file mode content)))
    (held : file ∈ state.held) :
    ∃ middle next, Reaches services (lockPath root) version state middle ∧
      Step services (lockPath root) version middle next ∧
      middle.phase 1 ≠ .attempting .refused ∧ next.phase 1 = .attempting .refused := by
  obtain ⟨mode, content, site⟩ := site
  have opened : Lock.Attempt.step (lockPath root) (.opening attemptLimit) state.lock.space =
      (.locking file 2, state.lock.space) := by
    have found : state.lock.space.disk.openOrCreate (lockPath root) = .ok (file, state.disk) :=
      openOrCreate_file (slashless_lockPath root) (site true)
    rw [attemptLimit, Lock.Attempt.step, found]
    rfl
  have locked : Lock.Attempt.step (lockPath root) (.locking file 2) state.lock.space =
      (.refused, state.lock.space) := if_pos (List.contains_iff_mem.mpr held)
  refine ⟨_, _, (reaches_opening services newer idle).tail (tries_step services newer opened),
    tries_step services newer locked, ?_, tried_newer ..⟩
  rw [tried_newer]
  intro same
  cases same

end

end

/-! ### The later daemon is refused -/

structure Running (situation : Situation) (start : State) : Prop where
  owns : start.phase 0 = .attempting (.acquired situation.file)
  others : ∀ process, process ≠ 0 → start.phase process = .idle
  held : start.held = [situation.file]
  issued : situation.file < start.disk.fresh
  record : recordOf start.older.server = situation.record
  site : ∃ mode, Site situation.root start.disk situation.location
    (some (.file situation.file mode situation.record.text.toUTF8))
  newer : start.newer = .starting
  asked : start.asked = none

theorem Running.sound {start : State} (running : Running situation start) : Sound situation start := by
  have own {process : Nat} {file : FileId} (holds : Holds start.lock process file) :
      process = 0 ∧ file = situation.file := by
    by_cases same : process = 0
    · subst same
      rw [Holds, show start.lock.phase 0 = _ from running.owns] at holds
      exact ⟨rfl, (Option.some.inj holds).symm⟩
    · rw [Holds, show start.lock.phase process = _ from running.others process same] at holds
      cases holds
  refine ⟨⟨?locked, ?alone⟩, ?once, ?holders, running.issued, running.record, fun _ holds => (own holds).2,
    .inl ⟨running.owns, running.site⟩, ?request, ?newer, ?attempt⟩
  case locked =>
    intro process file holds
    change file ∈ start.held
    rw [running.held, (own holds).2]
    exact List.mem_singleton_self _
  case alone => exact fun one other file first second => (own first).1.trans (own second).1.symm
  case once =>
    rw [running.held]
    exact List.pairwise_singleton _ _
  case holders =>
    intro file member
    rw [running.held] at member
    rw [List.mem_singleton.mp member]
    exact .inl (congrArg Phase.file? running.owns)
  case request =>
    intro since asked
    cases running.asked.symm.trans asked
  case newer =>
    rw [running.newer]
    exact running.others 1 Nat.one_ne_zero
  case attempt =>
    intro attempt attempts
    cases (running.others 1 Nat.one_ne_zero).symm.trans attempts

theorem Running.asks {start : State} (running : Running situation start) (services : Services)
    (older : situation.record.version < situation.version) (listens : start.listens = true) :
    Reaches services (lockPath situation.root) situation.version start
      { start with
        older.backlog := start.older.backlog ++ [exitRequest]
        newer := .resting start.now
        asked := some start.now } := by
  have published : Published situation start := ⟨running.owns, running.site⟩
  have displaced : Step services (lockPath situation.root) situation.version start
      { start with newer := .calling .reading } := .displaces running.newer published.read older
  have found : Step services (lockPath situation.root) situation.version
      { start with newer := .calling .connecting }
      { start with newer := .calling (.dialing situation.record.port) } := .calls rfl (.found published.read) nofun
  have connects : Step services (lockPath situation.root) situation.version
      { start with newer := .calling (.dialing situation.record.port) } _ :=
    .connects (by rw [← running.record]; rfl) listens
  exact .head displaced (.head (.calls rfl (.present published.read) nofun) (.head found (.head connects
    (.single (.asks rfl)))))

/-- An attempt that can be made often enough is refused for one reason only. -/
theorem refused_cases {path : Path} {attempt : Lock.Attempt} {space : LockSpace} (pending : attempt ≠ .refused)
    (refused : (attempt.step path space).1 = .refused) :
    attempt = .opening 0 ∨ ∃ file left, attempt = .locking file left ∧ file ∈ space.held ∧
      (attempt.step path space).2 = space := by
  cases attempt with
  | opening left =>
    cases left with
    | zero => exact .inl rfl
    | succ left =>
      simp only [Lock.Attempt.step] at refused
      split at refused <;> cases refused
  | locking file left =>
    simp only [Lock.Attempt.step, List.contains_iff_mem] at refused ⊢
    by_cases taken : file ∈ space.held
    · exact .inr ⟨file, left, rfl, taken, by rw [if_pos taken]⟩
    · rw [if_neg taken] at refused
      cases refused
  | checking file left =>
    simp only [Lock.Attempt.step] at refused
    split at refused <;> cases refused
  | stale | acquired | failed => cases refused
  | refused => exact absurd rfl pending

private theorem step_refused {services : Services} {path : Path} {version : UInt32} {state next : State}
    (step : Step services path version state next) (pending : state.phase 1 ≠ .attempting .refused)
    (refused : next.phase 1 = .attempting .refused) :
    ∃ attempt lock, state.phase 1 = .attempting attempt ∧
      LockExclusion.Step path (.attempt 1) state.lock lock ∧ next = state.withLock lock ∧
      lock.phase 1 = .attempting (attempt.step path state.lock.space).1 ∧
      lock.space = (attempt.step path state.lock.space).2 := by
  have kept {event : LockExclusion.Event} {lock : LockExclusion.State}
      (step : LockExclusion.Step path event state.lock lock) (other : event.process? ≠ some 1) :
      lock.phase 1 = state.phase 1 := phase_other step other
  cases step with
  | works | closes | displaces | proceeds | calls | connects | asks | breaks | misses | removes | rested =>
    exact absurd refused pending
  | unlinks _ step => exact absurd ((kept step (by decide)).symm.trans refused) pending
  | unlocks step => exact absurd ((kept step (by decide)).symm.trans refused) pending
  | begins _ _ step =>
    cases step with
    | begin =>
      rw [withLock_phase, move_phase_self] at refused
      cases refused
  | prepares _ step =>
    cases step with
    | prepared =>
      rw [withLock_phase, move_phase_self] at refused
      cases refused
  | attempts _ step =>
    have attempted := step
    cases step with
    | attempt standing =>
      exact ⟨_, _, standing, attempted, rfl, move_phase_self .., rfl⟩

/-- The later daemon is refused only while the earlier one has the lock. If that one should give way, it
was asked to, was given its time, and goes as soon as it has got to the request: it does not stay, but it
may be that neither of them is left. -/
theorem refused_by_departing {services : Services} {start state next : State} (running : Running situation start)
    (reaches : Reaches services (lockPath situation.root) situation.version start state)
    (step : Step services (lockPath situation.root) situation.version state next)
    (pending : state.phase 1 ≠ .attempting .refused) (refused : next.phase 1 = .attempting .refused) :
    Holds next.lock 0 situation.file ∧ situation.file ∈ next.held ∧
      (situation.version ≤ next.older.server.version ∨
        (∃ since, next.asked = some since ∧ since + handoffWait ≤ next.now) ∧
          Departing services next.older) := by
  have sound := running.sound.reaches reaches
  obtain ⟨attempt, lock, standing, attempted, rfl, second, space⟩ := step_refused step pending refused
  have unfinished : attempt ≠ .refused := fun same => pending (same ▸ standing)
  have known := sound.attempt attempt standing
  rcases refused_cases unfinished (Phase.attempting.inj (second.symm.trans refused)) with
    rfl | ⟨file, left, rfl, taken, same⟩
  · exact absurd known (Nat.not_succ_le_zero _)
  · have first : lock.phase 0 = state.phase 0 := phase_other attempted (by decide)
    have mine : Holds state.lock 0 file := by
      refine (sound.holders file taken).resolve_right fun theirs => ?_
      rw [Holds, show state.lock.phase 1 = _ from standing] at theirs
      cases theirs
    have own := sound.own file mine
    subst own
    have kept : Holds (state.withLock lock).lock 0 situation.file := by
      rw [withLock_lock, Holds, first]
      exact mine
    have version : (state.withLock lock).older.server.version = situation.record.version :=
      congrArg Record.version sound.record
    rw [version]
    refine ⟨kept, ?_, (known.1 rfl).imp_right ?_⟩
    · change situation.file ∈ lock.space.held
      rw [space, same]
      exact taken
    · rintro ⟨since, asked, waited⟩
      have leaves : Leaves (state.withLock lock).older := sound.request since asked
      exact ⟨⟨since, asked, waited⟩, leaves.departing services⟩

/-- Wherever the earlier daemon stands, it can be that it outlasts the time that it is given. -/
theorem Running.refused {start : State} (running : Running situation start) (services : Services)
    (older : situation.record.version < situation.version) (listens : start.listens = true) :
    ∃ state next, Reaches services (lockPath situation.root) situation.version start state ∧
      Step services (lockPath situation.root) situation.version state next ∧
      state.phase 1 ≠ .attempting .refused ∧ next.phase 1 = .attempting .refused := by
  have asked := running.asks services older listens
  have passed := asked.tail (.works (.passes handoffWait) (apart_refl _ _))
  have rested := passed.tail (.rested rfl (Nat.le_refl _))
  obtain ⟨mode, site⟩ := running.site
  have held : situation.file ∈ start.held := running.held ▸ List.mem_singleton_self _
  have away := @turned_away services situation.version
    { start with
      older := { start.older with
        backlog := start.older.backlog ++ [exitRequest]
        now := start.now + handoffWait }
      newer := .acquiring
      asked := some start.now }
    rfl (running.others 1 Nat.one_ne_zero) situation.root situation.location situation.file ⟨mode, _, site⟩ held
  obtain ⟨state, next, tried, step, pending, refused⟩ := away
  exact ⟨state, next, rested.trans tried, step, pending, refused⟩

def busy : State where
  older := {
    now := 0
    server := {
      version := 1
      port := 40000
      limits := Limits.ofSettings {}
      lock := { path := lockPath ⟨"/r"⟩, file := some 0 }
      startedAt := ""
      started := 0
      lastCommand := 0
      nextCheck := 0 }
    workspace := { disk := leftover.disk, repository := { root := ⟨"/r"⟩ } }
    current := some .silent }
  listens := true
  held := [0]
  phase
    | 0 => .attempting (.acquired 0)
    | _ => .idle

def busySituation : Situation where
  root := ⟨"/r"⟩
  version := 2
  location := ["r", ".stagefmt", "daemon.lock"]
  file := 0
  record := ⟨1, 40000⟩

private theorem running_busy : Running busySituation busy := by
  have text : (Record.text ⟨1, 40000⟩).toUTF8 = "1 40000".toUTF8 := by rfl
  have site : Site ⟨"/r"⟩ leftover.disk ["r", ".stagefmt", "daemon.lock"]
      (some (.file 0 Disk.plainMode (Record.text ⟨1, 40000⟩).toUTF8)) := by
    rw [text]
    intro follow
    cases follow <;> rfl
  refine ⟨rfl, ?_, rfl, by decide, rfl, ⟨Disk.plainMode, site⟩, rfl, rfl⟩
  rintro (_ | process) other
  · exact absurd rfl other
  · rfl

theorem refused_by_departing_busy : ∃ state next,
    Running busySituation busy ∧ Reaches (ofVersion 1).services (lockPath ⟨"/r"⟩) 2 busy state ∧
      Step (ofVersion 1).services (lockPath ⟨"/r"⟩) 2 state next ∧
      state.phase 1 ≠ .attempting .refused ∧ next.phase 1 = .attempting .refused ∧
      Holds next.lock 0 0 ∧ 0 ∈ next.held ∧
      (∃ since, next.asked = some since ∧ since + handoffWait ≤ next.now) ∧
      Departing (ofVersion 1).services next.older := by
  obtain ⟨state, next, reaches, step, pending, refused⟩ :=
    running_busy.refused (ofVersion 1).services (by decide) rfl
  obtain ⟨holds, held, later⟩ := refused_by_departing running_busy reaches step pending refused
  have version : next.older.server.version = 1 :=
    congrArg Record.version ((running_busy.sound.reaches reaches).step step).record
  obtain ⟨asked, departing⟩ := later.resolve_left (by rw [version]; decide)
  exact ⟨state, next, running_busy, reaches, step, pending, refused, holds, held, asked, departing⟩

/-- The daemon that is asked to exit waits for a silent client longer than it is given time. The later one
is refused, and when the earlier one has ended none is left. -/
theorem neither_left :
    let host := ({ isolated with loopback := true }.start (ofVersion 1)).2.openSilent 40000
    let refused := host.start (ofVersion 2)
    refused.1.toOption = some .alreadyRunning ∧
      refused.2.servers.map (fun server => (server.2.version, server.2.lock)) =
        [(1, { path := lockPath ⟨"/r"⟩, file := some 0 })] ∧
      refused.2.held = [0] ∧ Lock.isLinked refused.2.workspace.disk (lockPath ⟨"/r"⟩) 0 = true ∧
      refused.2.hangUp.outcome? 40000 = some .exitCommand ∧
      refused.2.hangUp.servers.map (fun server => server.2.version) = [] := by
  decide +kernel

end StagedFormat.Proofs.HandOffRefusal
