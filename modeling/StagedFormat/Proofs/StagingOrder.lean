import Mathlib.Algebra.Order.BigOperators.Group.Finset
import StagedFormat.Proofs.RepositoryEffects

/-! Calls that stage content at the same time, in every order of their steps. Objects are stored as the
calls come, and the index is updated under a lock: its updates are those of the calls that succeed, in the
order in which these took the lock. -/

namespace StagedFormat.Proofs.StagingOrder
open StagedFormat Git RepositoryEffects

structure Call where
  path : Path
  mode : String
  content : String

def Call.update (call : Call) (repository : Repository) : IndexUpdate :=
  ⟨call.mode, objectName repository call.content.toUTF8, call.path⟩

def Call.logged (call : Call) (repository : Repository) : IndexUpdate := recorded (call.update repository)

def Call.object (call : Call) (repository : Repository) : String × ByteArray :=
  (repository.hash call.content.toUTF8, call.content.toUTF8)

inductive Phase where
  | storing
  /-- Its object is stored, and it waits for the lock. -/
  | waiting (hash : String)
  | locked (hash : String)
  /-- It has begun to update the index. -/
  | updating (hash : String)
  /-- The update has ended, or was not begun since the lock is poisoned. -/
  | releasing (result : Except WriteFault Unit)
  | returned (result : Except WriteFault Unit)

namespace Phase

def holds : Phase → Bool
  | .locked _ | .updating _ | .releasing _ => true
  | _ => false

def result? : Phase → Option (Except WriteFault Unit)
  | .releasing result | .returned result => some result
  | _ => none

def remaining : Phase → Nat
  | .storing => 5
  | .waiting _ => 4
  | .locked _ => 3
  | .updating _ => 2
  | .releasing _ => 1
  | .returned _ => 0

def Returned (phase : Phase) : Prop := ∃ result, phase = .returned result

def Succeeded (phase : Phase) : Prop := phase.result? = some (.ok ())

def Crashed (phase : Phase) : Prop := ∃ message, phase.result? = some (.error (.crashed message))

def Refused (phase : Phase) : Prop := phase.result? = some (.error (.failed .indexLockPoisoned))

instance (phase : Phase) : Decidable phase.Succeeded :=
  match result : phase.result? with
  | some (.ok ()) => .isTrue result
  | some (.error _) | none => .isFalse (by simp [Succeeded, result])

end Phase

structure State (count : Nat) where
  workspace : Workspace
  phase : Fin count → Phase := fun _ => .storing
  /-- Who has the lock of the index. -/
  holder : Option (Fin count) := none
  /-- The calls that have taken the lock, the latest last. -/
  entered : List (Fin count) := []

def stored : Except GitError String → Phase
  | .ok hash => .waiting hash
  | .error error => .returned (.error (.failed (.git error)))

/-- With a poisoned lock, all that is left to do is to let go of it. -/
def admitted (poisoned : Bool) (hash : String) : Phase :=
  if poisoned then .releasing (.error (.failed .indexLockPoisoned)) else .locked hash

namespace State

variable {count : Nat}

def move (state : State count) (call : Fin count) (phase : Phase) (workspace : Workspace) : State count :=
  { state with phase := Function.update state.phase call phase, workspace }

/-- One call takes its next step; one that waits for the lock stays where it is while another has it. -/
def turn (root : Path) (calls : Fin count → Call) (state : State count) (call : Fin count) : State count :=
  match state.phase call with
  | .storing =>
    let (answer, next) := state.workspace.gitText root (.writeBlob (calls call).content.toUTF8)
    state.move call (stored answer) next
  | .waiting hash =>
    if state.holder.isSome then state
    else
      { state.move call (admitted state.workspace.poisoned hash) state.workspace with
        holder := some call
        entered := state.entered ++ [call] }
  | .locked hash => state.move call (.updating hash) state.workspace
  | .updating hash =>
    let (answer, next) := state.workspace.updateIndex root (calls call).mode hash (calls call).path
    state.move call (.releasing answer) next
  | .releasing result => { state.move call (.returned result) state.workspace with holder := none }
  | .returned _ => state

def run (root : Path) (calls : Fin count → Call) (state : State count) (schedule : List (Fin count)) :
    State count := schedule.foldl (turn root calls) state

/-- The calls whose update of the index was made, the latest last. -/
def performed (state : State count) : List (Fin count) :=
  state.entered.filter fun call => (state.phase call).Succeeded

@[simp] theorem move_workspace (state : State count) (call : Fin count) (phase : Phase)
    (workspace : Workspace) : (state.move call phase workspace).workspace = workspace := rfl

@[simp] theorem move_entered (state : State count) (call : Fin count) (phase : Phase)
    (workspace : Workspace) : (state.move call phase workspace).entered = state.entered := rfl

@[simp] theorem move_holder (state : State count) (call : Fin count) (phase : Phase)
    (workspace : Workspace) : (state.move call phase workspace).holder = state.holder := rfl

@[simp] theorem move_phase_self (state : State count) (call : Fin count) (phase : Phase)
    (workspace : Workspace) : (state.move call phase workspace).phase call = phase := Function.update_self ..

@[simp] theorem move_phase_other (state : State count) {call other : Fin count} (phase : Phase)
    (workspace : Workspace) (different : other ≠ call) :
    (state.move call phase workspace).phase other = state.phase other := Function.update_of_ne different ..

end State

def Ended (call : Call) (repository : Repository) (poisoned : Bool) : Except WriteFault Unit → Prop
  | .ok () => True
  | .error (.crashed _) | .error (.failed .indexLockPoisoned) => poisoned = true
  | .error (.failed (.git fault)) =>
    commandOf fault = (Command.updateIndex call.mode (call.update repository).hash call.path).line
  | .error (.failed _) => False

/-- How a call ends whose object was not stored. -/
def Unstored (call : Call) (result : Except WriteFault Unit) : Prop :=
  ∃ fault, result = .error (.failed (.git fault)) ∧
    commandOf fault = (Command.writeBlob call.content.toUTF8).line

section
variable {count : Nat} (calls : Fin count → Call) (start : Workspace)

/-- What is known of a call by the phase that it is in. -/
def Fits (state : State count) (call : Fin count) : Phase → Prop
  | .storing => call ∉ state.entered
  | .waiting hash =>
    call ∉ state.entered ∧ hash = ((calls call).update start.repository).hash ∧
      (calls call).object start.repository ∈ state.workspace.repository.objects
  | .locked hash | .updating hash =>
    state.holder = some call ∧ state.workspace.poisoned = false ∧
      hash = ((calls call).update start.repository).hash
  | .releasing result =>
    state.holder = some call ∧ Ended (calls call) start.repository state.workspace.poisoned result
  | .returned result =>
    call ∈ state.entered ∧ Ended (calls call) start.repository state.workspace.poisoned result ∨
      call ∉ state.entered ∧ Unstored (calls call) result

/-- What every state has in common that a workspace gets into. -/
structure Sound (state : State count) : Prop where
  fits : ∀ call, Fits calls start state call (state.phase call)
  holds : ∀ call, state.holder = some call → (state.phase call).holds = true
  last : ∀ call, state.holder = some call → ∃ before, state.entered = before ++ [call]
  once : state.entered.Nodup
  frame : state.workspace =
    { start with repository := state.workspace.repository, poisoned := state.workspace.poisoned }
  grows : ∃ stored, Grows start.repository state.workspace.repository stored
    (state.performed.map fun call => (calls call).logged start.repository)
  stored : ∀ call ∈ state.entered,
    (calls call).object start.repository ∈ state.workspace.repository.objects
  poisoned : start.poisoned = true → state.workspace.poisoned = true
  refusals : state.entered.Pairwise fun earlier later =>
    (state.phase earlier).Crashed → (state.phase later).Refused
  refused : start.poisoned = true → ∀ call ∈ state.entered, (state.phase call).Refused

private theorem sound_start : Sound calls start ({ workspace := start } : State count) where
  fits _ := List.not_mem_nil
  holds := nofun
  last := nofun
  once := .nil
  frame := rfl
  grows := ⟨[], .idle _ _⟩
  stored := nofun
  poisoned same := same
  refusals := .nil
  refused _ := nofun

end

section
variable {count : Nat} {calls : Fin count → Call} {start : Workspace} {state next : State count}

theorem Ended.keeps {call : Call} {repository : Repository} {result : Except WriteFault Unit}
    {poisoned later : Bool} (ended : Ended call repository poisoned result)
    (kept : poisoned = true → later = true) : Ended call repository later result := by
  rcases result with ((error | error | error | error | error) | message) | done
  all_goals first | exact ended | exact kept ended

/-- What is known of a call stays known while others take their turns. -/
theorem Fits.keeps {call : Fin count} {phase : Phase} (fits : Fits calls start state call phase)
    (entered : call ∈ next.entered ↔ call ∈ state.entered)
    (held : state.holder = some call →
      next.holder = some call ∧ next.workspace.poisoned = state.workspace.poisoned)
    (objects : ∀ object ∈ state.workspace.repository.objects, object ∈ next.workspace.repository.objects)
    (poisoned : state.workspace.poisoned = true → next.workspace.poisoned = true) :
    Fits calls start next call phase := by
  cases phase with
  | storing => exact mt entered.mp fits
  | waiting hash => exact ⟨mt entered.mp fits.1, fits.2.1, objects _ fits.2.2⟩
  | locked hash | updating hash =>
    obtain ⟨holds, calm, named⟩ := fits
    exact ⟨(held holds).1, (held holds).2.trans calm, named⟩
  | releasing result => exact ⟨(held fits.1).1, fits.2.keeps poisoned⟩
  | returned result =>
    exact fits.imp (.imp entered.mpr (·.keeps poisoned)) (.imp_left (mt entered.mp))

private theorem objects_of_grows {before after : Repository} {stored : List (String × ByteArray)}
    {logged : List IndexUpdate} (grows : Grows before after stored logged) :
    ∀ object ∈ before.objects, object ∈ after.objects := by
  obtain ⟨_, rfl⟩ := grows
  exact fun _ => List.mem_append_right stored

namespace Sound
variable (sound : Sound calls start state)
include sound

private theorem holder_of_holds {call : Fin count} (holds : (state.phase call).holds = true) :
    state.holder = some call := by
  have fits := sound.fits call
  cases phase : state.phase call with
  | storing | waiting hash | returned result => simp [phase, Phase.holds] at holds
  | locked hash | updating hash | releasing result =>
    rw [phase] at fits
    exact fits.1

private theorem holder_entered {call : Fin count} (held : state.holder = some call) : call ∈ state.entered := by
  obtain ⟨before, entered⟩ := sound.last call held
  exact entered ▸ List.mem_append_right before (List.mem_singleton_self call)

private theorem entered_of_succeeded {call : Fin count} (succeeded : (state.phase call).Succeeded) :
    call ∈ state.entered := by
  have fits := sound.fits call
  cases phase : state.phase call with
  | storing | waiting hash | locked hash | updating hash =>
    simp [phase, Phase.Succeeded, Phase.result?] at succeeded
  | releasing result =>
    rw [phase] at fits
    exact sound.holder_entered fits.1
  | returned result =>
    rw [phase] at fits succeeded
    cases succeeded
    rcases fits with ⟨member, _⟩ | ⟨_, fault, failed, _⟩
    · exact member
    · cases failed

private theorem crashed {call : Fin count} (member : call ∈ state.entered) (crashed : (state.phase call).Crashed) :
    state.workspace.poisoned = true := by
  obtain ⟨message, result⟩ := crashed
  have fits := sound.fits call
  cases phase : state.phase call with
  | storing | waiting hash | locked hash | updating hash => simp [phase, Phase.result?] at result
  | releasing answer =>
    rw [phase] at fits result
    cases result
    exact fits.2
  | returned answer =>
    rw [phase] at fits result
    cases result
    rcases fits with ⟨_, ended⟩ | ⟨absent, _⟩
    · exact ended
    · exact absurd member absent

/-- A turn that leaves the index and the order of the calls alone. -/
theorem proceed (call : Fin count) (phase : Phase) (repository : Repository) (holder : Option (Fin count))
    {stored : List (String × ByteArray)} (grows : Grows state.workspace.repository repository stored [])
    (result : call ∈ state.entered → phase.result? = (state.phase call).result?)
    (kept : ∀ other, other ≠ call → (holder = some other ↔ state.holder = some other))
    (own : holder = some call → state.holder = some call ∧ phase.holds = true)
    (fits : Fits calls start
      { state.move call phase { state.workspace with repository } with holder } call phase) :
    Sound calls start { state.move call phase { state.workspace with repository } with holder } := by
  have results : ∀ other ∈ state.entered,
      ((state.move call phase { state.workspace with repository }).phase other).result? =
        (state.phase other).result? := by
    intro other member
    by_cases same : other = call
    · subst other
      rw [State.move_phase_self, result member]
    · rw [State.move_phase_other _ _ _ same]
  have same : (state.move call phase { state.workspace with repository }).performed = state.performed := by
    apply List.filter_congr
    intro other member
    exact decide_eq_decide.mpr (Eq.congr_left (results other member))
  constructor
  case fits =>
    intro other
    by_cases same : other = call
    · subst other
      simpa using fits
    · rw [State.move_phase_other _ _ _ same]
      exact (sound.fits other).keeps .rfl (fun held => ⟨(kept other same).mpr held, rfl⟩)
        (objects_of_grows grows) id
  case holds =>
    intro other held
    by_cases same : other = call
    · subst other
      simpa using (own held).2
    · rw [State.move_phase_other _ _ _ same]
      exact sound.holds other ((kept other same).mp held)
  case last =>
    intro other held
    by_cases same : other = call
    · exact sound.last other (same ▸ (own (same ▸ held)).1)
    · exact sound.last other ((kept other same).mp held)
  case once => exact sound.once
  case frame => exact congrArg (fun workspace => { workspace with repository }) sound.frame
  case grows =>
    obtain ⟨before, changes⟩ := sound.grows
    have changes := changes.trans grows
    rw [List.append_nil] at changes
    exact ⟨_, same ▸ changes⟩
  case stored => exact fun other member => objects_of_grows grows _ (sound.stored other member)
  case poisoned => exact sound.poisoned
  case refusals =>
    refine sound.refusals.imp_of_mem fun {earlier later} first second refusal => ?_
    simpa only [Phase.Crashed, Phase.Refused, results earlier first, results later second] using refusal
  case refused =>
    intro dead other member
    simpa only [Phase.Refused, results other member] using sound.refused dead other member

private theorem enter (call : Fin count) {hash : String} (phase : state.phase call = .waiting hash)
    (free : state.holder = none) :
    Sound calls start
      { state.move call (admitted state.workspace.poisoned hash) state.workspace with
        holder := some call
        entered := state.entered ++ [call] } := by
  have fits := sound.fits call
  rw [phase] at fits
  obtain ⟨absent, named, stored⟩ := fits
  have apart : ∀ other ∈ state.entered, other ≠ call := fun other member same => absent (same ▸ member)
  have held : (admitted state.workspace.poisoned hash).holds = true := by
    rw [admitted]
    split <;> rfl
  have barred : state.workspace.poisoned = true →
      (admitted state.workspace.poisoned hash).Refused := by
    intro poisoned
    rw [admitted, if_pos poisoned]
    rfl
  have unfinished : ¬(admitted state.workspace.poisoned hash).Succeeded := by
    rw [admitted]
    split <;> exact nofun
  have same : State.performed
      { state.move call (admitted state.workspace.poisoned hash) state.workspace with
        holder := some call
        entered := state.entered ++ [call] } = state.performed := by
    rw [State.performed, List.filter_append, List.filter_cons_of_neg (by simpa using unfinished),
      List.filter_nil, List.append_nil]
    apply List.filter_congr
    intro other member
    simp only [State.move_phase_other _ _ _ (apart other member)]
  constructor
  case fits =>
    intro other
    by_cases same : other = call
    · subst other
      simp only [State.move_phase_self, admitted]
      cases poisoned : state.workspace.poisoned with
      | true => exact ⟨rfl, poisoned⟩
      | false => exact ⟨rfl, poisoned, named⟩
    · rw [State.move_phase_other _ _ _ same]
      refine (sound.fits other).keeps (by simp [same]) ?_ (fun _ => id) id
      simp [free]
  case holds =>
    rintro other ⟨⟩
    simpa using held
  case last =>
    rintro other ⟨⟩
    exact ⟨state.entered, rfl⟩
  case once => exact List.nodup_append.mpr ⟨sound.once, List.pairwise_singleton .., by simpa using apart⟩
  case frame => exact sound.frame
  case grows =>
    obtain ⟨before, changes⟩ := sound.grows
    exact ⟨before, same ▸ changes⟩
  case stored =>
    intro other member
    rcases List.mem_append.mp member with member | member
    · exact sound.stored other member
    · rw [List.mem_singleton.mp member]
      exact stored
  case poisoned => exact sound.poisoned
  case refusals =>
    refine List.pairwise_append.mpr ⟨?_, List.pairwise_singleton .., ?_⟩
    · refine sound.refusals.imp_of_mem fun {earlier later} first second refusal => ?_
      simpa only [State.move_phase_other _ _ _ (apart _ first), State.move_phase_other _ _ _ (apart _ second)]
        using refusal
    · intro earlier first later second crashed
      rw [State.move_phase_other _ _ _ (apart earlier first)] at crashed
      rw [List.mem_singleton.mp second, State.move_phase_self]
      exact barred (sound.crashed first crashed)
  case refused =>
    intro dead other member
    rcases List.mem_append.mp member with member | member
    · rw [State.move_phase_other _ _ _ (apart other member)]
      exact sound.refused dead other member
    · rw [List.mem_singleton.mp member, State.move_phase_self]
      exact barred (sound.poisoned dead)

private theorem finish (call : Fin count) {hash : String} (phase : state.phase call = .updating hash)
    {answer : Except WriteFault Unit} {repository : Repository} {poisoned : Bool}
    (ended : Ended (calls call) start.repository poisoned answer)
    (grows : Grows state.workspace.repository repository []
      ((if (Phase.releasing answer).Succeeded then [call] else []).map fun call =>
        (calls call).logged start.repository)) :
    Sound calls start
      (state.move call (.releasing answer) { state.workspace with repository, poisoned }) := by
  have fits := sound.fits call
  rw [phase] at fits
  obtain ⟨holds, calm, named⟩ := fits
  obtain ⟨before, entered⟩ := sound.last call holds
  have once := entered ▸ sound.once
  have alive : ∀ {goal : Prop}, state.workspace.poisoned = true → goal := fun dead => by simp [calm] at dead
  have apart : ∀ other ∈ before, other ≠ call := fun other member =>
    (List.nodup_append.mp once).2.2 other member call (List.mem_singleton_self call)
  have same : (state.move call (.releasing answer)
        { state.workspace with repository, poisoned }).performed =
      state.performed ++ if (Phase.releasing answer).Succeeded then [call] else [] := by
    have unfinished : ¬(state.phase call).Succeeded := by
      rw [phase]
      exact nofun
    have others : before.filter (fun other => (state.phase other).Succeeded) = before.filter fun other =>
        ((state.move call (.releasing answer) { state.workspace with repository, poisoned }).phase
          other).Succeeded := by
      apply List.filter_congr
      intro other member
      simp only [State.move_phase_other _ _ _ (apart other member)]
    simp only [State.performed, State.move_entered, entered, List.filter_append, others, List.filter_cons,
      List.filter_nil, State.move_phase_self, decide_eq_true_eq, if_neg unfinished, List.append_nil]
  constructor
  case fits =>
    intro other
    by_cases same : other = call
    · subst other
      simpa only [State.move_phase_self] using ⟨holds, ended⟩
    · rw [State.move_phase_other _ _ _ same]
      refine (sound.fits other).keeps .rfl ?_ (objects_of_grows grows) alive
      intro held
      cases holds.symm.trans held
      exact absurd rfl same
  case holds =>
    intro other held
    cases holds.symm.trans held
    rw [State.move_phase_self]
    rfl
  case last => exact sound.last
  case once => exact sound.once
  case frame => exact congrArg (fun workspace => { workspace with repository, poisoned }) sound.frame
  case grows =>
    obtain ⟨stored, changes⟩ := sound.grows
    refine ⟨stored, ?_⟩
    rw [same, List.map_append]
    exact changes.trans grows
  case stored => exact fun other member => objects_of_grows grows _ (sound.stored other member)
  case poisoned => exact fun dead => alive (sound.poisoned dead)
  case refusals =>
    rw [State.move_entered, entered]
    have refusals := (List.pairwise_append.mp (entered ▸ sound.refusals)).1
    refine List.pairwise_append.mpr ⟨?_, List.pairwise_singleton .., ?_⟩
    · refine refusals.imp_of_mem fun {earlier later} first second refusal => ?_
      simpa only [State.move_phase_other _ _ _ (apart _ first), State.move_phase_other _ _ _ (apart _ second)]
        using refusal
    · intro earlier first later second crashed
      rw [State.move_phase_other _ _ _ (apart earlier first)] at crashed
      have member : earlier ∈ state.entered := entered ▸ List.mem_append_left _ first
      exact alive (sound.crashed member crashed)
  case refused => exact fun dead => alive (sound.poisoned dead)

end Sound

private theorem update_of_grows (call : Call) {before after : Repository} {stored : List (String × ByteArray)}
    {logged : List IndexUpdate} (grows : Grows before after stored logged) :
    call.update after = call.update before ∧ call.object after = call.object before := by
  obtain ⟨_, rfl⟩ := grows
  exact ⟨rfl, rfl⟩

theorem Sound.turn (sound : Sound calls start state) (root : Path) (call : Fin count) :
    Sound calls start (state.turn root calls call) := by
  have fits := sound.fits call
  obtain ⟨before, changes⟩ := sound.grows
  obtain ⟨updates, objects⟩ := update_of_grows (calls call) changes
  unfold State.turn
  cases phase : state.phase call with
  | storing =>
    rw [phase] at fits
    have outside : state.holder ≠ some call := fun held => by
      simpa [phase, Phase.holds] using sound.holds call held
    rcases writeBlob_named state.workspace root (calls call).content.toUTF8 with
      ⟨fault, next, failed, line, grows⟩ | ⟨next, done, grows⟩
    · simp only [failed]
      exact sound.proceed call _ next state.holder grows (fun member => absurd member fits) (fun _ _ => .rfl)
        (fun held => absurd held outside) (.inr ⟨fits, fault, rfl, line⟩)
    · simp only [done]
      refine sound.proceed call _ next state.holder grows (fun member => absurd member fits) (fun _ _ => .rfl)
        (fun held => absurd held outside) ⟨fits, congrArg IndexUpdate.hash updates, ?_⟩
      obtain ⟨_, rfl⟩ := grows
      exact objects ▸ List.mem_cons_self
  | waiting hash =>
    simp only
    split
    · exact sound
    · exact sound.enter call phase (by simp_all)
  | locked hash =>
    rw [phase] at fits
    exact sound.proceed call _ state.workspace.repository state.holder (.idle _ _)
      (fun _ => by rw [phase]; rfl) (fun _ _ => .rfl) (fun held => ⟨held, rfl⟩) fits
  | updating hash =>
    rw [phase] at fits
    obtain ⟨_, calm, rfl⟩ := fits
    rcases updateIndex_ends state.workspace root (calls call).mode
        ((calls call).update start.repository).hash (calls call).path calm with
      ⟨message, next, _, crashed, grows⟩ | ⟨fault, next, failed, line, grows⟩ | ⟨next, done, grows⟩
    · simp only [crashed]
      exact sound.finish call phase rfl grows
    · simp only [failed]
      exact sound.finish call phase line grows
    · simp only [done]
      exact sound.finish call phase trivial grows
  | releasing result =>
    rw [phase] at fits
    obtain ⟨held, ended⟩ := fits
    refine sound.proceed call _ state.workspace.repository none (.idle _ _) (fun _ => by rw [phase]; rfl) ?_
      nofun (.inl ⟨sound.holder_entered held, ended⟩)
    intro other different
    simp [held, Ne.symm different]
  | returned result => exact sound

theorem Sound.run (sound : Sound calls start state) (root : Path) (schedule : List (Fin count)) :
    Sound calls start (state.run root calls schedule) := by
  induction schedule generalizing state with
  | nil => exact sound
  | cons call schedule ih => exact ih (sound.turn root call)

/-! Every call gets to its end: whoever has the lock can let go of it, and while nobody has it, any call
can go on. -/

def State.remaining (state : State count) : Nat := ∑ call, (state.phase call).remaining

private theorem turn_phase_other (root : Path) {call other : Fin count} (different : other ≠ call) :
    (state.turn root calls call).phase other = state.phase other := by
  unfold State.turn
  cases state.phase call with
  | waiting hash =>
    simp only
    split
    · rfl
    · exact Function.update_of_ne different ..
  | returned result => rfl
  | _ => exact Function.update_of_ne different ..

private theorem turn_lowers (calls : Fin count → Call) (root : Path) {call : Fin count}
    (pending : ¬(state.phase call).Returned)
    (free : state.holder = none ∨ (state.phase call).holds = true) :
    ((state.turn root calls call).phase call).remaining < (state.phase call).remaining := by
  unfold State.turn
  cases phase : state.phase call with
  | storing =>
    simp only [State.move_phase_self]
    unfold stored
    split <;> simp [Phase.remaining]
  | waiting hash =>
    have free : state.holder = none := free.resolve_right (by simp [phase, Phase.holds])
    simp only [free, Option.isSome_none, Bool.false_eq_true, ↓reduceIte, State.move_phase_self, admitted]
    split <;> simp [Phase.remaining]
  | locked hash | updating hash | releasing result => simp [Phase.remaining]
  | returned result => exact absurd ⟨result, phase⟩ pending

theorem Sound.advances (sound : Sound calls start state) (root : Path)
    (pending : ∃ call, ¬(state.phase call).Returned) :
    ∃ call, (state.turn root calls call).remaining < state.remaining := by
  have ready : ∃ call, ¬(state.phase call).Returned ∧
      (state.holder = none ∨ (state.phase call).holds = true) := by
    cases held : state.holder with
    | none =>
      obtain ⟨call, pending⟩ := pending
      exact ⟨call, pending, .inl rfl⟩
    | some call =>
      have holds := sound.holds call held
      refine ⟨call, ?_, .inr holds⟩
      rintro ⟨result, returned⟩
      simp [returned, Phase.holds] at holds
  obtain ⟨call, pending, free⟩ := ready
  have lower := turn_lowers calls root pending free
  refine ⟨call, Finset.sum_lt_sum (fun other _ => ?_) ⟨call, Finset.mem_univ call, lower⟩⟩
  by_cases same : other = call
  · exact same ▸ lower.le
  · rw [turn_phase_other root same]

theorem Sound.completes (sound : Sound calls start state) (root : Path) :
    ∃ schedule, ∀ call, ((state.run root calls schedule).phase call).Returned := by
  induction left : state.remaining using Nat.strongRecOn generalizing state with
  | ind left ih =>
    by_cases pending : ∃ call, ¬(state.phase call).Returned
    · obtain ⟨call, lower⟩ := sound.advances root pending
      obtain ⟨schedule, returned⟩ := ih _ (left ▸ lower) (sound.turn root call) rfl
      exact ⟨call :: schedule, returned⟩
    · exact ⟨[], not_exists_not.mp pending⟩

private theorem updateIndex_line_ne (mode hash : String) (path : Path) (content : ByteArray) :
    (Command.updateIndex mode hash path).line ≠ (Command.writeBlob content).line := by
  intro same
  have letters := congrArg String.toList same
  simp [Command.line, Command.arguments, String.intercalate_cons_cons, String.toList_append] at letters

/-- What is so of the calls at any point of any schedule. -/
structure Serialized (calls : Fin count → Call) (start : Workspace) (state : State count) : Prop where
  exclusive : ∀ {one other : Fin count} {first second : String},
    state.phase one = .updating first → state.phase other = .updating second → one = other
  updates : state.workspace.repository.updates = start.repository.updates ++
    state.performed.map fun call => (calls call).logged start.repository
  performed : ∀ call, call ∈ state.performed ↔ (state.phase call).Succeeded
  once : state.performed.Nodup
  ordered : state.performed.Sublist state.entered
  fields : ∀ call, ',' ∉ (calls call).mode.toList →
    ',' ∉ (objectName start.repository (calls call).content.toUTF8).toList →
    (calls call).logged start.repository =
      ⟨(calls call).mode, objectName start.repository (calls call).content.toUTF8, (calls call).path⟩
  stored : ∀ call ∈ state.performed,
    (start.repository.hash (calls call).content.toUTF8, (calls call).content.toUTF8) ∈
      state.workspace.repository.objects
  last : ∀ (index : Index) {before : List (Fin count)} {call : Fin count} {later : List (Fin count)},
    state.performed = before ++ call :: later →
    (∀ other ∈ later,
      ((calls other).logged start.repository).path ≠ ((calls call).logged start.repository).path) →
    index.after state.workspace.repository.updates ((calls call).logged start.repository).path =
      some ⟨((calls call).logged start.repository).mode, ((calls call).logged start.repository).hash⟩
  elsewhere : ∀ (index : Index) {path : Path},
    (∀ call ∈ state.performed, ((calls call).logged start.repository).path ≠ path) →
    index.after state.workspace.repository.updates path = index.after start.repository.updates path
  /-- A call whose object was not stored never has the lock. -/
  unstored : ∀ {call : Fin count} {fault : GitError},
    state.phase call = .returned (.error (.failed (.git fault))) →
    commandOf fault = (Command.writeBlob (calls call).content.toUTF8).line → call ∉ state.entered
  crashed : ∀ {before : List (Fin count)} {call : Fin count} {later : List (Fin count)},
    state.entered = before ++ call :: later → (state.phase call).Crashed →
    ∀ other ∈ later, (state.phase other).Refused ∧ other ∉ state.performed
  poisoned : start.poisoned = true →
    ∀ call ∈ state.entered, (state.phase call).Refused ∧ call ∉ state.performed
  frame : ∃ stored attempts poisoned, state.workspace =
    { start with
      repository := { start.repository with
        objects := stored ++ start.repository.objects
        updates := state.workspace.repository.updates
        attempts }
      poisoned }

private theorem refused_unperformed {call : Fin count} (refused : (state.phase call).Refused) :
    call ∉ state.performed := by
  intro member
  have succeeded : (state.phase call).Succeeded := by simpa using (List.mem_filter.mp member).2
  cases refused.symm.trans succeeded

theorem Sound.serialized (sound : Sound calls start state) : Serialized calls start state := by
  obtain ⟨stored, attempts, grows⟩ := sound.grows
  have updates := congrArg Repository.updates grows
  constructor
  case exclusive =>
    intro one other first second here there
    have holds := (sound.holder_of_holds (by rw [here]; rfl)).symm.trans
      (sound.holder_of_holds (by rw [there]; rfl))
    exact Option.some.inj holds
  case updates => exact updates
  case performed =>
    intro call
    refine ⟨fun member => by simpa using (List.mem_filter.mp member).2, fun succeeded => ?_⟩
    exact List.mem_filter.mpr ⟨sound.entered_of_succeeded succeeded, by simpa using succeeded⟩
  case once => exact sound.once.filter _
  case ordered => exact List.filter_sublist
  case fields => exact fun call mode hash => recorded_plain mode hash
  case stored => exact fun call member => sound.stored call (List.mem_filter.mp member).1
  case last =>
    intro index before call later split last
    rw [updates, split, List.map_append, List.map_cons, ← List.append_assoc]
    exact index.after_last _ (List.forall_mem_map.mpr last)
  case elsewhere =>
    intro index path apart
    rw [updates, Index.after_append, Index.after_elsewhere _ (List.forall_mem_map.mpr apart)]
  case unstored =>
    intro call fault phase line member
    have fits := sound.fits call
    rw [phase] at fits
    rcases fits with ⟨_, ended⟩ | ⟨absent, _⟩
    · exact updateIndex_line_ne _ _ _ _ (ended.symm.trans line)
    · exact absent member
  case crashed =>
    intro before call later split crashed other member
    have refusals := (List.pairwise_append.mp (split ▸ sound.refusals)).2.1
    have refused := List.rel_of_pairwise_cons refusals member crashed
    exact ⟨refused, refused_unperformed refused⟩
  case poisoned =>
    intro dead call member
    have refused := sound.refused dead call member
    exact ⟨refused, refused_unperformed refused⟩
  case frame =>
    refine ⟨stored, attempts, state.workspace.poisoned, ?_⟩
    rw [updates]
    exact sound.frame.trans (congrArg
      (fun repository => { start with repository, poisoned := state.workspace.poisoned }) grows)

/-- However the calls interleave, the index gets the updates of those that succeed, one at a time and
in the order of the lock, and from every point on there is a way for all of them to return. -/
theorem staging_serializes (root : Path) (calls : Fin count → Call) (start : Workspace)
    (schedule : List (Fin count)) :
    let reached := ({ workspace := start } : State count).run root calls schedule
    Serialized calls start reached ∧
      ∃ rest, ∀ call, ((reached.run root calls rest).phase call).Returned := by
  have sound := (sound_start calls start).run root schedule
  exact ⟨sound.serialized, sound.completes root⟩

end

end StagedFormat.Proofs.StagingOrder
