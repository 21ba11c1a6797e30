import StagedFormat.Proofs.ByteTexts
import StagedFormat.Proofs.TextPieces
import StagedFormat.Target.Staging

/-! What version-control commands change: they store objects and make index entries refer to them, or
fail and leave at most an object behind that nothing refers to. -/

namespace StagedFormat.Proofs.RepositoryEffects
open StagedFormat Git ByteTexts TextPieces

structure IndexEntry where
  mode : String
  hash : String
  deriving DecidableEq

abbrev Index := Path → Option IndexEntry

def Index.update (index : Index) (update : IndexUpdate) : Index := fun path =>
  if path = update.path then some ⟨update.mode, update.hash⟩ else index path

def Index.after (index : Index) (updates : List IndexUpdate) : Index := updates.foldl Index.update index

theorem Index.after_append (index : Index) (first second : List IndexUpdate) :
    index.after (first ++ second) = (index.after first).after second := List.foldl_append

theorem Index.after_elsewhere (index : Index) {updates : List IndexUpdate} {path : Path}
    (apart : ∀ update ∈ updates, update.path ≠ path) : index.after updates path = index path := by
  induction updates generalizing index with
  | nil => rfl
  | cons update updates ih =>
    rw [Index.after, List.foldl_cons, ← Index.after, ih _ fun other member => apart other (.tail _ member),
      Index.update, if_neg (Ne.symm (apart update List.mem_cons_self))]

/-- The last update of a path is the one that counts. -/
theorem Index.after_last (index : Index) (before : List IndexUpdate) {update : IndexUpdate}
    {later : List IndexUpdate} (last : ∀ other ∈ later, other.path ≠ update.path) :
    index.after (before ++ update :: later) update.path = some ⟨update.mode, update.hash⟩ := by
  rw [Index.after_append, Index.after, List.foldl_cons, ← Index.after, Index.after_elsewhere _ last,
    Index.update, if_pos rfl]

def staged (index : Index) (repository : Repository) (path : Path) : Option ByteArray :=
  (index path).bind fun entry => repository.objects.lookup entry.hash

/-- Objects were stored and index updates logged; but for the number of commands, nothing else is
different. -/
def Grows (before after : Repository) (stored : List (String × ByteArray)) (logged : List IndexUpdate) :
    Prop :=
  ∃ attempts, after = { before with
    objects := stored ++ before.objects
    updates := before.updates ++ logged
    attempts }

theorem Grows.trans {first second third : Repository} {stored later : List (String × ByteArray)}
    {logged after : List IndexUpdate} (one : Grows first second stored logged)
    (two : Grows second third later after) : Grows first third (later ++ stored) (logged ++ after) := by
  obtain ⟨_, rfl⟩ := one
  obtain ⟨attempts, rfl⟩ := two
  exact ⟨attempts, by simp only [List.append_assoc]⟩

theorem Grows.idle (repository : Repository) (attempts : Nat) :
    Grows repository { repository with attempts } [] [] :=
  ⟨attempts, by rw [List.nil_append, List.append_nil]⟩

theorem Grows.idle_cases {before after : Repository} (grows : Grows before after [] []) :
    ∃ attempts, after = { before with attempts } := by
  obtain ⟨attempts, rfl⟩ := grows
  exact ⟨attempts, by rw [List.nil_append, List.append_nil]⟩

def tried (workspace : Workspace) (attempts : Nat) : Workspace :=
  { workspace with repository := { workspace.repository with attempts } }

def commandOf : GitError → String
  | .notStarted command _ | .failed command _ _ | .notText command => command

private theorem answer_failed {repository : Repository} {command : Command} {message : String}
    (failed : (repository.answer command).1 = .error message) :
    (repository.answer command).2 = repository := by
  cases command <;> first | rfl | cases failed

theorem answer_attempts (repository : Repository) (attempts : Nat) (command : Command) :
    { repository with attempts }.answer command =
      ((repository.answer command).1, { (repository.answer command).2 with attempts }) := by
  cases command <;> rfl

private theorem attempt_cases (repository : Repository) (command : Command) :
    (∃ message, (repository.attempt command).1 = .error message ∧
      Grows repository (repository.attempt command).2 [] []) ∨
    ∃ output attempts, (repository.answer command).1 = .ok output ∧
      repository.attempt command = (.ok output, { (repository.answer command).2 with attempts }) := by
  rw [Repository.attempt]
  split
  · exact .inl ⟨_, rfl, .idle _ _⟩
  · rw [answer_attempts]
    cases answered : (repository.answer command).1 with
    | error message =>
      rw [answer_failed answered]
      exact .inl ⟨message, rfl, .idle _ _⟩
    | ok output => exact .inr ⟨output, _, rfl, rfl⟩

theorem run_cases (repository : Repository) (disk : Disk) (directory : Path) (command : Command) :
    (∃ fault, (repository.run disk directory command).1 = .error fault ∧ commandOf fault = command.line ∧
      Grows repository (repository.run disk directory command).2 [] []) ∨
    ∃ output attempts, (repository.answer command).1 = .ok output ∧
      repository.run disk directory command =
        (.ok output, { (repository.answer command).2 with attempts }) := by
  have tried := attempt_cases repository command
  unfold Repository.run
  split
  · rcases tried with ⟨message, failed, grows⟩ | ⟨output, attempts, answered, tried⟩
    · exact .inl ⟨.failed command.line Repository.failureStatus.description message,
        by simp only [failed]; rfl, rfl, grows⟩
    · exact .inr ⟨output, attempts, answered, by rw [tried]; rfl⟩
  · split
    · exact .inl ⟨_, rfl, rfl, .idle _ _⟩
    · rcases tried with ⟨message, failed, grows⟩ | ⟨output, attempts, answered, tried⟩
      · exact .inl ⟨.failed command.line Repository.failureStatus.description
          (Text.decodeLossy message.toUTF8).trimmed, by simp only [failed]; rfl, rfl, grows⟩
      · exact .inr ⟨output, attempts, answered, by rw [tried]; rfl⟩
  · exact .inl ⟨_, rfl, rfl, .idle _ _⟩

theorem run_direct (repository : Repository) (command : Command) {output : ByteArray}
    (direct : repository.access = .direct) (willing : ∀ attempt, repository.refuses attempt command = none)
    (answered : (repository.answer command).1 = .ok output) (disk : Disk) (directory : Path) :
    ∃ attempts, repository.run disk directory command =
      (.ok output, { (repository.answer command).2 with attempts }) := by
  have tried : repository.attempt command =
      (.ok output, { (repository.answer command).2 with attempts := repository.attempts + 1 }) := by
    rw [Repository.attempt]
    simp only [willing]
    rw [answer_attempts, answered]
  refine ⟨repository.attempts + 1, ?_⟩
  rw [Repository.run, direct]
  simp only [tried]
  rfl

private theorem textOf_toUTF8 (command : Command) (text : String) : command.textOf text.toUTF8 = .ok text := by
  rw [Command.textOf, fromUTF8?_eq_some.mpr rfl]

theorem textOf_packed (command : Command) {string : ByteString} (legible : IsText string) :
    command.textOf string.packed = .ok string.text := by
  obtain ⟨text, rfl⟩ := legible
  rw [text_ofText]
  exact textOf_toUTF8 command text

/-- The name that is answered for new content: its hash, without white space around it where a process
answers. -/
def objectName (repository : Repository) (content : ByteArray) : String :=
  if repository.access = .process then (repository.hash content).trimmed else repository.hash content

section
variable (workspace : Workspace) (root : Path)

private theorem git_cases (command : Command) :
    (∃ fault next, workspace.git root command = (.error fault, { workspace with repository := next }) ∧
      commandOf fault = command.line ∧ Grows workspace.repository next [] []) ∨
    ∃ output attempts, (workspace.repository.answer command).1 = .ok output ∧
      workspace.git root command = (.ok output,
        { workspace with repository := { (workspace.repository.answer command).2 with attempts } }) := by
  rcases run_cases workspace.repository workspace.disk root command with
    ⟨fault, failed, line, grows⟩ | ⟨output, attempts, answered, done⟩
  · exact .inl ⟨fault, _, by rw [Workspace.git, ← failed], line, grows⟩
  · exact .inr ⟨output, attempts, answered, by rw [Workspace.git, done]⟩

def Reads (command : Command) : Prop := ∀ repository : Repository, (repository.answer command).2 = repository

private theorem run_reads (command : Command) (reads : Reads command) :
    Grows workspace.repository (workspace.repository.run workspace.disk root command).2 [] [] := by
  rcases run_cases workspace.repository workspace.disk root command with
    ⟨fault, failed, _, grows⟩ | ⟨output, attempts, answered, done⟩
  · exact grows
  · rw [done, reads]
    exact .idle _ attempts

theorem git_reads (command : Command) (reads : Reads command) :
    ∃ answer next, workspace.git root command = (answer, { workspace with repository := next }) ∧
      Grows workspace.repository next [] [] :=
  ⟨_, _, rfl, run_reads workspace root command reads⟩

theorem gitText_reads (command : Command) (reads : Reads command) :
    ∃ answer next, workspace.gitText root command = (answer, { workspace with repository := next }) ∧
      Grows workspace.repository next [] [] :=
  ⟨_, _, rfl, run_reads workspace root command reads⟩

theorem readBlob_cases (hash : String) :
    ∃ answer attempts, workspace.git root (.readBlob hash) = (answer, tried workspace attempts) ∧
      ∀ bytes, answer = .ok bytes → workspace.repository.objects.lookup hash = some bytes := by
  rcases git_cases workspace root (.readBlob hash) with
    ⟨fault, next, failed, _, grows⟩ | ⟨output, attempts, answered, done⟩
  · obtain ⟨attempts, rfl⟩ := grows.idle_cases
    exact ⟨_, attempts, failed, nofun⟩
  · refine ⟨_, attempts, done, ?_⟩
    intro bytes same
    cases same
    simp only [Repository.answer, Repository.answer.known] at answered
    split at answered
    · rename_i found
      exact found.trans (congrArg some (Except.ok.inj answered))
    · cases answered

theorem writeBlob_named (content : ByteArray) :
    (∃ fault next, workspace.gitText root (.writeBlob content) =
        (.error fault, { workspace with repository := next }) ∧
      commandOf fault = (Command.writeBlob content).line ∧ Grows workspace.repository next [] []) ∨
    ∃ next, workspace.gitText root (.writeBlob content) =
        (.ok (objectName workspace.repository content), { workspace with repository := next }) ∧
      Grows workspace.repository next [(workspace.repository.hash content, content)] [] := by
  rcases run_cases workspace.repository workspace.disk root (.writeBlob content) with
    ⟨fault, failed, line, grows⟩ | ⟨output, attempts, answered, done⟩
  · refine .inl ⟨fault, _, ?_, line, grows⟩
    simp only [Workspace.gitText, Repository.runText, failed]
    split <;> rfl
  · cases answered
    refine .inr ⟨_, ?_, attempts, by rw [List.append_nil]⟩
    simp only [Workspace.gitText, Repository.runText, done, Except.bind, textOf_toUTF8, objectName]
    split <;> rfl

theorem writeBlob_cases (content : ByteArray)
    (tidy : (workspace.repository.hash content).trimmed = workspace.repository.hash content) :
    (∃ fault next, workspace.gitText root (.writeBlob content) =
        (.error fault, { workspace with repository := next }) ∧
      commandOf fault = (Command.writeBlob content).line ∧ Grows workspace.repository next [] []) ∨
    ∃ next, workspace.gitText root (.writeBlob content) =
        (.ok (workspace.repository.hash content), { workspace with repository := next }) ∧
      Grows workspace.repository next [(workspace.repository.hash content, content)] [] := by
  have named : objectName workspace.repository content = workspace.repository.hash content := by
    rw [objectName, tidy, ite_self]
  simpa only [named] using writeBlob_named workspace root content

end

/-- What is logged for an update, whose fields reach the repository as one argument. -/
def recorded (update : IndexUpdate) : IndexUpdate :=
  Repository.updateOf (ByteString.ofText (update.mode ++ "," ++ update.hash ++ ",") ++ update.path.written)

theorem recorded_plain {update : IndexUpdate} (mode : ',' ∉ update.mode.toList)
    (hash : ',' ∉ update.hash.toList) : recorded update = update := by
  have shape : (ByteString.ofText (update.mode ++ "," ++ update.hash ++ ",") ++ update.path.written).bytes =
      (ByteString.ofText update.mode).bytes ++ Repository.comma ::
        ((ByteString.ofText update.hash).bytes ++ Repository.comma :: update.path.written.bytes) := by
    have comma : (ByteString.ofText ",").bytes = [Repository.comma] := rfl
    simp [ofText_append, comma]
  have first : Repository.comma ∉ (ByteString.ofText update.mode).bytes := mt (@mem_ofText ',' (by decide) _).mp mode
  have second : Repository.comma ∉ (ByteString.ofText update.hash).bytes := mt (@mem_ofText ',' (by decide) _).mp hash
  rw [recorded, Repository.updateOf, shape, Text.splitInto, splitOnce_append first]
  simp only [Text.splitInto, splitOnce_append second]
  rw [show ByteString.text ⟨(ByteString.ofText update.mode).bytes⟩ = update.mode from text_ofText _,
    show ByteString.text ⟨(ByteString.ofText update.hash).bytes⟩ = update.hash from text_ofText _]

/-- An update of the index is logged; or it crashes or fails, and only a crash leaves a trace. -/
theorem updateIndex_ends (workspace : Workspace) (root : Path) (mode hash : String) (path : Path)
    (unpoisoned : workspace.poisoned = false) :
    (∃ message next, workspace.repository.crashes workspace.repository.attempts = some message ∧
      workspace.updateIndex root mode hash path =
        (.error (.crashed message), { workspace with poisoned := true, repository := next }) ∧
      Grows workspace.repository next [] []) ∨
    (∃ fault next, workspace.updateIndex root mode hash path =
        (.error (.failed (.git fault)), { workspace with repository := next }) ∧
      commandOf fault = (Command.updateIndex mode hash path).line ∧
      Grows workspace.repository next [] []) ∨
    ∃ next, workspace.updateIndex root mode hash path = (.ok (), { workspace with repository := next }) ∧
      Grows workspace.repository next [] [recorded ⟨mode, hash, path⟩] := by
  rw [Workspace.updateIndex, if_neg (by simp [unpoisoned])]
  cases workspace.repository.crashes workspace.repository.attempts with
  | some message => exact .inl ⟨message, _, rfl, rfl, .idle _ _⟩
  | none =>
    dsimp only
    rcases git_cases workspace root (.updateIndex mode hash path) with
      ⟨fault, next, failed, line, grows⟩ | ⟨output, attempts, answered, done⟩
    · exact .inr (.inl ⟨fault, next, by rw [failed], line, grows⟩)
    · refine .inr (.inr ⟨_, by rw [done], attempts, ?_⟩)
      rfl

section
variable (workspace : Workspace) {mode : String} (root path : Path)
  (unpoisoned : workspace.poisoned = false) (calm : ∀ attempt, workspace.repository.crashes attempt = none)
  (plain : ',' ∉ mode.toList)
include unpoisoned calm plain

/-- An index entry refers to the object now, or it is what it was. -/
theorem updateIndex_cases {hash : String} (commas : ',' ∉ hash.toList) :
    (∃ fault next, workspace.updateIndex root mode hash path =
        (.error (.failed (.git fault)), { workspace with repository := next }) ∧
      commandOf fault = (Command.updateIndex mode hash path).line ∧
      Grows workspace.repository next [] []) ∨
    ∃ next, workspace.updateIndex root mode hash path = (.ok (), { workspace with repository := next }) ∧
      Grows workspace.repository next [] [⟨mode, hash, path⟩] := by
  rcases updateIndex_ends workspace root mode hash path unpoisoned with
    ⟨message, _, crashed, _⟩ | failed | ⟨next, done, grows⟩
  · rw [calm] at crashed
    cases crashed
  · exact .inl failed
  · rw [recorded_plain plain commas] at grows
    exact .inr ⟨next, done, grows⟩

/-- Content is staged, or the index is what it was. -/
theorem stage_cases {content : String}
    (tidy : (workspace.repository.hash content.toUTF8).trimmed = workspace.repository.hash content.toUTF8)
    (commas : ',' ∉ (workspace.repository.hash content.toUTF8).toList) :
    (∃ fault next stored, workspace.stage root path mode content =
        (.error (.failed (.git fault)), { workspace with repository := next }) ∧
      (commandOf fault = (Command.writeBlob content.toUTF8).line ∨
        commandOf fault =
          (Command.updateIndex mode (workspace.repository.hash content.toUTF8) path).line) ∧
      (∀ object ∈ stored, object = (workspace.repository.hash content.toUTF8, content.toUTF8)) ∧
      Grows workspace.repository next stored []) ∨
    ∃ next, workspace.stage root path mode content = (.ok (), { workspace with repository := next }) ∧
      Grows workspace.repository next
        [(workspace.repository.hash content.toUTF8, content.toUTF8)]
        [⟨mode, workspace.repository.hash content.toUTF8, path⟩] := by
  rw [Workspace.stage]
  rcases writeBlob_cases workspace root content.toUTF8 tidy with
    ⟨fault, next, failed, line, grows⟩ | ⟨next, done, grows⟩
  · exact .inl ⟨fault, next, [], by rw [failed], .inl line, nofun, grows⟩
  · have quiet : ∀ attempt, next.crashes attempt = none := by
      obtain ⟨attempts, rfl⟩ := grows
      exact calm
    simp only [done]
    rcases updateIndex_cases { workspace with repository := next } root path unpoisoned quiet
      plain commas with ⟨fault, last, failed, line, later⟩ | ⟨last, logged, later⟩
    · exact .inl ⟨fault, last, _, failed, .inr line, by simp, grows.trans later⟩
    · exact .inr ⟨last, logged, grows.trans later⟩

end

end StagedFormat.Proofs.RepositoryEffects
