import Mathlib.Data.List.Basic
import StagedFormat.Proofs.HookInvocations

/-! Formatting standard input. Its text comes out whole and once: formatted, or as it is where the formatter
has nothing to offer. -/

namespace StagedFormat.Proofs.StandardInput
open StagedFormat Daemon CommandLine HookInvocations

def content (input : StreamInput) : Except TargetError String :=
  match input.failure, String.fromUTF8? input.bytes with
  | some cause, _ => .error (.io ⟨streamName⟩ cause)
  | none, some text => .ok text
  | none, none => .error (.notText streamName)

/-- What is sent on of a text. -/
def passed (format : Formatter) (source : String) : String :=
  match format source with
  | .text formatted => formatted
  | .rejected _ | .crashed _ => source

/-- What is reported on a text. -/
def verdict (format : Formatter) (dryRun : Bool) (source : String) : Result :=
  match format source with
  | .rejected error => Pipeline.formatFailure streamName error.message .format
  | .crashed message => Pipeline.formatFailure streamName message .crash
  | .text formatted =>
    if formatted = source then .alreadyFormatted streamName
    else if dryRun then .wouldFormat streamName
    else .formatted streamName

def outcome (format : Formatter) (dryRun : Bool) (input : StreamInput) : Result :=
  match content input with
  | .error error => Pipeline.ioFailure streamName error
  | .ok source => verdict format dryRun source

def taken (input : StreamInput) : Stream := { input := none, kept := (content input).toOption }

/-- The stream after the text was sent on, if there is one. -/
def answered (format : Formatter) (input : StreamInput) : Stream :=
  match content input with
  | .error _ => taken input
  | .ok source => { taken input with hasWritten := true, calls := 1, accepted := [passed format source] }

section
variable (format : Formatter) (workspace : Workspace) (input : StreamInput)

/-- The first read takes the input, whatever else was done with the stream. -/
theorem read_first {held : Stream} (unread : held.kept = none) (opened : held.input = some input) :
    held.read = (content input, { held with input := none, kept := (content input).toOption }) := by
  rcases input with ⟨bytes, _ | cause⟩
  · cases decoded : String.fromUTF8? bytes with
    | none => simp [Stream.read, content, unread, opened, decoded, Except.toOption]
    | some text => simp [Stream.read, content, unread, opened, decoded, Except.toOption]
  · simp [Stream.read, content, unread, opened, Except.toOption]

theorem read_opened : Stream.read { input := some input } = (content input, taken input) :=
  read_first input rfl rfl

private theorem onStream_only {α : Type} (held : Stream) (act : Stream → Except TargetError α × Stream) :
    Target.onStream { workspace with streams := [held] } 0 act =
      ((act held).1, { workspace with streams := [(act held).2] }) := rfl

/-- The stream after the formatting: its text is sent on already, or it is still kept. -/
inductive Formatted (format : Formatter) (input : StreamInput) : (dryRun : Bool) → Stream → Prop
  | checked : Formatted format input true (taken input)
  | kept (same : ∀ source, content input = .ok source → passed format source = source) :
    Formatted format input false (taken input)
  | sent : Formatted format input false (answered format input)

private theorem formatted_kept {source : String} (text : content input = .ok source)
    (same : passed format source = source) (dryRun : Bool) : Formatted format input dryRun (taken input) := by
  cases dryRun with
  | true => exact .checked
  | false =>
    refine .kept fun other found => ?_
    cases text.symm.trans found
    exact same

private theorem formatTarget_stream (dryRun : Bool) :
    ∃ characters held, Pipeline.formatTarget format dryRun
        { workspace with streams := [{ input := some input }] } (.stream 0) =
        ({ result := .ok (outcome format dryRun input), characters },
          { workspace with streams := [held] }) ∧
      Formatted format input dryRun held := by
  rw [Pipeline.formatTarget, Target.read, onStream_only, read_opened]
  cases text : content input with
  | error error =>
    refine ⟨0, taken input, ?_, ?_⟩
    · simp only [outcome, text]
      rfl
    · cases dryRun with
      | true => exact .checked
      | false => exact .kept fun _ found => nomatch text.symm.trans found
  | ok source =>
    simp only [outcome, text, Pipeline.settle, verdict]
    cases offered : format source with
    | rejected error => exact ⟨source.length, _, rfl, formatted_kept _ _ text (by rw [passed, offered]) dryRun⟩
    | crashed message => exact ⟨source.length, _, rfl, formatted_kept _ _ text (by rw [passed, offered]) dryRun⟩
    | text result =>
      by_cases same : result = source
      · simp only [if_pos same]
        exact ⟨source.length, _, rfl, formatted_kept _ _ text (by rw [passed, offered, same]) dryRun⟩
      · cases dryRun with
        | true =>
          simp only [if_neg same, if_true]
          exact ⟨source.length, _, rfl, .checked⟩
        | false =>
          simp only [if_neg same, Bool.false_eq_true, if_false]
          refine ⟨source.length, answered format input, ?_, .sent⟩
          simp only [answered, text, passed, offered]
          rfl

private theorem replay_formatted {held : Stream} (formatted : Formatted format input false held) :
    Stream.replay held = (.ok (), answered format input) := by
  cases formatted with
  | kept same =>
    cases text : content input with
    | error error => simp only [Stream.replay, answered, taken, text, Except.toOption]
    | ok source =>
      simp only [Stream.replay, answered, taken, text, Except.toOption, same source text]
      rfl
  | sent =>
    cases text : content input with
    | error error => simp only [Stream.replay, answered, taken, text, Except.toOption]
    | ok source => simp only [Stream.replay, answered, text]

private theorem runScope_stream (dryRun collectCounts : Bool) :
    ∃ counts characters held,
      Pipeline.runScope format { workspace with streams := [{ input := some input }] }
          { targets := [.stream 0], dryRun } false collectCounts =
        (.ok { Report.render [outcome format dryRun input] false with counts }, characters,
          { workspace with streams := [held] }) ∧
      Formatted format input dryRun held := by
  obtain ⟨characters, held, handled, formatted⟩ := formatTarget_stream format workspace input dryRun
  have results : ([({ result := .ok (outcome format dryRun input), characters } : Pipeline.Handled)].mapM
      Pipeline.Handled.result).mapError PipelineFault.crashed = .ok [outcome format dryRun input] := rfl
  have sorted : Result.sorted [outcome format dryRun input] = [outcome format dryRun input] :=
    List.mergeSort_singleton _
  refine ⟨if collectCounts then some { targets := 1, blobs := 0, files := 0, characters } else none, characters, held,
    ?_, formatted⟩
  simp only [Pipeline.runScope, Pipeline.dispatch, Pipeline.formatAll, handled, results, Except.map,
    sorted]
  rfl

end

/-- What a run on standard input prints and how it ends. -/
def printed (input : StreamInput) (arguments : Arguments) (counts : Option Counts) : Ended :=
  let report := Report.render [outcome spacing (arguments.has .dryRun) input] false
  { status := report.exitStatus arguments.failsOnChange
    output :=
      if arguments.has .dryRun then reportText report.output
      else String.join (answered spacing input).accepted
    errors := if !arguments.has .dryRun && report.hasFailure then report.output else ""
    counts }

private theorem ends_formatStream (input : StreamInput) (arguments : Arguments) (host : Host) :
    ∃ counts, ends host (formatStream input arguments) =
      (.ok (printed input arguments counts), { host with workspace := { host.workspace with
        streams := [if arguments.has .dryRun then taken input else answered spacing input] } }) := by
  obtain ⟨counts, characters, held, ran, formatted⟩ :=
    runScope_stream spacing host.workspace input (arguments.has .dryRun) (arguments.has .statistics)
  refine ⟨counts, ?_⟩
  rw [formatStream, ends_bind, ends_attempt_ok (by simp only [onWorkspace, ran]; rfl)]
  cases dryRun : arguments.has .dryRun with
  | true =>
    rw [dryRun] at formatted
    cases formatted
    simp only [printed, dryRun, if_true]
    rfl
  | false =>
    rw [dryRun] at formatted
    have sent : onWorkspace (fun workspace => Target.replay workspace (.stream 0))
        { host with workspace := { host.workspace with streams := [held] } } =
        (.ok (), { host with workspace := { host.workspace with streams := [answered spacing input] } }) := by
      simp only [onWorkspace, Target.replay, onStream_only, replay_formatted _ _ formatted]
    simp only [Bool.false_eq_true, if_false, ends_bind, ends_attempt_ok sent, ends_get]
    have written : [answered spacing input].flatMap Stream.accepted = (answered spacing input).accepted := by
      rw [List.flatMap_singleton]
    simp only [printed, dryRun, Bool.not_false, Bool.true_and, Bool.false_eq_true, if_false, ← written]
    rfl

def checkLine (input : StreamInput) : Option String :=
  match content input with
  | .error error => some ("⛔️ I/O error while processing <stdin>: " ++ error.message ++ "; skipping.")
  | .ok source =>
    match Source.format source with
    | .error error => some ("⛔️ Unexpected error formatting <stdin>: " ++ error.message)
    | .ok formatted => if formatted = source then none else some "🛠️ Would format <stdin>"

private theorem outcome_line (input : StreamInput) : (outcome spacing true input).reportLine = checkLine input := by
  unfold outcome checkLine
  cases content input with
  | error error => rfl
  | ok source =>
    simp only [verdict, spacing]
    cases Source.format source with
    | error error => rfl
    | ok formatted =>
      simp only
      split <;> rfl

/-- How a run on standard input ends; with `strict`, changes matter. -/
def statusOf (input : StreamInput) (strict : Bool) : ExitStatus :=
  match content input with
  | .error _ => .failure
  | .ok source =>
    match Source.format source with
    | .error _ => .failure
    | .ok formatted => if strict && formatted != source then .fileChanged else .success

private theorem exitStatus_outcome (input : StreamInput) (dryRun strict : Bool) :
    (Report.render [outcome spacing dryRun input] false).exitStatus strict = statusOf input strict := by
  unfold outcome statusOf
  cases content input with
  | error error => rfl
  | ok source =>
    simp only [verdict, spacing]
    cases Source.format source with
    | error error => rfl
    | ok formatted =>
      by_cases same : formatted = source
      · simp only [if_pos same, bne, beq_iff_eq.mpr same]
        cases strict <;> rfl
      · simp only [if_neg same, bne, beq_eq_false_iff_ne.mpr same]
        cases dryRun <;> cases strict <;> rfl

/-- What a run on standard input prints, sends to standard output and comes to. -/
structure Passes (input : StreamInput) (arguments : Arguments) (result : Ended) (held : Stream) : Prop where
  formatted : arguments.has .dryRun = false → ∀ {source formatted : String}, content input = .ok source →
    Source.format source = .ok formatted →
    result.output = formatted ∧ held.accepted = [formatted] ∧ held.calls = 1
  rejected : arguments.has .dryRun = false → ∀ {source : String} {fault : Source.FormatError},
    content input = .ok source → Source.format source = .error fault →
    result.output = source ∧ held.accepted = [source] ∧ held.calls = 1
  unreadable : arguments.has .dryRun = false → ∀ {error : TargetError}, content input = .error error →
    result.output = "" ∧ held.accepted = [] ∧ held.calls = 0
  checked : arguments.has .dryRun = true →
    result.output = reportText (Report.ofLines (checkLine input).toList) ∧ held.accepted = [] ∧ held.calls = 0
  /-- Of the content, a message tells no more than a line number. -/
  placed : ∀ {source : String} {fault : Source.FormatError}, content input = .ok source →
    Source.format source = .error fault →
    ∃ line, fault = .unterminatedLiteral line ∨ fault = .unterminatedComment line
  status : result.status = statusOf input arguments.failsOnChange

private theorem first_error {before : Option Char} {line : Nat} {text : List Char} {fault : Source.FormatError}
    (failed : Source.lexFrom before line text = .error fault) :
    ∃ line, fault = .unterminatedLiteral line ∨ fault = .unterminatedComment line := by
  fun_induction Source.lexFrom before line text with
  | case1 => cases failed
  | case2 before line c rest opened =>
    cases failed
    cases opened with
    | literal => exact ⟨line, .inl rfl⟩
    | comment => exact ⟨line, .inr rfl⟩
  | case3 before line c rest token after read shorter ih =>
    cases later : Source.lexFrom token.spelling.getLast? (line + token.spelling.count '\n') after with
    | ok tokens =>
      rw [later] at failed
      cases failed
    | error error =>
      rw [later] at failed
      exact ih (later.trans failed)

private theorem printed_passes (input : StreamInput) (arguments : Arguments) (counts : Option Counts) :
    Passes input arguments (printed input arguments counts)
      (if arguments.has .dryRun then taken input else answered spacing input) := by
  constructor
  case formatted =>
    intro writes source formatted text done
    have own : passed spacing source = formatted := by rw [passed, spacing, done]
    simp only [printed, writes, answered, text, own, Bool.false_eq_true, if_false]
    exact ⟨by simp [String.join], trivial, trivial⟩
  case rejected =>
    intro writes source fault text failed
    have own : passed spacing source = source := by rw [passed, spacing, failed]
    simp only [printed, writes, answered, text, own, Bool.false_eq_true, if_false]
    exact ⟨by simp [String.join], trivial, trivial⟩
  case unreadable =>
    intro writes error unreadable
    simp only [printed, writes, answered, unreadable, Bool.false_eq_true, if_false]
    exact ⟨rfl, rfl, rfl⟩
  case checked =>
    intro checks
    simp only [printed, checks, if_true]
    refine ⟨?_, rfl, rfl⟩
    rw [← outcome_line]
    cases line : (outcome spacing true input).reportLine with
    | none => simp [Report.render, line]
    | some text => simp [Report.render, line]
  case placed =>
    intro source fault _ failed
    cases lexed : Source.lex source.toList with
    | error error =>
      simp only [Source.format, Source.formatChars, lexed] at failed
      cases failed
      exact first_error lexed
    | ok tokens =>
      simp only [Source.format, Source.formatChars, lexed] at failed
      cases failed
  case status => exact exitStatus_outcome ..

section
variable {invocation : Invocation} {arguments : Arguments} {host asked : Host}
  {answer : Except Git.GitError Path} (mode : arguments.mode = .workingDirectory)
  (top : toplevel invocation.directory host = (answer, asked))
include mode top

private theorem format_stream (stream : arguments.isStream = true) {settings : Settings}
    (loaded : Settings.load asked.workspace.disk invocation.home answer.toOption = .ok settings) :
    ends host (format invocation arguments) = ends asked (formatStream invocation.input arguments) := by
  unfold format
  simp only [mode, if_true, ends_bind, ends_map, ends_modifyGet, top, Except.map, ends_loadSettings loaded,
    ends_get, daemonCommand, stream]
  cases arguments.has .useDaemon <;> cases answer.toOption <;> rfl

private theorem format_unsettled {error : SettingsError}
    (unsettled : Settings.load asked.workspace.disk invocation.home answer.toOption = .error error) :
    ends host (format invocation arguments) = (.error ⟨"failed to load settings", error.trace⟩, asked) := by
  unfold format
  have stopped : ends asked (loadSettings invocation.home answer.toOption) =
      (.error ⟨"failed to load settings", error.trace⟩, asked) :=
    ends_attempt_error (congrArg (·, asked) unsettled)
  simp only [mode, if_true, ends_bind, ends_map, ends_modifyGet, top, Except.map, stopped]

end

/-- Formatting standard input sends its text on whole and once, or nothing of it if it is no text. Where the
settings cannot be loaded, it is not read at all. -/
theorem stream_passes {invocation : Invocation} {arguments : Arguments} (asks : Asks invocation arguments)
    (plain : arguments.concernsDaemon = false) (sound : arguments.objection = none)
    (stream : arguments.isStream = true) (host : Host) :
    let asked := toplevel invocation.directory host
    match Settings.load host.workspace.disk invocation.home asked.1.toOption with
    | .error _ => ∃ result, run invocation host = (.ended result, asked.2) ∧
      result.output = "" ∧ result.status = .failure ∧ asked.2.workspace.streams = host.workspace.streams
    | .ok _ => ∃ result held, run invocation host = (.ended result,
        { asked.2 with workspace := { asked.2.workspace with streams := [held] } }) ∧
      Passes invocation.input arguments result held := by
  have mode : arguments.mode = .workingDirectory := by
    refine Decidable.byContradiction fun mode => ?_
    have hook : IsHook arguments := ⟨plain, sound, mode⟩
    cases hook.files.symm.trans stream
  have kept : (toplevel invocation.directory host).2.workspace.disk = host.workspace.disk ∧
      (toplevel invocation.directory host).2.workspace.streams = host.workspace.streams := by
    obtain ⟨answer, next, top, _⟩ := toplevel_reads invocation.directory host
    rw [top]
    exact ⟨rfl, rfl⟩
  rw [run_formats asks plain host sound]
  rcases top : toplevel invocation.directory host with ⟨answer, asked⟩
  rw [top] at kept
  simp only [← kept.1]
  cases loaded : Settings.load asked.workspace.disk invocation.home answer.toOption with
  | error error =>
    rw [format_unsettled mode top loaded]
    exact ⟨_, rfl, rfl, rfl, kept.2⟩
  | ok settings =>
    obtain ⟨counts, done⟩ := ends_formatStream invocation.input arguments asked
    rw [format_stream mode top stream loaded, done]
    exact ⟨_, _, rfl, printed_passes invocation.input arguments counts⟩

def piped (bytes : ByteArray) : Invocation where
  words := ["-"]
  directory := ⟨"/repo"⟩
  input := { bytes }

theorem stream_passes_spaced : ∃ result held after, run (piped "a=1".toUTF8) running = (.ended result, after) ∧
    after.workspace.streams = [held] ∧ result.output = "a = 1" ∧ held.accepted = ["a = 1"] ∧ held.calls = 1 := by
  have asks : Asks (piped "a=1".toUTF8) { files := [⟨"-"⟩] } := ⟨_, rfl, rfl⟩
  have loaded : Settings.load running.workspace.disk none (toplevel ⟨"/repo"⟩ running).1.toOption = .ok {} := rfl
  have passes := stream_passes asks rfl rfl rfl running
  simp only [piped, loaded] at passes
  obtain ⟨result, held, ran, passes⟩ := passes
  have text : content { bytes := "a=1".toUTF8 } = .ok "a=1" := by
    simp only [content, ByteTexts.fromUTF8?_eq_some.mpr rfl]
  have done : Source.format "a=1" = .ok "a = 1" := by cbv
  exact ⟨result, held, _, ran, rfl, passes.formatted rfl text done⟩

def unsettled : Host where
  workspace := {
    disk := {
      entries := [(["repo"], .directory), (["repo", ".stagefmt"], .directory),
        (["repo", ".stagefmt", "config.yaml"], .file 0 0o644 "jobs: [".toUTF8)]
      fresh := 1 }
    repository := { root := ⟨"/repo"⟩ } }

/-- Without settings, a text that has a formatted form does not come out. -/
theorem unsettled_stream_lost : ¬ ∀ (invocation : Invocation) (host : Host) (source formatted : String),
    invocation.words = ["-"] → content invocation.input = .ok source → Source.format source = .ok formatted →
    ∃ result after, run invocation host = (.ended result, after) ∧ result.output = formatted := by
  intro whole
  have text : content (piped "a=1".toUTF8).input = .ok "a=1" := by
    simp only [content, piped, ByteTexts.fromUTF8?_eq_some.mpr rfl]
  obtain ⟨result, after, ran, output⟩ := whole (piped "a=1".toUTF8) unsettled "a=1" "a = 1" rfl text (by cbv)
  have stopped : (run (piped "a=1".toUTF8) unsettled).1 = .ended (.rejected .failure
      ("failed to load settings: failed to parse settings at /repo/.stagefmt/config.yaml: " ++
        "did not find expected node content: did not find expected node content")) := by decide +kernel
  rw [ran] at stopped
  cases stopped
  exact absurd output (by decide)

end StagedFormat.Proofs.StandardInput
