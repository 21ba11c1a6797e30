import StagedFormat.Proofs.DaemonRoute
import StagedFormat.Proofs.DryRunHooks

/-! Hooks that get no reply from a daemon. An invocation formats by itself only if it takes the daemon for
gone: there is no record, or nobody takes the call. Any other way to get no reply ends it with an error. -/

namespace StagedFormat.Proofs.HookFallback
open StagedFormat Daemon CommandLine DaemonAnswers HookInvocations DryRuns DryRunHooks CalmRuns DaemonRoute

/-- A client takes the daemon of a repository for gone. -/
inductive Absent (host : Host) (root : Path) : Prop where
  | missing : host.workspace.disk.readText (lockPath root) = .error .notFound → Absent host root
  | illegible {text reason} : host.workspace.disk.readText (lockPath root) = .ok text →
      Record.parse text = .error reason → Absent host root
  | uncalled {text record} : host.workspace.disk.readText (lockPath root) = .ok text →
      Record.parse text = .ok record → host.dial record.port ∈ [.refused, .reset, .timedOut] →
      Absent host root

/-- Whoever takes the call is no daemon, and nothing comes back. -/
def Unanswered (host : Host) (root : Path) : Prop :=
  ∀ port, Client.connect Host.surroundings host root = .ok port → host.server? port = none ∧
    ∀ stranger ∈ host.strangers port, ∀ bytes, stranger.answer = .ok bytes → bytes = ByteArray.empty

section
variable {host : Host} {root : Path}

private theorem read_parsed {text : String} (read : host.workspace.disk.readText (lockPath root) = .ok text) :
    Record.read (Host.surroundings.disk host) (lockPath root) = .ok (Record.parse text).toOption := by
  change Record.read host.workspace.disk (lockPath root) = _
  simp only [Record.read, read]

private theorem connect_recorded {text : String} {record : Record}
    (read : host.workspace.disk.readText (lockPath root) = .ok text) (parsed : Record.parse text = .ok record) :
    Client.connect Host.surroundings host root =
      if host.dial record.port = .accepted then .ok record.port
      else if host.dial record.port = .unreachable then
        .error (.io ("127.0.0.1:" ++ toString record.port.toNat) .unreachable)
      else .error (.notRunning (lockPath root)) := by
  have dials : Host.surroundings.dial host record.port = host.dial record.port := rfl
  simp only [Client.connect, read_parsed read, parsed, Except.toOption, bind, Except.bind, dials]
  cases host.dial record.port <;> rfl

private theorem absent_iff : Absent host root ↔
    ∃ lock, Client.connect Host.surroundings host root = .error (.notRunning lock) := by
  constructor
  · intro absent
    refine ⟨lockPath root, ?_⟩
    cases absent with
    | missing gone =>
      have none : Record.read (Host.surroundings.disk host) (lockPath root) = .ok none := by
        change Record.read host.workspace.disk (lockPath root) = _
        simp only [Record.read, gone]
      simp only [Client.connect, none, bind, Except.bind]
      rfl
    | illegible read parsed =>
      simp only [Client.connect, read_parsed read, parsed, Except.toOption, bind, Except.bind]
      rfl
    | uncalled read parsed dial =>
      rw [connect_recorded read parsed]
      rcases List.mem_cons.mp dial with refused | others
      · simp [refused]
      · rcases List.mem_pair.mp others with reset | late
        · simp [reset]
        · simp [late]
  · rintro ⟨lock, gone⟩
    cases read : host.workspace.disk.readText (lockPath root) with
    | error cause =>
      by_cases absent : cause = .notFound
      · exact .missing (absent ▸ read)
      · have failed : Record.read (Host.surroundings.disk host) (lockPath root) =
            .error (.io (lockPath root).text cause) := by
          change Record.read host.workspace.disk (lockPath root) = _
          cases cause <;> first | exact (absent rfl).elim | simp only [Record.read, read]
        simp only [Client.connect, failed, bind, Except.bind] at gone
        cases gone
    | ok text =>
      cases parsed : Record.parse text with
      | error reason => exact .illegible read parsed
      | ok record =>
        refine .uncalled read parsed ?_
        rw [connect_recorded read parsed] at gone
        cases dial : host.dial record.port with
        | accepted => simp [dial] at gone
        | unreachable => simp [dial] at gone
        | _ => simp

private theorem ends_delegate_absent (absent : Absent host root) (command : Daemon.Command) :
    ends host (delegate root command) = (.ok none, host) := by
  obtain ⟨lock, gone⟩ := absent_iff.mp absent
  rw [ends_delegate, send_unconnected gone]

private theorem ends_delegate_stranded (present : ¬ Absent host root) (unanswered : Unanswered host root)
    (command : Daemon.Command) : ∃ error : DaemonError,
      ends host (delegate root command) = (.error ⟨"daemon request failed", error.trace⟩, host) := by
  rw [ends_delegate]
  cases connects : Client.connect Host.surroundings host root with
  | error error =>
    rw [send_unconnected connects]
    cases error with
    | notRunning lock => exact (present (absent_iff.mpr ⟨lock, connects⟩)).elim
    | _ => exact ⟨_, rfl⟩
  | ok port =>
    obtain ⟨undaemonic, nothing⟩ := unanswered port connects
    have delivered : host.deliver port (Client.request command) =
        (((host.strangers port).bind fun stranger => stranger.answer.toOption).getD ByteArray.empty, host) := by
      simp only [Host.deliver, undaemonic]
    rw [send_connected connects, delivered, Host.breaks, undaemonic]
    cases meets : host.strangers port with
    | none => exact ⟨_, rfl⟩
    | some stranger =>
      obtain ⟨dial, answer⟩ := stranger
      cases answer with
      | error cause => exact ⟨_, rfl⟩
      | ok bytes =>
        cases nothing _ meets bytes rfl
        exact ⟨_, rfl⟩

end

def ownOutcome (invocation : Invocation) (arguments : Arguments) (settings : Settings) (asked : Host) :
    Outcome × Host :=
  match ends asked (formatFiles { settings, directory := invocation.directory } arguments) with
  | (.ok ended, after) => (.ended ended, after)
  | (.error failure, after) => (.ended (.rejected .failure failure.message), after)

section
variable {invocation : Invocation} {arguments : Arguments} {host asked : Host} {root : Path}
  {settings : Settings}

theorem run_undelegated (asks : Asks invocation arguments) (hook : IsHook arguments)
    (prepared : Prepared invocation host root settings asked)
    (undelegated : arguments.has .useDaemon = false ∨ Absent asked root) :
    run invocation host = ownOutcome invocation arguments settings asked := by
  obtain ⟨command, sent⟩ := hook.sends invocation asked
  have own : ends host (format invocation arguments) =
      ends asked (formatFiles { settings, directory := invocation.directory } arguments) := by
    rw [format_prepared hook prepared sent]
    rcases undelegated with alone | absent
    · simp only [alone, Bool.false_eq_true, if_false]
    · simp only [ends_delegate_absent absent command, ite_self]
  have formats := run_formats asks hook.plain host hook.sound
  rw [own] at formats
  exact formats

theorem run_stranded (asks : Asks invocation arguments) (hook : IsHook arguments)
    (prepared : Prepared invocation host root settings asked) (chosen : arguments.has .useDaemon = true)
    (present : ¬ Absent asked root) (unanswered : Unanswered asked root) :
    ∃ message, run invocation host = (.ended (.rejected .failure message), asked) := by
  obtain ⟨command, sent⟩ := hook.sends invocation asked
  obtain ⟨error, failed⟩ := ends_delegate_stranded present unanswered command
  refine ⟨Failure.message ⟨"daemon request failed", error.trace⟩, ?_⟩
  rw [run_formats asks hook.plain host hook.sound, format_prepared hook prepared sent]
  simp only [chosen, if_true, failed]

/-- In a calm repository, an invocation reports on the results of its targets. -/
theorem ownOutcome_reports (calm : Calm asked.workspace) {scope : Scope} {next : Workspace}
    (resolved : Pipeline.resolve { settings, directory := invocation.directory } asked.workspace
      (ownRequest arguments) = (.ok scope, next)) :
    ∃ results characters after,
      Pipeline.dispatch spacing next scope = (.ok results, characters, after) ∧
      ownOutcome invocation arguments settings asked =
        (.ended (reported arguments { Report.render results arguments.mode.isPrePush with
            counts := if arguments.has .statistics then some (Pipeline.countsOf scope characters) else none }),
          { asked with workspace := after }) := by
  obtain ⟨results, characters, after, dispatched, ran⟩ := run_results calm spacing resolved
  refine ⟨results, characters, after, dispatched, ?_⟩
  rw [ownOutcome, ends_formatFiles, ran]
  rfl

end

/-! What is printed about a failure -/

private theorem ofLines_nonempty {lines : List String} (nonempty : lines ≠ []) : Report.ofLines lines ≠ "" := by
  obtain ⟨first, rest, rfl⟩ := List.exists_cons_of_ne_nil nonempty
  intro empty
  have length := congrArg String.length empty
  simp [Report.ofLines, String.join_cons] at length

private theorem lines_nonempty {text : List Char} (nonempty : text ≠ []) : Text.lines text ≠ [] := by
  intro empty
  have whole : ['\n'].intercalate (text.splitOn '\n') = text := List.intercalate_splitOn '\n'
  obtain ⟨front, last, parts⟩ := (List.eq_nil_or_concat (text.splitOn '\n')).resolve_left (List.splitOn_ne_nil _ _)
  rw [List.concat_eq_append] at parts
  unfold Text.lines at empty
  simp only [parts, List.getLast?_concat, List.dropLast_concat] at empty
  cases last with
  | nil =>
    rw [List.map_eq_nil_iff.mp empty] at parts
    rw [parts] at whole
    exact nonempty whole.symm
  | cons c rest => simp at empty

private theorem reportText_nonempty {text : String} (nonempty : text ≠ "") : reportText text ≠ "" := by
  refine ofLines_nonempty fun empty => ?_
  exact lines_nonempty (mt String.toList_eq_nil_iff.mp nonempty) (List.map_eq_nil_iff.mp empty)

private theorem render_nonempty {results : List Result} (failed : results.any Result.isError = true)
    (prePush : Bool) :
    (Report.render results prePush).output ≠ "" := by
  obtain ⟨result, inside, error⟩ := List.any_eq_true.mp failed
  obtain ⟨line, told⟩ : ∃ line, result.reportLine = some line := by
    cases result with
    | error name message cause => exact ⟨_, rfl⟩
    | _ => cases error
  have listed : line ∈ results.filterMap Result.reportLine := List.mem_filterMap.mpr ⟨result, inside, told⟩
  refine ofLines_nonempty (List.ne_nil_of_mem (a := line) ?_)
  exact List.mem_append_left _ (List.mem_append_right _ listed)

private theorem exitStatus_failure {report : Report} {failOnChange : Bool}
    (failed : report.exitStatus failOnChange = .failure) : report.hasFailure = true := by
  rw [Report.exitStatus] at failed
  cases failure : report.hasFailure with
  | true => rfl
  | false =>
    rw [failure] at failed
    cases changed : failOnChange && report.hasChange <;> simp [changed] at failed

private theorem reported_failure {arguments : Arguments} {results : List Result} {prePush : Bool}
    {counts : Option Counts}
    (failed : (reported arguments { Report.render results prePush with counts }).status = .failure) :
    (reported arguments { Report.render results prePush with counts }).output ≠ "" := by
  exact reportText_nonempty (render_nonempty (exitStatus_failure failed) prePush)

section
variable {direct delegating : Invocation} {own sent : Arguments}
  (twins : Twins direct own delegating sent)
include twins

private theorem ownOutcome_twins (settings : Settings) (asked : Host) :
    ownOutcome delegating sent settings asked = ownOutcome direct own settings asked := by
  have request : ownRequest sent = ownRequest own := by
    simp only [ownRequest, twins.mode, twins.files, twins.flags .dryRun (by simp),
      twins.flags .statistics (by simp)]
  have report : reported sent = reported own := by
    funext report
    simp only [reported, Arguments.failsOnChange, twins.flags .failOnChange (by simp),
      twins.flags .prePush (by simp)]
  unfold ownOutcome
  rw [ends_formatFiles, ends_formatFiles, request, report, twins.directory]

private theorem unprepared_twins (hook : IsHook own) {host : Host}
    (unprepared : ∀ root settings asked, ¬ Prepared direct host root settings asked) :
    run delegating host = run direct host := by
  have other := twins.hook hook
  rw [run_formats twins.asksToo other.plain host other.sound, run_formats twins.asks hook.plain host hook.sound]
  suffices same : ends host (format delegating sent) = ends host (format direct own) by rw [same]
  unfold format
  rcases top : toplevel direct.directory host with ⟨answer, asked⟩
  cases answer with
  | error fault =>
    simp only [if_neg hook.mode, if_neg other.mode, twins.directory, ends_bind, ends_map, repositoryRoot,
      ends_attempt_error top]
    rfl
  | ok root =>
    cases loaded : Settings.load asked.workspace.disk direct.home (some root) with
    | ok settings => exact (unprepared root settings asked ⟨top, loaded⟩).elim
    | error fault =>
      simp only [if_neg hook.mode, if_neg other.mode, twins.directory, twins.home, ends_bind, ends_map,
        ends_repositoryRoot top, Except.map, loadSettings, ends_attempt, loaded]
      rfl

end

/-- An invocation that asks a daemon it does not take for gone. -/
structure Stranded (invocation : Invocation) (arguments : Arguments) (host asked : Host) (root : Path)
    (settings : Settings) : Prop where
  sound : arguments.objection = none
  prepared : Prepared invocation host root settings asked
  present : ¬ Absent asked root

theorem hook_without_reply {direct delegating : Invocation} {own sent : Arguments}
    (twins : Twins direct own delegating sent) (plain : own.concernsDaemon = false)
    (mode : own.mode ≠ .workingDirectory) {host : Host}
    (unanswered : ∀ asked root settings, Prepared direct host root settings asked → Unanswered asked root) :
    ((∀ asked root settings, ¬ Stranded direct own host asked root settings) →
      run delegating host = run direct host) ∧
    ∀ asked root settings, Stranded direct own host asked root settings →
      (∃ message, run delegating host = (.ended (.rejected .failure message), asked)) ∧
      Untouched host.workspace asked.workspace ∧
      (Calm host.workspace → (∃ scope, (Pipeline.resolve { settings, directory := direct.directory }
          asked.workspace (ownRequest own)).1 = .ok scope) →
        ∃ result last, run direct host = (.ended result, last) ∧
          (result.status = .failure → result.output ≠ "")) := by
  constructor
  · intro gone
    cases sound : own.objection with
    | some message =>
      rw [run_rejects twins.asksToo (twins.concernsDaemon.trans plain) host (twins.objection.trans sound),
        run_rejects twins.asks plain host sound]
    | none =>
      have hook : IsHook own := ⟨plain, sound, mode⟩
      by_cases ready : ∃ root settings asked, Prepared direct host root settings asked
      · obtain ⟨root, settings, asked, prepared⟩ := ready
        have absent : Absent asked root := by
          by_contra present
          exact gone asked root settings ⟨sound, prepared, present⟩
        rw [run_undelegated twins.asksToo (twins.hook hook) (twins.prepared prepared) (.inr absent),
          run_undelegated twins.asks hook prepared (.inl twins.alone), ownOutcome_twins twins]
      · exact unprepared_twins twins hook fun root settings asked prepared => ready ⟨root, settings, asked, prepared⟩
  · rintro asked root settings ⟨sound, prepared, present⟩
    have hook : IsHook own := ⟨plain, sound, mode⟩
    have untouched : Untouched host.workspace asked.workspace := by
      have top := toplevel_untouched direct.directory host
      rwa [prepared.top] at top
    refine ⟨run_stranded twins.asksToo (twins.hook hook) (twins.prepared prepared) twins.useDaemon present
      (unanswered asked root settings prepared), untouched, ?_⟩
    rintro calm ⟨scope, resolved⟩
    obtain ⟨results, characters, after, _, outcome⟩ :=
      ownOutcome_reports (untouched_calm untouched calm) (Prod.ext resolved rfl)
    rw [run_undelegated twins.asks hook prepared (.inl twins.alone), outcome]
    exact ⟨_, _, rfl, reported_failure⟩

def closing : Host := { abandoned with strangers := fun _ => some {} }

def cutOff : Host := { abandoned with loopback := false }

private theorem closing_unanswered (asked : Host) (root : Path) (settings : Settings)
    (prepared : Prepared fromBelow closing root settings asked) : Unanswered asked root := by
  cases prepared.top
  intro port _
  refine ⟨rfl, fun stranger meets bytes sends => ?_⟩
  cases meets
  cases sends
  rfl

private theorem closing_stranded : Stranded fromBelow commitOne closing (toplevel fromBelow.directory closing).2
    ⟨"/repo"⟩ {} where
  sound := rfl
  prepared := ⟨rfl, rfl⟩
  present := by
    intro absent
    obtain ⟨lock, gone⟩ := absent_iff.mp absent
    have connects : Client.connect Host.surroundings (toplevel fromBelow.directory closing).2 ⟨"/repo"⟩ =
        .ok 40000 := rfl
    rw [connects] at gone
    cases gone

private theorem abandoned_absent : Absent (toplevel fromBelow.directory abandoned).2 ⟨"/repo"⟩ :=
  absent_iff.mpr ⟨lockPath ⟨"/repo"⟩, rfl⟩

/-- A stale record does no harm; a port that something else has taken over does. -/
theorem hook_without_reply_closing :
    run throughDaemon abandoned = run fromBelow abandoned ∧
      (∃ message after, run throughDaemon closing = (.ended (.rejected .failure message), after)) ∧
      ∃ result last, run fromBelow closing = (.ended result, last) ∧
        (result.status = .failure → result.output ≠ "") := by
  constructor
  · refine (hook_without_reply fromBelow_twins rfl nofun fun asked root settings prepared => ?_).1 ?_
    · cases prepared.top
      intro port connects
      cases connects
    · rintro asked root settings ⟨_, prepared, present⟩
      cases prepared.top
      exact present abandoned_absent
  · obtain ⟨_, stranded⟩ := hook_without_reply fromBelow_twins rfl nofun closing_unanswered
    obtain ⟨⟨message, failed⟩, _, formats⟩ := stranded _ _ _ closing_stranded
    exact ⟨⟨message, _, failed⟩, formats (fun _ => rfl) ⟨_, rfl⟩⟩

/-- Where the recorded port cannot be reached, the hook formats the staged file by itself, but fails when it
is told to use a daemon. -/
theorem unreachable_daemon_fails_hook :
    ¬ ∀ (direct delegating : Invocation) (own sent : Arguments) (host : Host),
      Twins direct own delegating sent → own.concernsDaemon = false → own.mode ≠ .workingDirectory →
      (∀ asked root settings, Prepared direct host root settings asked → Unanswered asked root) →
      ∃ result other last after, run direct host = (.ended result, last) ∧
        run delegating host = (.ended other, after) ∧ other.output = result.output ∧
        other.status = result.status ∧ after.workspace.repository.updates = last.workspace.repository.updates := by
  intro same
  have unanswered (asked : Host) (root : Path) (settings : Settings)
      (prepared : Prepared fromBelow cutOff root settings asked) : Unanswered asked root := by
    cases prepared.top
    intro port connects
    cases connects
  obtain ⟨result, other, last, after, ran, delegated, output, _⟩ :=
    same fromBelow throughDaemon commitOne _ cutOff fromBelow_twins rfl nofun unanswered
  have formats : (run fromBelow cutOff).1 = .ended { output := "✅ Formatted A.kt\n" } := by decide +kernel
  have fails : (run throughDaemon cutOff).1 = .ended (.rejected .failure ("daemon request failed: " ++
      "I/O error at 127.0.0.1:40000: Network is unreachable (os error 101): " ++
      "Network is unreachable (os error 101)")) := by decide +kernel
  rw [ran] at formats
  rw [delegated] at fails
  cases formats
  cases fails
  exact absurd output (by decide)

end StagedFormat.Proofs.HookFallback
