import StagedFormat.Proofs.StandardInput

/-! Calls on one stream, in any order, whichever of them fail. Its input is read once, its output gets what
is written, and the text is sent on unchanged at most once. A stream whose input could not be read does not
keep the failure: to later reads it is empty. -/

namespace StagedFormat.Proofs.StreamCalls
open StagedFormat StandardInput

inductive Call where
  | read
  | write (content : String)
  | replay

/-- A call with its answer; of a replay, also the text that it handed to the output, if it did. -/
inductive Event where
  | read (answer : Except TargetError String)
  | write (content : String) (answer : Except TargetError Unit)
  | replay (sent : Option String) (answer : Except TargetError Unit)

namespace Event

def call : Event → Call
  | .read _ => .read
  | .write content _ => .write content
  | .replay _ _ => .replay

def isRead : Event → Bool
  | .read _ => true
  | _ => false

def gives : Event → Bool
  | .read (.ok _) => true
  | _ => false

def handed : Event → List String
  | .write content _ | .replay (some content) _ => [content]
  | _ => []

def delivered : Event → List String
  | .write content (.ok ()) | .replay (some content) (.ok ()) => [content]
  | _ => []

def resends : Event → Bool
  | .replay (some _) (.ok ()) => true
  | _ => false

end Event

/-- The text that a replay hands to the output. -/
def unsent (stream : Stream) : Option String := if stream.hasWritten then none else stream.kept

def perform (stream : Stream) : Call → Event × Stream
  | .read => (.read stream.read.1, stream.read.2)
  | .write content => (.write content (stream.write content).1, (stream.write content).2)
  | .replay => (.replay (unsent stream) stream.replay.1, stream.replay.2)

def follow (past : List Event × Stream) (call : Call) : List Event × Stream :=
  (past.1 ++ [(perform past.2 call).1], (perform past.2 call).2)

def run (stream : Stream) (calls : List Call) : List Event × Stream := calls.foldl follow ([], stream)

section
variable (input : StreamInput) (refuses : Nat → Option IoError)

/-- The text of every read but the first: that of the input, or nothing if it could not be read. -/
def later : String :=
  match content input with
  | .ok source => source
  | .error _ => ""

def outcome : Option IoError → Except TargetError Unit
  | some cause => .error (.stream streamName cause)
  | none => .ok ()

/-- What the output answers when it is called after these events. -/
def reception (before : List Event) : Except TargetError Unit :=
  outcome (refuses ((before.flatMap Event.handed).length + 1))

/-- What comes of a call after these events. -/
def Fits (before : List Event) : Event → Prop
  | .read answer => answer = if before.any Event.isRead then .ok (later input) else content input
  | .write _ answer => answer = reception refuses before
  | .replay sent answer =>
    sent = (if before.any Event.gives ∧ before.flatMap Event.delivered = [] then some (later input) else none) ∧
      answer = if sent.isSome then reception refuses before else .ok ()

/-- The stream after these events. -/
structure Stands (past : List Event) (stream : Stream) : Prop where
  refusals : stream.refuses = refuses
  taken : stream.input = if past.any Event.isRead then none else some input
  kept : stream.kept = if past.any Event.gives then some (later input) else none
  /-- If there were reads and none of them gave a text, the input cannot be read. -/
  failed : past.any Event.isRead → past.any Event.gives = false → later input = ""
  hasWritten : stream.hasWritten = !(past.flatMap Event.delivered).isEmpty
  calls : stream.calls = (past.flatMap Event.handed).length
  accepted : stream.accepted = past.flatMap Event.delivered

end

variable {input : StreamInput} {refuses : Nat → Option IoError}

private theorem later_of_content {source : String} (text : content input = .ok source) : later input = source := by
  rw [later, text]

private theorem isRead_of_gives {past : List Event} (given : past.any Event.gives) : past.any Event.isRead := by
  obtain ⟨event, member, gives⟩ := List.any_eq_true.mp given
  refine List.any_eq_true.mpr ⟨event, member, ?_⟩
  cases event with
  | read _ => rfl
  | _ => cases gives

private theorem read_kept {stream : Stream} {text : String} (kept : stream.kept = some text) :
    stream.read = (.ok text, stream) := by
  simp only [Stream.read, kept]

/-- A read of a stream whose input is taken finds nothing, which is a text too. -/
theorem read_taken {stream : Stream} (unread : stream.kept = none) (taken : stream.input = none) :
    stream.read = (.ok "", { stream with kept := some "" }) := by
  have empty : String.fromUTF8? ByteArray.empty = some "" := ByteTexts.fromUTF8?_eq_some.mpr rfl
  obtain ⟨_, _, hasWritten, calls, accepted, refuses⟩ := stream
  cases unread
  cases taken
  simp only [Stream.read, Option.map_none, Option.getD_none, empty]

def called (stream : Stream) (content : String) : Stream :=
  let number := stream.calls + 1
  { stream with
    calls := number
    accepted := stream.accepted ++ if (stream.refuses number).isNone then [content] else []
    hasWritten := stream.hasWritten || (stream.refuses number).isNone }

private theorem write_eq (stream : Stream) (content : String) :
    stream.write content = (outcome (stream.refuses (stream.calls + 1)), called stream content) := by
  rw [Stream.write]
  cases refused : stream.refuses (stream.calls + 1) with
  | none => simp [outcome, called, refused]
  | some cause => simp [outcome, called, refused]

private theorem replay_eq (stream : Stream) :
    stream.replay = (unsent stream).elim (.ok (), stream) stream.write := by
  rw [Stream.replay, unsent]
  cases stream.hasWritten with
  | true => rfl
  | false => cases stream.kept <;> rfl

section
variable {past : List Event} {stream : Stream}

private theorem stands_start : Stands input refuses [] { input := some input, refuses } := by
  constructor
  case failed => exact nofun
  all_goals rfl

/-- After a read the input is taken, and a text is kept if there was one. -/
theorem Stands.heard (stands : Stands input refuses past stream) (answer : Except TargetError String)
    (kept : Option String)
    (keeps : kept =
      if (past.any Event.gives || (Event.read answer).gives) = true then some (later input) else none)
    (failed : (Event.read answer).gives = false → past.any Event.gives = false → later input = "") :
    Stands input refuses (past ++ [.read answer]) { stream with input := none, kept } := by
  constructor
  case refusals => exact stands.refusals
  case taken => simp [Event.isRead]
  case kept => simpa using keeps
  case failed =>
    intro _ none
    simp only [List.any_append, List.any_cons, List.any_nil, Bool.or_false, Bool.or_eq_false_iff] at none
    exact failed none.2 none.1
  case hasWritten => simpa [Event.delivered] using stands.hasWritten
  case calls => simpa [Event.handed] using stands.calls
  case accepted => simpa [Event.delivered] using stands.accepted

theorem Stands.reads (stands : Stands input refuses past stream) :
    Fits input refuses past (.read stream.read.1) ∧
      Stands input refuses (past ++ [.read stream.read.1]) stream.read.2 := by
  have kept := stands.kept
  have taken := stands.taken
  by_cases given : past.any Event.gives = true
  · rw [if_pos given] at kept
    rw [if_pos (isRead_of_gives given)] at taken
    rw [read_kept kept]
    refine ⟨(if_pos (isRead_of_gives given)).symm, ?_⟩
    have heard := stands.heard (.ok (later input)) (some (later input)) (by simp [given]) nofun
    rwa [← kept, ← taken] at heard
  rw [if_neg given] at kept
  by_cases seen : past.any Event.isRead = true
  · have nothing := stands.failed seen (Bool.eq_false_iff.mpr given)
    rw [if_pos seen] at taken
    rw [read_taken kept taken]
    refine ⟨by simp only [Fits, if_pos seen, nothing], ?_⟩
    have heard := stands.heard (.ok "") (some "") (by simp [Event.gives, nothing]) nofun
    rwa [← taken] at heard
  · rw [if_neg seen] at taken
    rw [read_first input kept taken]
    refine ⟨(if_neg seen).symm, stands.heard _ _ ?_ ?_⟩
    · cases text : content input with
      | error error => simp [Event.gives, given, Except.toOption]
      | ok source => simp [Event.gives, Except.toOption, later_of_content text]
    · intro unread _
      cases text : content input with
      | error error => rw [later, text]
      | ok source =>
        rw [text] at unread
        cases unread

theorem Stands.hands (stands : Stands input refuses past stream) {event : Event} {text : String}
    (handed : event.handed = [text]) (silent : event.isRead = false ∧ event.gives = false)
    (delivered : event.delivered = if (stream.refuses (stream.calls + 1)).isNone then [text] else []) :
    Stands input refuses (past ++ [event]) (called stream text) := by
  constructor
  case refusals => exact stands.refusals
  case taken => simpa [silent, called] using stands.taken
  case kept => simpa [silent, called] using stands.kept
  case failed => simpa [silent] using stands.failed
  case hasWritten =>
    simp only [called, stands.hasWritten, List.flatMap_append, List.flatMap_singleton, delivered]
    cases stream.refuses (stream.calls + 1) <;> simp
  case calls => simp [called, stands.calls, handed]
  case accepted => simp [called, stands.accepted, delivered]

theorem Stands.rests (stands : Stands input refuses past stream) :
    Stands input refuses (past ++ [.replay none (.ok ())]) stream := by
  constructor
  case refusals => exact stands.refusals
  case taken => simpa [Event.isRead] using stands.taken
  case kept => simpa [Event.gives] using stands.kept
  case failed => simpa [Event.isRead, Event.gives] using stands.failed
  case hasWritten => simpa [Event.delivered] using stands.hasWritten
  case calls => simpa [Event.handed] using stands.calls
  case accepted => simpa [Event.delivered] using stands.accepted

private theorem delivered_write (content : String) (refusal : Option IoError) :
    (Event.write content (outcome refusal)).delivered = if refusal.isNone then [content] else [] := by
  cases refusal <;> rfl

private theorem delivered_replay (text : String) (refusal : Option IoError) :
    (Event.replay (some text) (outcome refusal)).delivered = if refusal.isNone then [text] else [] := by
  cases refusal <;> rfl

theorem Stands.reception (stands : Stands input refuses past stream) :
    outcome (stream.refuses (stream.calls + 1)) = reception refuses past := by
  rw [stands.refusals, stands.calls, StreamCalls.reception]

theorem Stands.unsent (stands : Stands input refuses past stream) :
    unsent stream =
      if past.any Event.gives ∧ past.flatMap Event.delivered = [] then some (later input) else none := by
  rw [StreamCalls.unsent, stands.hasWritten, stands.kept]
  cases past.flatMap Event.delivered with
  | nil => simp
  | cons _ _ => simp

theorem Stands.performs (stands : Stands input refuses past stream) (call : Call) :
    Fits input refuses past (perform stream call).1 ∧
      Stands input refuses (past ++ [(perform stream call).1]) (perform stream call).2 := by
  cases call with
  | read => exact stands.reads
  | write content =>
    rw [perform, write_eq]
    exact ⟨stands.reception, stands.hands rfl ⟨rfl, rfl⟩ (delivered_write _ _)⟩
  | replay =>
    rw [perform, replay_eq]
    cases sent : StreamCalls.unsent stream with
    | none => exact ⟨⟨sent.symm.trans stands.unsent, rfl⟩, stands.rests⟩
    | some text =>
      rw [Option.elim_some, write_eq]
      refine ⟨⟨sent.symm.trans stands.unsent, ?_⟩, stands.hands rfl ⟨rfl, rfl⟩ (delivered_replay _ _)⟩
      exact stands.reception

/-- What came of a call fits what came of the calls before it. -/
def Consistent (input : StreamInput) (refuses : Nat → Option IoError) (events : List Event) : Prop :=
  ∀ before event after, events = before ++ event :: after → Fits input refuses before event

theorem Consistent.snoc (consistent : Consistent input refuses past) {event : Event}
    (fits : Fits input refuses past event) : Consistent input refuses (past ++ [event]) := by
  intro before other after split
  rcases List.eq_nil_or_concat' after with rfl | ⟨rest, last, rfl⟩
  · obtain ⟨rfl, rfl⟩ := List.append_inj' split rfl |>.imp_right List.head_eq_of_cons_eq
    exact fits
  · rw [← List.cons_append, ← List.append_assoc] at split
    exact consistent _ _ _ (List.append_inj' split rfl).1

theorem Consistent.front {event : Event} (consistent : Consistent input refuses (past ++ [event])) :
    Consistent input refuses past ∧ Fits input refuses past event := by
  refine ⟨fun before other after split => ?_, consistent past event [] rfl⟩
  subst split
  exact consistent before other (after ++ [event]) (List.append_assoc ..)

private theorem exists_of_resends {event : Event} (resends : event.resends) :
    ∃ text, event = .replay (some text) (.ok ()) := by
  match event, resends with
  | .replay (some text) (.ok ()), _ => exact ⟨text, rfl⟩

/-- Where nothing was delivered, the text was not sent on; and it is never sent on a second time. -/
theorem Consistent.once (consistent : Consistent input refuses past) :
    past.countP Event.resends ≤ 1 ∧ (past.flatMap Event.delivered = [] → past.countP Event.resends = 0) := by
  induction past using List.reverseRecOn with
  | nil => exact ⟨Nat.zero_le 1, fun _ => rfl⟩
  | append_singleton past event ih =>
    obtain ⟨front, fits⟩ := consistent.front
    obtain ⟨once, unsent⟩ := ih front
    rw [List.countP_append, List.countP_singleton, List.flatMap_append, List.flatMap_singleton,
      List.append_eq_nil_iff]
    by_cases resends : event.resends = true
    · obtain ⟨text, rfl⟩ := exists_of_resends resends
      have vacant : past.flatMap Event.delivered = [] := by
        by_contra delivered
        obtain ⟨sent, _⟩ := fits
        rw [if_neg fun both => delivered both.2] at sent
        cases sent
      rw [unsent vacant]
      exact ⟨Nat.le_refl 1, fun nothing => nomatch nothing.2⟩
    · rw [if_neg resends]
      exact ⟨once, fun nothing => unsent nothing.1⟩

private theorem run_stands (calls : List Call) :
    (run { input := some input, refuses } calls).1.map Event.call = calls ∧
      Consistent input refuses (run { input := some input, refuses } calls).1 ∧
      Stands input refuses (run { input := some input, refuses } calls).1
        (run { input := some input, refuses } calls).2 := by
  induction calls using List.reverseRecOn with
  | nil => exact ⟨rfl, fun before event after split => by simp [run] at split, stands_start⟩
  | append_singleton calls call ih =>
    obtain ⟨called, consistent, stands⟩ := ih
    obtain ⟨fits, next⟩ := stands.performs call
    rw [run, List.foldl_append, ← run]
    refine ⟨?_, consistent.snoc fits, next⟩
    rw [List.foldl_cons, List.foldl_nil, follow, List.map_append, called]
    cases call <;> rfl

end

/-- What is known of calls on a stream, and of the stream after them. -/
structure History (input : StreamInput) (refuses : Nat → Option IoError) (calls : List Call)
    (events : List Event) (last : Stream) : Prop where
  called : events.map Event.call = calls
  consistent : Consistent input refuses events
  /-- The input is taken by the first read. -/
  taken : last.input = if events.any Event.isRead then none else some input
  /-- If the input can be read, every read gives all of it. -/
  whole : ∀ source, content input = .ok source → ∀ answer, .read answer ∈ events → answer = .ok source
  calls : last.calls = (events.flatMap Event.handed).length
  accepted : last.accepted = events.flatMap Event.delivered
  once : events.countP Event.resends ≤ 1

/-- Whatever is called on a stream, and whichever calls of its output fail: the input is taken by the first
read alone; the output is called with each text that is written, and with the text of the input if a replay
comes after a read that gave one and nothing was delivered yet. If the input can be read, every read gives
the whole text, and this is what a replay sends. If it cannot be read, the first read fails, and the later
ones give an empty text. -/
theorem stream_history (input : StreamInput) (refuses : Nat → Option IoError) (calls : List Call) :
    History input refuses calls (run { input := some input, refuses } calls).1
      (run { input := some input, refuses } calls).2 := by
  obtain ⟨called, consistent, stands⟩ := @run_stands input refuses calls
  constructor
  case called => exact called
  case consistent => exact consistent
  case taken => exact stands.taken
  case whole =>
    intro source text answer member
    obtain ⟨before, after, split⟩ := List.append_of_mem member
    have fits : answer = _ := consistent before _ after split
    rw [later_of_content text, text, ite_self] at fits
    exact fits
  case calls => exact stands.calls
  case accepted => exact stands.accepted
  case once => exact consistent.once.1

def broken : StreamInput := { bytes := "a=1".toUTF8, failure := some (.other "input broke") }

/-- A read that succeeds need not give the text of the input: after a failure it gives none of it. -/
theorem failed_read_forgotten : ¬ ∀ (input : StreamInput) (calls : List Call) (text : String),
    .read (.ok text) ∈ (run { input := some input } calls).1 → content input = .ok text := by
  intro whole
  have second : Event.read (.ok "") ∈ (run { input := some broken } [.read, .read]).1 := by
    have first : Stream.read { input := some broken } = (content broken, taken broken) := read_opened broken
    have again : (taken broken).read = (.ok "", _) := read_taken rfl rfl
    simp only [run, List.foldl_cons, List.foldl_nil, follow, perform, first, again]
    exact .tail _ (.head _)
  exact nomatch whole broken [.read, .read] "" second

end StagedFormat.Proofs.StreamCalls
