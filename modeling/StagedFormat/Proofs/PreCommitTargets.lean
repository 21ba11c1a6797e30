import StagedFormat.Pipeline
import StagedFormat.Proofs.FileRestoration
import StagedFormat.Proofs.PreCommitScope

/-! What becomes of one staged change: its file and its index entry stay as they are, get the
formatter's output together, or are left halfway when version control fails in between. -/

namespace StagedFormat.Proofs.PreCommitTargets
open StagedFormat Git Listing Disk ByteTexts PathSegments DiskFollowing DiskReplacement FileRestoration
  RepositoryEffects

def site (top : Location) (change : Change) : Location := top ++ change.path.segments

theorem site_injective {top : Location} {one other : Change} (same : site top one = site top other) :
    one.path = other.path :=
  congrArg Path.mk (segments_injective (List.append_cancel_left same))

/-- As far as some contents go, objects are addressed by content: none of the contents has the hash of
another one, or of something else that is staged. -/
structure Addressed (repository : Repository) (changes : List Change) (contents : ByteArray → Prop) :
    Prop where
  kept : ∀ change ∈ changes, ∀ content, contents content → repository.hash content = change.hash →
    repository.objects.lookup change.hash = some content
  apart : ∀ one other, contents one → contents other → repository.hash one = repository.hash other →
    one = other
  plain : ∀ content, contents content →
    (repository.hash content).trimmed = repository.hash content ∧ ',' ∉ (repository.hash content).toList

/-- The file of a change without unstaged changes: it is reached without links, holds the staged
content, and has nothing in the place of its temporary file. -/
structure CheckedOut (disk : Disk) (repository : Repository) (top : Location) (change : Change) : Prop where
  above : ∀ upper, upper <+: change.path.segments → upper ≠ change.path.segments →
    disk.entry? (top ++ upper) = some .directory
  stands : ∃ id mode content, disk.entry? (site top change) = some (.file id mode content) ∧
    repository.objects.lookup change.hash = some content
  free : Unoccupied disk (WorkingFile.temporary (site top change).path)

/-- What handling changes relies on, and leaves in place for those that are still to be handled. -/
structure Ready (format : Formatter) (index : Index) (root : Path) (top : Location)
    (contents : ByteArray → Prop) (workspace : Workspace) (changes : List Change) : Prop where
  unpoisoned : workspace.poisoned = false
  calm : ∀ attempt, workspace.repository.crashes attempt = none
  clean : ∀ change ∈ changes, Clean change.path
  modes : ∀ change ∈ changes, ',' ∉ change.mode.toList
  distinct : changes.Pairwise fun one other => one.path ≠ other.path
  listed : ∀ change ∈ changes,
    index.after workspace.repository.updates change.path = some ⟨change.mode, change.hash⟩
  reached : Leads workspace.disk true [] (steps root) ⟨top, some .directory⟩
  files : ∀ change ∈ changes, change.isClean →
    CheckedOut workspace.disk workspace.repository top change
  addressed : Addressed workspace.repository changes contents
  outputs : ∀ change ∈ changes, ∀ source formatted,
    workspace.repository.objects.lookup change.hash = some source.toUTF8 →
    format source = .text formatted → contents formatted.toUTF8

/-- What handling changes may do: replace their files, store contents, and update their index entries. -/
structure Effect (top : Location) (contents : ByteArray → Prop) (changes : List Change)
    (before after : Workspace) : Prop where
  others : ∀ location, (∀ change ∈ changes, change.isClean → location ≠ site top change) →
    after.disk.entry? location = before.disk.entry? location
  alike : Alike before.disk after.disk
  poisoned : after.poisoned = before.poisoned
  repository : ∃ stored logged, Grows before.repository after.repository stored logged ∧
    (∀ object ∈ stored, contents object.2 ∧ object.1 = before.repository.hash object.2) ∧
    ∀ update ∈ logged, ∃ change ∈ changes, update.path = change.path

section
variable {top : Location} {contents : ByteArray → Prop} {changes : List Change} {before after : Workspace}

theorem Effect.refl (top : Location) (contents : ByteArray → Prop) (changes : List Change)
    (workspace : Workspace) : Effect top contents changes workspace workspace :=
  ⟨fun _ _ => rfl, .refl _, rfl, [], [], .idle _ _, nofun, nofun⟩

theorem Effect.trans {first second : List Change} {middle : Workspace}
    (one : Effect top contents first before middle) (two : Effect top contents second middle after) :
    Effect top contents (first ++ second) before after := by
  obtain ⟨stored, logged, grows, addressed, own⟩ := one.repository
  obtain ⟨stored', logged', grows', addressed', own'⟩ := two.repository
  have hash : middle.repository.hash = before.repository.hash := by
    obtain ⟨_, same⟩ := grows
    rw [same]
  refine ⟨?_, one.alike.trans two.alike, two.poisoned.trans one.poisoned, _, _, grows.trans grows', ?_, ?_⟩
  · intro location apart
    rw [two.others location fun change member => apart change (List.mem_append_right _ member),
      one.others location fun change member => apart change (List.mem_append_left _ member)]
  · intro object member
    rcases List.mem_append.mp member with member | member
    · rw [← hash]
      exact addressed' object member
    · exact addressed object member
  · intro update member
    rcases List.mem_append.mp member with member | member
    · obtain ⟨change, handled, path⟩ := own update member
      exact ⟨change, List.mem_append_left _ handled, path⟩
    · obtain ⟨change, handled, path⟩ := own' update member
      exact ⟨change, List.mem_append_right _ handled, path⟩

variable (effect : Effect top contents changes before after)
include effect

theorem Effect.hash : after.repository.hash = before.repository.hash := by
  obtain ⟨_, _, ⟨_, same⟩, _⟩ := effect.repository
  rw [same]

theorem Effect.crashes : after.repository.crashes = before.repository.crashes := by
  obtain ⟨_, _, ⟨_, same⟩, _⟩ := effect.repository
  rw [same]

theorem Effect.index (index : Index) {path : Path} (apart : ∀ change ∈ changes, change.path ≠ path) :
    index.after after.repository.updates path = index.after before.repository.updates path := by
  obtain ⟨_, logged, ⟨_, same⟩, _, own⟩ := effect.repository
  rw [same, Index.after_append, Index.after_elsewhere]
  intro update member
  obtain ⟨change, handled, named⟩ := own update member
  exact named ▸ apart change handled

theorem Effect.stored_or_known (hash : String) :
    after.repository.objects.lookup hash = before.repository.objects.lookup hash ∨
      ∃ content, contents content ∧ hash = before.repository.hash content ∧
        after.repository.objects.lookup hash = some content := by
  obtain ⟨stored, _, ⟨_, same⟩, addressed, _⟩ := effect.repository
  rw [same]
  simp only [List.lookup_append]
  cases found : stored.lookup hash with
  | none => exact .inl rfl
  | some content =>
    obtain ⟨front, back, split, _⟩ := List.lookup_eq_some_iff.mp found
    have own := addressed (hash, content) (split ▸ List.mem_append_right _ List.mem_cons_self)
    exact .inr ⟨content, own.1, own.2, rfl⟩

theorem Effect.known {all : List Change} (addressed : Addressed before.repository all contents)
    {change : Change} (member : change ∈ all) :
    after.repository.objects.lookup change.hash = before.repository.objects.lookup change.hash := by
  rcases effect.stored_or_known change.hash with same | ⟨content, own, hash, found⟩
  · exact same
  · rw [found, addressed.kept change member content own hash.symm]

theorem Effect.stored {all : List Change} (addressed : Addressed before.repository all contents)
    {content : ByteArray} (own : contents content)
    (found : before.repository.objects.lookup (before.repository.hash content) = some content) :
    after.repository.objects.lookup (after.repository.hash content) = some content := by
  rw [effect.hash]
  rcases effect.stored_or_known (before.repository.hash content) with same | ⟨other, owned, hash, newer⟩
  · rw [same, found]
  · rw [newer, addressed.apart content other own owned hash]

end

section
variable {format : Formatter} {index : Index} {root : Path} {top : Location}
  {contents : ByteArray → Prop} {before after : Workspace} {change : Change} {rest : List Change}

theorem CheckedOut.transfer {disk other : Disk} {repository next : Repository}
    (out : CheckedOut disk repository top change) (alike : Alike disk other)
    (same : other.entry? (site top change) = disk.entry? (site top change))
    (object : next.objects.lookup change.hash = repository.objects.lookup change.hash) :
    CheckedOut other next top change := by
  refine ⟨?_, ?_, out.free.transfer alike⟩
  · intro upper leads different
    exact alike.directory (out.above upper leads different)
  · rw [same, object]
    exact out.stands

theorem CheckedOut.grounded {disk : Disk} {repository : Repository}
    (out : CheckedOut disk repository top change) (clean : Clean change.path)
    (grounded : Grounded disk top) : Grounded disk (site top change) := by
  constructor
  · intro name member
    rcases List.mem_append.mp member with member | member
    · exact grounded.proper name member
    · exact clean name member
  · intro upper leads different
    rcases List.prefix_or_prefix_of_prefix leads (List.prefix_append top _) with inside | ⟨below, rfl⟩
    · by_cases whole : upper = top
      · have stands := out.above [] List.nil_prefix (Ne.symm (segments_ne_nil change.path))
        rwa [List.append_nil, ← whole] at stands
      · exact grounded.above upper inside whole
    · refine out.above below ((List.prefix_append_right_inj top).mp leads) ?_
      rintro rfl
      exact different rfl

theorem Ready.head (ready : Ready format index root top contents before (change :: rest)) :
    ∀ other ∈ rest, change.path ≠ other.path :=
  fun _ member => List.rel_of_pairwise_cons ready.distinct member

/-- After one change, all is ready for the others. -/
theorem Ready.step (ready : Ready format index root top contents before (change :: rest))
    (effect : Effect top contents [change] before after) :
    Ready format index root top contents after rest := by
  have later : rest ⊆ change :: rest := List.subset_cons_self _ _
  have object : ∀ other ∈ rest, after.repository.objects.lookup other.hash =
      before.repository.objects.lookup other.hash :=
    fun other member => effect.known ready.addressed (later member)
  refine ⟨effect.poisoned.trans ready.unpoisoned, ?_, fun other member => ready.clean other (later member),
    fun other member => ready.modes other (later member), ready.distinct.tail, ?_,
    ready.reached.transfer_directory effect.alike, ?_, ⟨?_, ?_, ?_⟩, ?_⟩
  · rw [effect.crashes]
    exact ready.calm
  · intro other member
    rw [← ready.listed other (later member)]
    refine effect.index index fun handled single => ?_
    cases List.mem_singleton.mp single
    exact ready.head other member
  · intro other member clean
    refine (ready.files other (later member) clean).transfer effect.alike ?_ (object other member)
    refine effect.others _ fun handled single _ same => ready.head other member ?_
    cases List.mem_singleton.mp single
    exact (site_injective same).symm
  · intro other member content own hash
    rw [object other member]
    rw [effect.hash] at hash
    exact ready.addressed.kept other (later member) content own hash
  · rw [effect.hash]
    exact ready.addressed.apart
  · rw [effect.hash]
    exact ready.addressed.plain
  · intro other member source formatted found
    rw [object other member] at found
    exact ready.outputs other (later member) source formatted found

end

/-- What may become of a change. -/
inductive Fate (format : Formatter) (index : Index) (top : Location) (before after : Workspace)
    (change : Change) : Result → Prop where
  | kept {result} : result.name = change.path.text →
      (result.isError ∨ result = .alreadyFormatted change.path.text) →
      after.disk.entry? (site top change) = before.disk.entry? (site top change) →
      index.after after.repository.updates change.path =
        index.after before.repository.updates change.path →
      Fate format index top before after change result
  | formatted {source formatted} :
      before.repository.objects.lookup change.hash = some source.toUTF8 →
      format source = .text formatted →
      index.after after.repository.updates change.path =
        some ⟨change.mode, after.repository.hash formatted.toUTF8⟩ →
      after.repository.objects.lookup (after.repository.hash formatted.toUTF8) = some formatted.toUTF8 →
      (change.isClean → ∃ id mode,
        after.disk.entry? (site top change) = some (.file id mode formatted.toUTF8)) →
      Fate format index top before after change (.formatted change.path.text)
  | halfway {source formatted id mode new fault} : change.isClean →
      before.disk.entry? (site top change) = some (.file id mode source.toUTF8) →
      format source = .text formatted →
      after.disk.entry? (site top change) = some (.file new mode formatted.toUTF8) →
      index.after after.repository.updates change.path =
        index.after before.repository.updates change.path →
      (commandOf fault = (Command.writeBlob formatted.toUTF8).line ∨
        ∃ hash, commandOf fault = (Command.updateIndex change.mode hash change.path).line) →
      Fate format index top before after change (Pipeline.ioFailure change.path.text (.git fault))

section
variable {format : Formatter} {index : Index} {root : Path} {top : Location}
  {contents : ByteArray → Prop} {first before after last : Workspace} {change : Change}
  {changes : List Change} {result : Result}

/-- The fate of a change does not depend on what is handled before it. -/
theorem Fate.earlier (fate : Fate format index top before after change result)
    (effect : Effect top contents changes first before) (apart : ∀ other ∈ changes, other.path ≠ change.path)
    (object : before.repository.objects.lookup change.hash = first.repository.objects.lookup change.hash) :
    Fate format index top first after change result := by
  have entry : before.disk.entry? (site top change) = first.disk.entry? (site top change) :=
    effect.others _ fun other member _ same => apart other member (site_injective same).symm
  have listed : index.after before.repository.updates change.path =
      index.after first.repository.updates change.path :=
    effect.index index apart
  cases fate with
  | kept named harmless file staged => exact .kept named harmless (file.trans entry) (staged.trans listed)
  | formatted source output staged stored file =>
    exact .formatted (object.symm.trans source) output staged stored file
  | halfway clean source output file staged line =>
    exact .halfway clean (entry.symm.trans source) output file (staged.trans listed) line

/-- The fate of a change does not depend on what is handled after it. -/
theorem Fate.later (fate : Fate format index top before after change result)
    (effect : Effect top contents changes after last) (apart : ∀ other ∈ changes, other.path ≠ change.path)
    (keeps : ∀ source formatted, before.repository.objects.lookup change.hash = some source.toUTF8 →
      format source = .text formatted →
      after.repository.objects.lookup (after.repository.hash formatted.toUTF8) = some formatted.toUTF8 →
      last.repository.objects.lookup (last.repository.hash formatted.toUTF8) = some formatted.toUTF8) :
    Fate format index top before last change result := by
  have entry : last.disk.entry? (site top change) = after.disk.entry? (site top change) :=
    effect.others _ fun other member _ same => apart other member (site_injective same).symm
  have listed : index.after last.repository.updates change.path =
      index.after after.repository.updates change.path :=
    effect.index index apart
  cases fate with
  | kept named harmless file staged => exact .kept named harmless (entry.trans file) (listed.trans staged)
  | formatted source output staged stored file =>
    refine .formatted source output (listed.trans ?_) (keeps _ _ source output stored) ?_
    · rw [effect.hash]
      exact staged
    · rw [entry]
      exact file
  | halfway clean source output file staged line =>
    exact .halfway clean source output (entry.trans file) (listed.trans staged) line

end

/-- Handling a change ends with a result that tells what became of it. -/
def Handles (format : Formatter) (index : Index) (root : Path) (top : Location)
    (contents : ByteArray → Prop) (workspace : Workspace) (change : Change) : Prop :=
  ∃ result characters next,
    Pipeline.formatTarget format false workspace (Resolver.stagedTarget root change) =
      ({ result := .ok result, characters }, next) ∧
    Fate format index top workspace next change result ∧ Effect top contents [change] workspace next

private theorem settle_cases (format : Formatter) (workspace : Workspace) (target : Target) (content : String) :
    (∃ result, Pipeline.settle format false workspace target content = (.ok result, workspace) ∧
      result.name = target.name ∧ (result.isError ∨ result = .alreadyFormatted target.name)) ∨
    ∃ formatted, format content = .text formatted ∧
      Pipeline.settle format false workspace target content =
        Pipeline.writeBack workspace target formatted := by
  unfold Pipeline.settle
  cases made : format content with
  | rejected error => exact .inl ⟨_, rfl, rfl, .inl rfl⟩
  | crashed message => exact .inl ⟨_, rfl, rfl, .inl rfl⟩
  | text formatted =>
    by_cases same : formatted = content
    · exact .inl ⟨.alreadyFormatted target.name, by simp only [if_pos same], rfl, .inr rfl⟩
    · exact .inr ⟨formatted, rfl, by simp only [if_neg same, Bool.false_eq_true, if_false]⟩

section
variable {format : Formatter} {index : Index} {root : Path} {top : Location}
  {contents : ByteArray → Prop} {workspace : Workspace} {change : Change} {rest : List Change}

theorem Effect.of_grows {next : Repository} {stored : List (String × ByteArray)}
    {logged : List IndexUpdate} (grows : Grows workspace.repository next stored logged)
    (addressed : ∀ object ∈ stored, contents object.2 ∧ object.1 = workspace.repository.hash object.2)
    (own : ∀ update ∈ logged, update.path = change.path) :
    Effect top contents [change] workspace { workspace with repository := next } :=
  ⟨fun _ _ => rfl, .refl _, rfl, stored, logged, grows, addressed,
    fun update member => ⟨change, List.mem_cons_self, own update member⟩⟩

theorem Effect.of_replaced {next : Disk} {id mode kept : Nat} {old content : ByteArray}
    (clean : change.isClean) (replaced : Replaced workspace.disk (site top change) mode content next)
    (stands : workspace.disk.entry? (site top change) = some (.file id kept old)) :
    Effect top contents [change] workspace { workspace with disk := next } :=
  ⟨fun location apart => replaced.others location (apart change List.mem_cons_self clean),
    replaced.alike stands, rfl, [], [], .idle _ _, nofun, nofun⟩

/-- A write that failed left the entries of the tree as they were. -/
theorem Effect.of_entries {next : Disk} (same : next.entries = workspace.disk.entries) :
    Effect top contents [change] workspace { workspace with disk := next } :=
  ⟨fun location _ => entry?_of_entries same location,
    fun location => congrArg (Option.map shape) (entry?_of_entries same location).symm, rfl, [], [], .idle _ _, nofun,
    nofun⟩

theorem Effect.again {before middle after : Workspace} (one : Effect top contents [change] before middle)
    (two : Effect top contents [change] middle after) : Effect top contents [change] before after := by
  obtain ⟨others, alike, poisoned, stored, logged, grows, addressed, own⟩ := one.trans two
  refine ⟨fun location apart => others location ?_, alike, poisoned, stored, logged, grows, addressed, ?_⟩
  · intro other member
    cases List.mem_singleton.mp ((List.mem_append.mp member).elim id id)
    exact apart change List.mem_cons_self
  · intro update member
    obtain ⟨other, handled, path⟩ := own update member
    exact ⟨other, (List.mem_append.mp handled).elim id id, path⟩

private theorem stage_effect (index : Index) (root : Path) (top : Location) (workspace : Workspace)
    (unpoisoned : workspace.poisoned = false)
    (calm : ∀ attempt, workspace.repository.crashes attempt = none) (mode : ',' ∉ change.mode.toList)
    {changes : List Change} (addressed : Addressed workspace.repository changes contents)
    {formatted : String} (own : contents formatted.toUTF8) :
    (∃ fault next, workspace.stage root change.path change.mode formatted =
        (.error (.failed (.git fault)), { workspace with repository := next }) ∧
      (commandOf fault = (Command.writeBlob formatted.toUTF8).line ∨
        ∃ hash, commandOf fault = (Command.updateIndex change.mode hash change.path).line) ∧
      Effect top contents [change] workspace { workspace with repository := next } ∧
      next.updates = workspace.repository.updates) ∨
    ∃ next, workspace.stage root change.path change.mode formatted =
        (.ok (), { workspace with repository := next }) ∧
      Effect top contents [change] workspace { workspace with repository := next } ∧
      index.after next.updates change.path = some ⟨change.mode, next.hash formatted.toUTF8⟩ ∧
      next.objects.lookup (next.hash formatted.toUTF8) = some formatted.toUTF8 := by
  obtain ⟨tidy, commas⟩ := addressed.plain _ own
  rcases stage_cases workspace root change.path unpoisoned calm mode tidy commas with
    ⟨fault, next, stored, failed, line, objects, grows⟩ | ⟨next, done, grows⟩
  · refine .inl ⟨fault, next, failed, line.imp id fun line => ⟨_, line⟩, .of_grows grows ?_ nofun, ?_⟩
    · intro object member
      rw [objects object member]
      exact ⟨own, rfl⟩
    · obtain ⟨_, rfl⟩ := grows
      exact List.append_nil _
  · refine .inr ⟨next, done, .of_grows grows ?_ ?_, ?_, ?_⟩
    · intro object member
      rw [List.mem_singleton.mp member]
      exact ⟨own, rfl⟩
    · intro update member
      rw [List.mem_singleton.mp member]
    · obtain ⟨_, rfl⟩ := grows
      rw [Index.after_append]
      exact if_pos rfl
    · obtain ⟨_, rfl⟩ := grows
      rw [List.singleton_append, List.lookup_cons_self]

private theorem writeBack_done {target : Target} {content : String} {next : Workspace}
    (written : target.write workspace content = (.ok (), next)) :
    Pipeline.writeBack workspace target content = (.ok (.formatted target.name), next) := by
  rw [Pipeline.writeBack, written]

private theorem writeBack_failed {target : Target} {content : String} {error : TargetError} {next : Workspace}
    (written : target.write workspace content = (.error (.failed error), next)) :
    Pipeline.writeBack workspace target content =
      (.ok (Pipeline.ioFailure target.name error), next) := by
  rw [Pipeline.writeBack, written]

private theorem formatTarget_unread {dryRun : Bool} {target : Target} {error : TargetError} {next : Workspace}
    (read : target.read workspace = (.error error, next)) :
    Pipeline.formatTarget format dryRun workspace target =
      ({ result := .ok (Pipeline.ioFailure target.name error), characters := 0 }, next) := by
  rw [Pipeline.formatTarget, read]

private theorem formatTarget_read {dryRun : Bool} {target : Target} {content : String} {next last : Workspace}
    {result : Except String Result} (read : target.read workspace = (.ok content, next))
    (settled : Pipeline.settle format dryRun next target content = (result, last)) :
    Pipeline.formatTarget format dryRun workspace target =
      ({ result, characters := content.length }, last) := by
  simp only [Pipeline.formatTarget, read, settled]

private theorem name_pair (root : Path) (mode hash : String) (clean : Clean change.path) :
    (Target.pair ⟨root, change.path, mode, hash⟩ ⟨root.join change.path, some root⟩).name =
      change.path.text := by
  rw [Target.name, WorkingFile.name, Option.bind_some, relativeTo?_join root clean]
  rfl

variable (ready : Ready format index root top contents workspace (change :: rest))
include ready

private theorem read_file (clean : change.isClean) {text : String}
    (read : workspace.disk.readText (root.join change.path) = .ok text) :
    ∃ id mode, workspace.disk.find true (root.join change.path) =
        .ok ⟨site top change, some (.file id mode text.toUTF8)⟩ ∧
      workspace.repository.objects.lookup change.hash = some text.toUTF8 := by
  have out := ready.files change List.mem_cons_self clean
  have plain := ready.clean change List.mem_cons_self
  have grounded := out.grounded plain
    (ready.reached.grounded (fun _ => proper_of_steps) (.top workspace.disk) rfl).1
  obtain ⟨id, mode, content, stands, object⟩ := out.stands
  have leads := leads_join plain ready.reached grounded (by
    rw [show workspace.disk.entry? (top ++ change.path.segments) = _ from stands]
    trivial)
  obtain ⟨location, id', mode', found⟩ := readText_iff.mp read
  have same := (leads_of_find found).unique leads
  rw [show workspace.disk.entry? (top ++ change.path.segments) = _ from stands] at same
  cases same
  exact ⟨id, mode, found, object⟩

theorem blob_fate (unclean : ¬ change.isClean) :
    Handles format index root top contents workspace change := by
  rw [Handles, Resolver.stagedTarget, if_neg unclean]
  generalize same : Target.blob ⟨root, change.path, change.mode, change.hash⟩ = target
  have name : target.name = change.path.text := by rw [← same]; rfl
  obtain ⟨answer, attempts, asked, object⟩ := readBlob_cases workspace root change.hash
  have idle : Effect top contents [change] workspace (tried workspace attempts) :=
    .of_grows (.idle _ attempts) nofun nofun
  cases answer with
  | error error =>
    have read : target.read workspace = (.error (.git error), tried workspace attempts) := by
      simp only [← same, Target.read, IndexBlob.read, asked]
    exact ⟨_, _, _, formatTarget_unread read, .kept name (.inl rfl) rfl rfl, idle⟩
  | ok bytes =>
    cases decoded : String.fromUTF8? bytes with
    | none =>
      have read : target.read workspace =
          (.error (.notText change.path.text), tried workspace attempts) := by
        simp only [← same, Target.read, IndexBlob.read, asked, decoded]
        rfl
      exact ⟨_, _, _, formatTarget_unread read, .kept name (.inl rfl) rfl rfl, idle⟩
    | some text =>
      have read : target.read workspace = (.ok text, tried workspace attempts) := by
        simp only [← same, Target.read, IndexBlob.read, asked, decoded]
      have source := object bytes rfl
      rw [fromUTF8?_eq_some.mp decoded] at source
      rcases settle_cases format (tried workspace attempts) target text with
        ⟨result, settled, named, harmless⟩ | ⟨formatted, output, settled⟩
      · rw [name] at named harmless
        exact ⟨result, _, _, formatTarget_read read settled, .kept named harmless rfl rfl, idle⟩
      · have own := ready.outputs change List.mem_cons_self text formatted source output
        have write : target.write (tried workspace attempts) formatted =
            (tried workspace attempts).stage root change.path change.mode formatted := by
          rw [← same]
          rfl
        have addressed : Addressed (tried workspace attempts).repository (change :: rest) contents :=
          ⟨ready.addressed.kept, ready.addressed.apart, ready.addressed.plain⟩
        have plain := ready.modes change List.mem_cons_self
        rcases stage_effect index root top (tried workspace attempts) ready.unpoisoned ready.calm plain
          addressed own with
          ⟨fault, next, failed, _, effect, updates⟩ | ⟨next, done, effect, listed, stored⟩
        · rw [writeBack_failed (write.trans failed)] at settled
          refine ⟨_, _, _, formatTarget_read read settled, .kept name (.inl rfl) rfl ?_, idle.again effect⟩
          exact congrArg (fun updates => index.after updates change.path) updates
        · rw [writeBack_done (write.trans done), name] at settled
          exact ⟨_, _, _, formatTarget_read read settled,
            .formatted source output listed stored fun clean => (unclean clean).elim, idle.again effect⟩

theorem pair_fate (clean : change.isClean) :
    Handles format index root top contents workspace change := by
  have name := name_pair root change.mode change.hash (ready.clean change List.mem_cons_self)
  rw [Handles, Resolver.stagedTarget, if_pos clean]
  generalize same : Target.pair ⟨root, change.path, change.mode, change.hash⟩
    ⟨root.join change.path, some root⟩ = target at name ⊢
  have idle := Effect.refl top contents [change] workspace
  cases held : workspace.disk.readText (root.join change.path) with
  | error cause =>
    have read : target.read workspace = (.error (.io (root.join change.path) cause), workspace) := by
      simp only [← same, Target.read, WorkingFile.read, held]
      rfl
    exact ⟨_, _, _, formatTarget_unread read, .kept name (.inl rfl) rfl rfl, idle⟩
  | ok text =>
    have read : target.read workspace = (.ok text, workspace) := by
      simp only [← same, Target.read, WorkingFile.read, held]
      rfl
    obtain ⟨id, mode, found, source⟩ := read_file ready clean held
    have stands : workspace.disk.entry? (site top change) = some (.file id mode text.toUTF8) :=
      (find_grounded found).2.symm
    rcases settle_cases format workspace target text with
      ⟨result, settled, named, harmless⟩ | ⟨formatted, output, settled⟩
    · rw [name] at named harmless
      exact ⟨result, _, _, formatTarget_read read settled, .kept named harmless rfl rfl, idle⟩
    · have own := ready.outputs change List.mem_cons_self text formatted source output
      -- The file is written first; from then on a failure leaves the change halfway.
      have free := (ready.files change List.mem_cons_self clean).free
      rw [← show WorkingFile.destination workspace.disk (root.join change.path) = (site top change).path from
        destination_of_find found] at free
      rcases @write_cases _ ⟨root.join change.path, some root⟩ free _ _ _ _ found formatted with
        ⟨cause, disk, failed, entries⟩ | ⟨disk, written, replaced⟩
      · have write : target.write workspace formatted = (.error (.failed cause), { workspace with disk }) := by
          simp only [← same, Target.write, Target.writeFile, failed]
          rfl
        rw [writeBack_failed write] at settled
        exact ⟨_, _, _, formatTarget_read read settled, .kept name (.inl rfl) (entry?_of_entries entries _) rfl,
          .of_entries entries⟩
      · have write : target.write workspace formatted =
            ({ workspace with disk } : Workspace).stage root change.path change.mode formatted := by
          simp only [← same, Target.write, Target.writeFile, written]
          rfl
        have first : Effect top contents [change] workspace { workspace with disk } :=
          .of_replaced clean replaced stands
        obtain ⟨new, file⟩ := replaced.file
        have plain := ready.modes change List.mem_cons_self
        rcases stage_effect index root top { workspace with disk } ready.unpoisoned ready.calm plain
          ready.addressed own with
          ⟨fault, next, failed, line, effect, updates⟩ | ⟨next, done, effect, listed, stored⟩
        · rw [writeBack_failed (write.trans failed), name] at settled
          refine ⟨_, _, _, formatTarget_read read settled, .halfway clean stands output file ?_ line,
            first.again effect⟩
          exact congrArg (fun updates => index.after updates change.path) updates
        · rw [writeBack_done (write.trans done), name] at settled
          exact ⟨_, _, _, formatTarget_read read settled,
            .formatted source output listed stored fun _ => ⟨new, mode, file⟩, first.again effect⟩

end

end StagedFormat.Proofs.PreCommitTargets
