import StagedFormat.Proofs.ResultOrder
import StagedFormat.Proofs.TextOrder

/-! The report on results. Which results there are decides it, whatever their order: sorting puts them by
severity and name, and results that are left in the order that they came in have the same line. -/

namespace StagedFormat.Proofs.ReportOrder
open StagedFormat TextOrder ResultOrder

structure Failure where
  name : String
  message : String
  cause : FailureCause

def Failure.result (failure : Failure) : Result := .error failure.name failure.message failure.cause

/-- Results by their severity; of all but failures, the names tell everything. -/
structure Groups where
  alreadyFormatted : List String
  wouldFormat : List String
  formatted : List String
  failed : List Failure

namespace Groups

/-- The results, the least severe first. -/
def results (groups : Groups) : List Result :=
  groups.alreadyFormatted.map .alreadyFormatted ++ (groups.wouldFormat.map .wouldFormat ++
    (groups.formatted.map .formatted ++ groups.failed.map Failure.result))

def lines (groups : Groups) : List String :=
  groups.wouldFormat.map ("🛠️ Would format " ++ ·) ++ (groups.formatted.map ("✅ Formatted " ++ ·) ++
    groups.failed.map ("⛔️ " ++ ·.message))

structure Ascending (groups : Groups) : Prop where
  alreadyFormatted : groups.alreadyFormatted.Pairwise Ascend
  wouldFormat : groups.wouldFormat.Pairwise Ascend
  formatted : groups.formatted.Pairwise Ascend
  failed : (groups.failed.map Failure.name).Pairwise Ascend

private theorem reportLines_map {α : Type} {make : α → Result} {line : α → String}
    (tells : ∀ item, (make item).reportLine = some (line item)) (items : List α) :
    (items.map make).filterMap Result.reportLine = items.map line := by
  induction items with
  | nil => rfl
  | cons item items ih => rw [List.map_cons, List.filterMap_cons_some (tells item), ih, List.map_cons]

private theorem reportLines (groups : Groups) : groups.results.filterMap Result.reportLine = groups.lines := by
  have silent : (groups.alreadyFormatted.map Result.alreadyFormatted).filterMap Result.reportLine = [] := by
    rw [List.filterMap_map]
    exact List.filterMap_none groups.alreadyFormatted
  rw [results, List.filterMap_append, List.filterMap_append, List.filterMap_append, silent, List.nil_append,
    reportLines_map (fun _ => rfl), reportLines_map (fun _ => rfl), reportLines_map (fun _ => rfl), lines]

end Groups

def Unambiguous (results : List Result) : Prop :=
  ∀ name one other cause another, .error name one cause ∈ results → .error name other another ∈ results →
    one = other

/-- Whether a result is as severe as another one and has the same name. -/
def ties (result other : Result) : Bool := other.rank == result.rank && other.name == result.name

section
variable {first : Result}

def Before (first other : Result) : Prop := compareRungs (rung first) (rung other) ≠ .gt

theorem Before.rank {other : Result} (before : Before first other) : first.rank ≤ other.rank := by
  refine Nat.not_lt.mp fun less => before ?_
  have greater : compare first.rank other.rank = .gt := Nat.compare_eq_gt.mpr less
  simp only [compareRungs, compareLex, compareOn, rung, greater]
  rfl

theorem Before.ascend {other : Result} (before : Before first other) (same : first.rank = other.rank) :
    Ascend first.name other.name := by
  refine ascend_of_compare fun greater => before ?_
  simp only [compareRungs, compareLex, compareOn, rung, same, greater]
  rw [Nat.compare_eq_eq.mpr rfl]
  rfl

private theorem none_less {α : Type} {make : α → Result} {items : List α}
    (before : ∀ other ∈ items.map make, Before first other) (less : ∀ item, (make item).rank < first.rank) :
    items = [] := by
  refine List.eq_nil_iff_forall_not_mem.mpr fun item member => ?_
  exact Nat.not_le.mpr (less item) (before _ (List.mem_map_of_mem member)).rank

end

private theorem grouped {results : List Result} (ascends : results.Pairwise Before) :
    ∃ groups : Groups, results = groups.results ∧ groups.Ascending := by
  induction results with
  | nil => exact ⟨⟨[], [], [], []⟩, rfl, .nil, .nil, .nil, .nil⟩
  | cons first rest ih =>
    obtain ⟨least, ascends⟩ := List.pairwise_cons.mp ascends
    obtain ⟨⟨fine, wanting, done, failed⟩, rfl, ascending⟩ := ih ascends
    simp only [Groups.results, List.forall_mem_append] at least
    obtain ⟨overFine, overWanting, overDone, overFailed⟩ := least
    cases first with
    | alreadyFormatted name =>
      refine ⟨⟨name :: fine, wanting, done, failed⟩, rfl, { ascending with alreadyFormatted := ?_ }⟩
      refine List.pairwise_cons.mpr ⟨fun other member => ?_, ascending.alreadyFormatted⟩
      exact (overFine _ (List.mem_map_of_mem member)).ascend rfl
    | wouldFormat name =>
      obtain rfl := none_less overFine fun _ => by simp [Result.rank]
      refine ⟨⟨[], name :: wanting, done, failed⟩, rfl, { ascending with wouldFormat := ?_ }⟩
      refine List.pairwise_cons.mpr ⟨fun other member => ?_, ascending.wouldFormat⟩
      exact (overWanting _ (List.mem_map_of_mem member)).ascend rfl
    | formatted name =>
      obtain rfl := none_less overFine fun _ => by simp [Result.rank]
      obtain rfl := none_less overWanting fun _ => by simp [Result.rank]
      refine ⟨⟨[], [], name :: done, failed⟩, rfl, { ascending with formatted := ?_ }⟩
      refine List.pairwise_cons.mpr ⟨fun other member => ?_, ascending.formatted⟩
      exact (overDone _ (List.mem_map_of_mem member)).ascend rfl
    | error name message cause =>
      obtain rfl := none_less overFine fun _ => by simp [Result.rank]
      obtain rfl := none_less overWanting fun _ => by simp [Result.rank]
      obtain rfl := none_less overDone fun _ => by simp [Result.rank]
      refine ⟨⟨[], [], [], ⟨name, message, cause⟩ :: failed⟩, rfl, { ascending with failed := ?_ }⟩
      refine List.pairwise_cons.mpr ⟨fun other member => ?_, ascending.failed⟩
      obtain ⟨failure, inside, rfl⟩ := List.mem_map.mp member
      exact (overFailed _ (List.mem_map_of_mem inside)).ascend rfl

private theorem sorted_before (results : List Result) : (Result.sorted results).Pairwise Before :=
  List.Pairwise.of_map rung (fun _ _ before => before) (sorted_ascends results)

private theorem order_of_ties {result a b : Result} (first : ties result a) (second : ties result b) :
    a.order b = .eq := by
  simp only [ties, Bool.and_eq_true, beq_iff_eq] at first second
  simp only [Result.order, first.1, second.1, first.2, second.2, Std.ReflOrd.compare_self]
  rfl

private theorem sorted_ties (results : List Result) (result : Result) :
    (Result.sorted results).filter (ties result) = results.filter (ties result) := by
  have tied : (results.filter (ties result)).Pairwise fun a b => (a.order b != .gt) = true := by
    refine List.pairwise_of_forall_mem_list fun a first b second => ?_
    rw [order_of_ties (List.mem_filter.mp first).2 (List.mem_filter.mp second).2]
    rfl
  have kept := (List.sublist_mergeSort order_trans order_total tied List.filter_sublist).filter (ties result)
  simp only [List.filter_filter, Bool.and_self] at kept
  exact (kept.eq_of_length ((sorted_perm results).filter _).length_eq.symm).symm

section
variable {results : List Result}

private theorem line_of_rung (clear : Unambiguous results) {a b : Result} (first : a ∈ results) (second : b ∈ results)
    (same : rung a = rung b) : a.reportLine = b.reportLine := by
  cases a with
  | error name message cause =>
    cases b with
    | error other text another =>
      have names : name = other := congrArg Prod.snd same
      subst names
      rw [Result.reportLine, Result.reportLine, clear _ _ _ _ _ first second]
    | _ => cases congrArg Prod.fst same
  | _ =>
    cases b
    all_goals cases same
    all_goals rfl

private theorem lines_of_rungs {one other : List Result} (same : one.map rung = other.map rung)
    (lines : ∀ a ∈ one, ∀ b ∈ other, rung a = rung b → a.reportLine = b.reportLine) :
    one.filterMap Result.reportLine = other.filterMap Result.reportLine := by
  induction one generalizing other with
  | nil =>
    rw [List.map_eq_nil_iff.mp same.symm]
  | cons a one ih =>
    cases other with
    | nil => cases same
    | cons b other =>
      obtain ⟨head, tail⟩ := List.cons.inj same
      have later := ih tail fun x inside y member => lines x (.tail _ inside) y (.tail _ member)
      rw [List.filterMap_cons, List.filterMap_cons, lines a List.mem_cons_self b List.mem_cons_self head, later]

private theorem render_perm {other : List Result} (clear : Unambiguous results) (same : other.Perm results)
    (prePush : Bool) :
    Report.render (Result.sorted other) prePush = Report.render (Result.sorted results) prePush := by
  obtain ⟨perm, rungs⟩ := sorted_of_perm same
  have lines := lines_of_rungs rungs fun a first b second =>
    line_of_rung clear (same.mem_iff.mp ((sorted_perm other).mem_iff.mp first))
      ((sorted_perm results).mem_iff.mp second)
  simp only [Report.render, lines, perm.any_eq, perm.isEmpty_eq]

end

/-- What a report on results consists of: their lines by severity and name, and what is said around them. -/
structure Tells (results sorted : List Result) (prePush : Bool) (output : String) (groups : Groups) : Prop where
  sorted : sorted = groups.results
  ascending : groups.Ascending
  output : output = Report.ofLines (
    (if results = [] then [Report.nothingToFormat] else []) ++ groups.lines ++
      (if prePush ∧ ∃ result ∈ results, result.isChange then [Report.pushWarning] else []))

private theorem tells_sorted (results : List Result) (prePush : Bool) :
    ∃ groups, Tells results (Result.sorted results) prePush
      (Report.render (Result.sorted results) prePush).output groups := by
  obtain ⟨groups, same, ascending⟩ := grouped (sorted_before results)
  refine ⟨groups, same, ascending, ?_⟩
  have empty : (Result.sorted results).isEmpty = true ↔ results = [] := by
    rw [(sorted_perm results).isEmpty_eq, List.isEmpty_iff]
  have lines : (Result.sorted results).filterMap Result.reportLine = groups.lines := by
    rw [same, groups.reportLines]
  simp only [Report.render, lines, Bool.and_eq_true, any_sorted, empty]

/-- The report on results does not depend on their order, as long as no failures of one name have different
messages. Sorting puts them by severity and, within the same severity, by the bytes of their names; those
that tie keep their order. The report has one line for each that was not formatted already, and its status
is that of the worst. -/
theorem report_of_multiset (results : List Result) (prePush : Bool) :
    let sorted := Result.sorted results
    let report := Report.render sorted prePush
    (Unambiguous results → ∀ other : List Result, other.Perm results →
      Report.render (Result.sorted other) prePush = report) ∧
    sorted.Perm results ∧ (∀ result, sorted.filter (ties result) = results.filter (ties result)) ∧
    (∃ groups, Tells results sorted prePush report.output groups) ∧
    ∀ strict, report.exitStatus strict = statusOf strict results :=
  ⟨fun clear _ same => render_perm clear same prePush, sorted_perm results, sorted_ties results,
    tells_sorted results prePush, exitStatus_sorted results prePush⟩

def assorted : List Result :=
  [.error "b.kt" "gone" .io, .formatted "b.kt", .alreadyFormatted "a.kt", .error "b.kt" "gone" .crash,
    .error "a.kt" "open" .format, .formatted "a.kt"]

theorem report_of_multiset_reversed : Unambiguous assorted ∧ assorted.reverse ≠ assorted ∧
    Report.render (Result.sorted assorted.reverse) true = Report.render (Result.sorted assorted) true := by
  have clear : Unambiguous assorted := by
    intro name one other cause another first second
    simp only [assorted, List.mem_cons, Result.error.injEq, reduceCtorEq, false_or, or_false,
      List.not_mem_nil] at first second
    grind
  have same := (report_of_multiset assorted true).1 clear assorted.reverse (List.reverse_perm assorted)
  exact ⟨clear, by decide, same⟩

end StagedFormat.Proofs.ReportOrder
