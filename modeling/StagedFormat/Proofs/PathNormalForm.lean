import StagedFormat.Proofs.FileWalk
import StagedFormat.Proofs.PathOrder

/-! Paths in normal form. Their text is that of their components, so two of them that stand for the same
components are one path; and what names spell from such a path on is in normal form again. -/

namespace StagedFormat.Proofs.PathNormalForm
open StagedFormat StagedFormat.Path Disk PathSegments PathPlaces PathOrder FileWalk

def Plain (component : Component) : Prop :=
  component = .parent ∨ ∃ name, component = .name name ∧ Proper name

/-- Components that start at the top or not, and go up and down from there. -/
def Normal (components : List Component) : Prop :=
  ∃ lead rest, components = lead ++ rest ∧ (lead = [] ∨ lead = [.top]) ∧ ∀ component ∈ rest, Plain component

/-- The text of a path is that of its components. -/
def Canonical (path : Path) : Prop := Normal path.components ∧ ofComponents path.components = path

theorem Normal.concat {components : List Component} (normal : Normal components) {component : Component}
    (plain : Plain component) : Normal (components ++ [component]) := by
  obtain ⟨lead, rest, rfl, starts, known⟩ := normal
  refine ⟨lead, rest ++ [component], List.append_assoc .., starts, ?_⟩
  intro other member
  rcases List.mem_append.mp member with member | member
  · exact known other member
  · exact List.mem_singleton.mp member ▸ plain

theorem Normal.dropLast {components : List Component} (normal : Normal components) : Normal components.dropLast := by
  obtain ⟨lead, rest, rfl, starts, known⟩ := normal
  by_cases empty : rest = []
  · subst empty
    rcases starts with rfl | rfl
    · exact ⟨[], [], rfl, .inl rfl, nofun⟩
    · exact ⟨[], [], rfl, .inl rfl, nofun⟩
  · refine ⟨lead, rest.dropLast, List.dropLast_append_of_ne_nil empty, starts, ?_⟩
    exact fun other member => known other (List.dropLast_subset _ member)

private theorem push_normal {stack : List Component} {component : Component} (normal : Normal stack.reverse)
    (plain : Plain component) : Normal (push stack component).reverse := by
  rcases plain with rfl | ⟨name, rfl, proper⟩
  · match stack with
    | [] => exact ⟨[], [.parent], rfl, .inl rfl, by simp [Plain]⟩
    | [.top] => exact ⟨[.top], [.parent], rfl, .inr rfl, by simp [Plain]⟩
    | [.current] | [.parent] | [.name _] => exact ⟨[], [], rfl, .inl rfl, nofun⟩
    | last :: below :: rest =>
      have shorter := normal.dropLast
      rw [List.reverse_cons, List.dropLast_concat] at shorter
      cases last <;> exact shorter
  · have longer := normal.concat (.inr ⟨name, rfl, proper⟩)
    rwa [← List.reverse_cons] at longer

private theorem foldl_push_normal {body stack : List Component} (normal : Normal stack.reverse)
    (known : ∀ component ∈ body, Plain component) : Normal (body.foldl push stack).reverse := by
  induction body generalizing stack with
  | nil => exact normal
  | cons component rest ih =>
    exact ih (push_normal normal (known component List.mem_cons_self))
      fun other member => known other (.tail _ member)

private theorem normal_nil : Normal [] := ⟨[], [], rfl, .inl rfl, nofun⟩

private theorem normal_top : Normal [.top] := ⟨[.top], [], rfl, .inr rfl, nofun⟩

theorem normal_components (path : Path) : Normal (path.components.foldl push []).reverse := by
  have known : ∀ component ∈ path.segments.filterMap Component.ofSegment, Plain component :=
    fun _ => mem_body
  have folded (stack : List Component) (normal : Normal stack.reverse) :
      Normal ((path.segments.filterMap Component.ofSegment).foldl push stack).reverse :=
    foldl_push_normal normal known
  unfold components
  split
  · exact folded [.top] normal_top
  · split
    · exact folded (push [] .current) normal_nil
    · exact folded [] normal_nil

theorem segments_ofSegments {segments : List ByteString} (nonempty : segments ≠ [])
    (slashless : ∀ segment ∈ segments, slash ∉ segment.bytes) : (ofSegments segments).segments = segments := by
  have parts : ∀ part ∈ segments.map ByteString.bytes, slash ∉ part := by
    intro part member
    obtain ⟨segment, inside, rfl⟩ := List.mem_map.mp member
    exact slashless segment inside
  simp only [ofSegments, Path.segments, joined]
  rw [List.splitOn_intercalate _ parts (by simpa using nonempty)]
  simp [Function.comp_def]

theorem Plain.written {component : Component} (plain : Plain component) :
    component.written ≠ "" ∧ slash ∉ component.written.bytes ∧
      Component.ofSegment component.written = some component := by
  rcases plain with rfl | ⟨name, rfl, proper⟩
  · decide
  · refine ⟨proper.1, proper.2.2.2, ?_⟩
    rw [Component.written, Component.ofSegment, proper_not_idle proper, if_neg Bool.false_ne_true,
      if_neg proper.2.2.1]

private theorem filterMap_written {rest : List Component} (known : ∀ component ∈ rest, Plain component) :
    (rest.map Component.written).filterMap Component.ofSegment = rest := by
  induction rest with
  | nil => rfl
  | cons component rest ih =>
    rw [List.map_cons, List.filterMap_cons_some (known component List.mem_cons_self).written.2.2,
      ih fun other member => known other (.tail _ member)]

private theorem ofComponents_segments {components : List Component} (more : components ≠ [.top]) :
    ofComponents components = ofSegments (components.map Component.written) := by
  unfold ofComponents
  split
  · exact (more rfl).elim
  · rfl

private theorem slashless_written {components : List Component} (normal : Normal components) {segment : ByteString}
    (member : segment ∈ components.map Component.written) : slash ∉ segment.bytes := by
  obtain ⟨component, inside, rfl⟩ := List.mem_map.mp member
  obtain ⟨lead, rest, rfl, starts, known⟩ := normal
  rcases List.mem_append.mp inside with inside | inside
  · rcases starts with rfl | rfl
    · cases inside
    · rw [List.mem_singleton.mp inside]
      decide
  · exact (known component inside).written.2.1

/-- Components in normal form are those of the path that they make. -/
theorem components_ofComponents {components : List Component} (normal : Normal components) :
    (ofComponents components).components = components := by
  by_cases top : components = [.top]
  · rw [top]
    decide
  · have same := ofComponents_segments top
    by_cases empty : components = []
    · rw [empty]
      decide
    · have parts : (ofComponents components).segments = components.map Component.written := by
        rw [same]
        exact segments_ofSegments (by simpa using empty) fun _ member => slashless_written normal member
      obtain ⟨lead, rest, rfl, starts, known⟩ := normal
      generalize ofComponents (lead ++ rest) = path at parts
      obtain ⟨first, others, shape, leads⟩ := segments_cons path
      rw [parts] at shape
      rcases starts with rfl | rfl
      · cases rest with
        | nil => exact (empty rfl).elim
        | cons component rest =>
          obtain ⟨rfl, _⟩ := List.cons.inj shape
          have own := known component List.mem_cons_self
          have relative : path.isAbsolute = false :=
            Bool.eq_false_iff.mpr fun absolute => own.written.1 (leads.mpr (.inr absolute))
          have dotless : component.written ≠ "." := by
            rcases own with rfl | ⟨name, rfl, proper⟩
            · decide
            · exact proper.2.1
          rw [components, if_neg (by rw [relative]; decide), parts, if_neg (by simpa using dotless)]
          exact filterMap_written known
      · obtain ⟨rfl, _⟩ := List.cons.inj shape
        have absolute : path.isAbsolute = true := by
          refine (leads.mp rfl).resolve_left fun bare => ?_
          have alone : path.segments = [ByteString.ofText ""] := by rw [Path.segments, bare]; rfl
          rw [parts, List.cons_append, List.nil_append, List.map_cons] at alone
          rw [List.map_eq_nil_iff.mp (List.cons.inj alone).2] at top
          exact top rfl
        rw [components_absolute absolute, parts, List.map_append, List.filterMap_append, filterMap_written known]
        rfl

private theorem canonical_of_normal {components : List Component} (normal : Normal components) :
    Canonical (ofComponents components) := by
  rw [Canonical, components_ofComponents normal]
  exact ⟨normal, rfl⟩

theorem canonical_normalize (path : Path) : Canonical path.normalize :=
  canonical_of_normal (normal_components path)

theorem Normal.concat_of_long {components : List Component} (normal : Normal components)
    (nonempty : components ≠ []) (top : components ≠ [.top]) :
    ∃ front last, components = front ++ [last] ∧ Plain last := by
  obtain ⟨lead, rest, rfl, starts, known⟩ := normal
  rcases List.eq_nil_or_concat rest with rfl | ⟨front, last, rfl⟩
  · rcases starts with rfl | rfl
    · exact (nonempty rfl).elim
    · exact (top rfl).elim
  · exact ⟨lead ++ front, last, by simp, known last (by simp)⟩

/-- What is below a path in normal form is in normal form too. -/
theorem canonical_join {path : Path} (canonical : Canonical path) (nonempty : path.written ≠ "") {name : ByteString}
    (proper : Proper name) : Canonical (path.join ⟨name⟩) := by
  obtain ⟨normal, whole⟩ := canonical
  have longer := components_join (Proper.clean proper) nonempty
  rw [segments_proper proper, List.map_singleton] at longer
  refine ⟨longer ▸ normal.concat (.inr ⟨name, rfl, proper⟩), ?_⟩
  rw [longer]
  by_cases top : path.components = [.top]
  · rw [top] at whole ⊢
    have spelt := @path_join [] nofun name proper
    rw [show path = Location.path [] from whole.symm, spelt]
    exact ofComponents_path [name]
  · have parts : path.segments = path.components.map Component.written := by
      rw [← whole, components_ofComponents normal, ofComponents_segments top]
      exact segments_ofSegments (by simpa using components_ne_nil nonempty) fun _ => slashless_written normal
    obtain ⟨front, last, shape, plain⟩ := normal.concat_of_long (components_ne_nil nonempty) top
    obtain ⟨own, joined, kept | cut⟩ := segments_join path (Proper.clean proper)
    · rw [segments_proper proper, kept, parts] at joined
      have long : path.components ++ [.name name] ≠ [.top] := by
        rw [shape]
        intro same
        simpa using congrArg List.length same
      rw [ofComponents_segments long, List.map_append]
      exact congrArg Path.mk ((written_of_segments _).trans (congrArg _ joined)).symm
    · rw [parts, shape, List.map_append] at cut
      exact (plain.written.1 (List.singleton_inj.mp (List.append_inj_right' cut rfl)).symm).elim

private theorem join_nonempty (path : Path) {name : ByteString} (proper : Proper name) :
    (path.join ⟨name⟩).written ≠ "" := by
  intro bare
  obtain ⟨front, joined, _⟩ := segments_join path (Proper.clean proper)
  have alone : [] ++ [ByteString.ofText ""] = front ++ [name] := by
    rw [segments_proper proper, Path.segments, bare] at joined
    exact joined
  exact proper.1 (List.singleton_inj.mp (List.append_inj_right' alone rfl)).symm

theorem canonical_spelled {path : Path} (canonical : Canonical path) (nonempty : path.written ≠ "")
    {names : Location} (proper : ∀ name ∈ names, Proper name) : Canonical (spelled path names) := by
  induction names generalizing path with
  | nil => exact canonical
  | cons name names ih =>
    have own := proper name List.mem_cons_self
    exact ih (canonical_join canonical nonempty own) (join_nonempty path own)
      fun other member => proper other (.tail _ member)

theorem eq_of_canonical {a b : Path} (one : Canonical a) (other : Canonical b) (same : a.same b) : a = b := by
  rw [Path.same, beq_iff_eq] at same
  rw [← one.2, ← other.2, same]

end StagedFormat.Proofs.PathNormalForm
