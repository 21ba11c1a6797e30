import StagedFormat.Disk.Basic
import StagedFormat.Proofs.TextPieces

/-! The parts of paths that are put together: a path below a base, and the path of a location. -/

namespace StagedFormat.Proofs.PathSegments
open StagedFormat Disk TextPieces

/-- A name that leads one level down. -/
def Proper (name : ByteString) : Prop := name ≠ "" ∧ name ≠ "." ∧ name ≠ ".." ∧ Path.slash ∉ name.bytes

instance (name : ByteString) : Decidable (Proper name) := inferInstanceAs (Decidable (_ ∧ _))

/-- A relative path without empty parts, dots and parent steps. -/
def Clean (path : Path) : Prop := ∀ segment ∈ path.segments, Proper segment

instance (path : Path) : Decidable (Clean path) := inferInstanceAs (Decidable (∀ _ ∈ _, _))

theorem segments_slashless {path : Path} {segment : ByteString} (member : segment ∈ path.segments) :
    Path.slash ∉ segment.bytes := by
  obtain ⟨part, inside, rfl⟩ := List.mem_map.mp member
  intro slash
  exact absurd (mem_splitOnP inside Path.slash slash) (by decide)

theorem segments_ne_nil (path : Path) : path.segments ≠ [] := by
  simp [Path.segments]

theorem written_of_segments (path : Path) : path.written = Path.joined path.segments := by
  rw [← ByteString.bytes_inj]
  simp [Path.joined, Path.segments, Function.comp_def]

theorem segments_injective {a b : Path} (same : a.segments = b.segments) : a.written = b.written := by
  rw [written_of_segments, same, ← written_of_segments]

theorem segments_append_slash (front back : ByteString) :
    (⟨front ++ "/" ++ back⟩ : Path).segments =
      (⟨front⟩ : Path).segments ++ (⟨back⟩ : Path).segments := by
  simp only [Path.segments, ByteString.bytes_append, ← List.map_append]
  rw [List.append_assoc]
  exact congrArg _ (List.splitOn_append_cons_self _ _)

theorem Clean.nonempty {path : Path} (clean : Clean path) : path.written ≠ "" := by
  intro empty
  have member : ByteString.ofText "" ∈ path.segments := by simp [Path.segments, empty]
  exact (clean _ member).1 rfl

theorem Clean.relative {path : Path} (clean : Clean path) : path.isAbsolute = false := by
  rw [Bool.eq_false_iff]
  intro absolute
  rw [Path.isAbsolute, beq_iff_eq, List.head?_eq_some_iff] at absolute
  obtain ⟨rest, leads⟩ := absolute
  have member : ByteString.ofText "" ∈ path.segments := by
    simp [Path.segments, leads, List.splitOn_cons_eq_if_modifyHead]
  exact (clean _ member).1 rfl

theorem segments_proper {name : ByteString} (proper : Proper name) : (⟨name⟩ : Path).segments = [name] := by
  rw [Path.segments, List.splitOn_eq_singleton proper.2.2.2, List.map_singleton]

theorem Proper.clean {name : ByteString} (proper : Proper name) : Clean ⟨name⟩ := by
  intro segment member
  rw [segments_proper proper, List.mem_singleton] at member
  exact member ▸ proper

private theorem getLast?_of_segments {path : Path} (clean : Clean path) :
    path.written.bytes.getLast? ≠ some Path.slash := by
  intro slash
  obtain ⟨front, ends⟩ := List.getLast?_eq_some_iff.mp slash
  have member : ByteString.ofText "" ∈ path.segments := by
    rw [Path.segments, ends, List.splitOn_append_cons_self]
    simp
  exact (clean _ member).1 rfl

private theorem filterMap_proper {names : List ByteString} (proper : ∀ name ∈ names, Proper name) :
    names.filterMap Step.ofSegment = names.map .down := by
  induction names with
  | nil => rfl
  | cons name names ih =>
    have ⟨nonempty, noDot, noParent, _⟩ := proper name List.mem_cons_self
    have leads : Step.ofSegment name = some (.down name) := by
      unfold Step.ofSegment
      split <;> simp_all
    rw [List.filterMap_cons_some leads, ih fun other member => proper other (.tail _ member),
      List.map_cons]

/-- A slash at the end of the base does not matter. -/
theorem segments_join_relative (base : Path) {path : Path} (relative : path.isAbsolute = false) :
    ∃ front, (base.join path).segments = front ++ path.segments ∧
      (front = base.segments ∨ front ++ [ByteString.ofText ""] = base.segments) := by
  unfold Path.join
  rw [relative]
  split
  · contradiction
  · split
    · rename_i bare
      rcases bare with empty | slash
      · exact ⟨[], by simp [empty], .inr (by simp [Path.segments, empty])⟩
      · obtain ⟨front, ends⟩ := List.getLast?_eq_some_iff.mp slash
        have shape : base.written = ByteString.mk front ++ "/" ++ "" := by
          simp [← ByteString.bytes_inj, ends]
        have alone := segments_append_slash (ByteString.mk front) ""
        rw [← shape] at alone
        refine ⟨(⟨ByteString.mk front⟩ : Path).segments, ?_, .inr ?_⟩
        · rw [shape, ByteString.append_empty, segments_append_slash]
        · rw [show base.segments = _ from alone]
          simp [Path.segments]
    · exact ⟨base.segments, segments_append_slash _ _, .inl rfl⟩

theorem segments_join (base : Path) {path : Path} (clean : Clean path) :
    ∃ front, (base.join path).segments = front ++ path.segments ∧
      (front = base.segments ∨ front ++ [ByteString.ofText ""] = base.segments) :=
  segments_join_relative base clean.relative

theorem filterMap_join_relative {α : Type} {base path : Path} (relative : path.isAbsolute = false)
    {part : ByteString → Option α} (idle : part "" = none) :
    (base.join path).segments.filterMap part = base.segments.filterMap part ++ path.segments.filterMap part := by
  obtain ⟨front, joined, whole | whole⟩ := segments_join_relative base relative
  · rw [joined, List.filterMap_append, whole]
  · rw [joined, ← whole, List.filterMap_append, List.filterMap_append, List.filterMap_cons_none idle,
      List.filterMap_nil, List.append_nil]

private theorem filterMap_join {α : Type} {base path : Path} (clean : Clean path) {part : ByteString → Option α}
    (idle : part "" = none) :
    (base.join path).segments.filterMap part = base.segments.filterMap part ++ path.segments.filterMap part :=
  filterMap_join_relative clean.relative idle

theorem getLast?_join (base : Path) {path : Path} (clean : Clean path) :
    (base.join path).written.bytes.getLast? = path.written.bytes.getLast? := by
  obtain ⟨c, final⟩ := Option.isSome_iff_exists.mp
    (List.getLast?_isSome.mpr (mt ByteString.bytes_eq_nil.mp clean.nonempty))
  unfold Path.join
  rw [clean.relative]
  split
  · contradiction
  · split <;> simp [List.getLast?_append, List.getLast?_cons, final]

theorem steps_join (base : Path) {path : Path} (clean : Clean path) :
    steps (base.join path) =
      base.segments.filterMap Step.ofSegment ++ path.segments.map .down := by
  rw [steps, filterMap_join clean rfl, getLast?_join base clean, if_neg (getLast?_of_segments clean),
    List.append_nil, filterMap_proper clean]

theorem segments_path {location : Location} (nonempty : location ≠ [])
    (proper : ∀ name ∈ location, Proper name) : location.path.segments = ByteString.ofText "" :: location := by
  have slashless : ∀ part ∈ location.map ByteString.bytes, Path.slash ∉ part := by
    intro part member
    obtain ⟨name, inside, rfl⟩ := List.mem_map.mp member
    exact (proper name inside).2.2.2
  simp only [Location.path, Path.segments, ByteString.bytes_append, Path.joined]
  rw [Path.bytes_slash, List.singleton_append, List.splitOn_cons_eq_if_modifyHead,
    if_pos (by rfl), List.splitOn_intercalate _ slashless (by simpa using nonempty)]
  simp [Function.comp_def]

theorem getLast?_path {location : Location} (nonempty : location ≠ [])
    (proper : ∀ name ∈ location, Proper name) : location.path.written.bytes.getLast? ≠ some Path.slash := by
  have clean : Clean ⟨Path.joined location⟩ := by
    have whole := segments_path nonempty proper
    rw [Location.path, show "/" ++ Path.joined location = "" ++ "/" ++ Path.joined location by
      simp, segments_append_slash] at whole
    have same : (⟨Path.joined location⟩ : Path).segments = location := by
      simpa [Path.segments] using whole
    intro segment member
    exact proper segment (same ▸ member)
  have last := getLast?_of_segments clean
  have present := mt ByteString.bytes_eq_nil.mp clean.nonempty
  obtain ⟨c, final⟩ := Option.isSome_iff_exists.mp (List.getLast?_isSome.mpr present)
  rw [Location.path, ByteString.bytes_append, List.getLast?_append, final]
  rwa [final] at last

theorem steps_path {location : Location} (nonempty : location ≠ [])
    (proper : ∀ name ∈ location, Proper name) : steps location.path = location.map .down := by
  rw [steps, segments_path nonempty proper, if_neg (getLast?_path nonempty proper), List.append_nil,
    List.filterMap_cons_none rfl, filterMap_proper proper]

theorem proper_not_idle {name : ByteString} (proper : Proper name) : Path.isIdle name = false := by
  simp [Path.isIdle, proper.1, proper.2.1]

private theorem component_of_visible {segment : ByteString} (visible : ¬ Path.isIdle segment) :
    ∃ component, Path.Component.ofSegment segment = some component := by
  rw [Path.Component.ofSegment, if_neg visible]
  split <;> exact ⟨_, rfl⟩

theorem components_proper {names : List ByteString} (proper : ∀ name ∈ names, Proper name) :
    names.filterMap Path.Component.ofSegment = names.map .name := by
  induction names with
  | nil => rfl
  | cons name names ih =>
    have named : Path.Component.ofSegment name = some (.name name) := by
      have own := proper name List.mem_cons_self
      simp [Path.Component.ofSegment, proper_not_idle own, own.2.2.1]
    rw [List.filterMap_cons_some named, ih fun other member => proper other (.tail _ member), List.map_cons]

def leading (lead : ByteString) : List Path.Component :=
  if lead = "/" then [.top] else if lead = "." then [.current] else []

theorem segments_cons (path : Path) : ∃ first rest, path.segments = first :: rest ∧
    (first = "" ↔ path.written = "" ∨ path.isAbsolute = true) := by
  cases text : path.written.bytes with
  | nil => exact ⟨"", [], by simp [Path.segments, text], by simp [ByteString.bytes_eq_nil.mp text]⟩
  | cons c rest =>
    obtain ⟨first, others, parts⟩ := List.exists_cons_of_ne_nil (List.splitOn_ne_nil Path.slash rest)
    have nonempty : path.written ≠ "" := fun empty => by simp [empty] at text
    by_cases slash : c = Path.slash
    · refine ⟨"", (rest.splitOn Path.slash).map ByteString.mk, ?_, ?_⟩
      · simp [Path.segments, text, slash, List.splitOn_cons_eq_if_modifyHead]
      · simp [Path.isAbsolute, text, slash]
    · refine ⟨ByteString.mk (c :: first), others.map ByteString.mk, ?_, ?_⟩
      · simp [Path.segments, text, slash, List.splitOn_cons_eq_if_modifyHead, parts]
      · simp [Path.isAbsolute, text, slash, nonempty, ← ByteString.bytes_inj]

private theorem components_body (path : Path) :
    path.components =
      leading path.body.1 ++ path.body.2.filterMap Path.Component.ofSegment := by
  obtain ⟨first, rest, parts, starts⟩ := segments_cons path
  unfold Path.components Path.body
  split
  · rename_i absolute
    have idle : Path.Component.ofSegment first = none := by rw [starts.mpr (.inr absolute)]; rfl
    rw [parts, List.filterMap_cons_none idle]
    rfl
  · split
    · rename_i current
      have idle : Path.Component.ofSegment first = none := by
        rw [parts, List.head?_cons] at current
        rw [Option.some.inj current]
        rfl
      rw [parts, List.filterMap_cons_none idle]
      rfl
    · rfl

private theorem isAbsolute_join {base path : Path} (clean : Clean path) (nonempty : base.written ≠ "") :
    (base.join path).isAbsolute = base.isAbsolute := by
  obtain ⟨c, rest, text⟩ := List.exists_cons_of_ne_nil (mt ByteString.bytes_eq_nil.mp nonempty)
  unfold Path.join
  rw [clean.relative]
  split
  · contradiction
  · split <;> simp [Path.isAbsolute, text]

private theorem body_join {base path : Path} (clean : Clean path) (nonempty : base.written ≠ "") :
    ∃ front, (base.join path).body = (base.body.1, front ++ path.segments) ∧
      front.filterMap Path.Component.ofSegment = base.body.2.filterMap Path.Component.ofSegment := by
  obtain ⟨front, joined, whole⟩ := segments_join base clean
  have parted : front.filterMap Path.Component.ofSegment =
      base.segments.filterMap Path.Component.ofSegment := by
    rcases whole with whole | whole
    · rw [whole]
    · rw [← whole, List.filterMap_append, List.filterMap_cons_none rfl, List.filterMap_nil, List.append_nil]
  cases front with
  | nil =>
    rcases whole with whole | whole
    · exact (segments_ne_nil base whole.symm).elim
    · exact (nonempty (by rw [written_of_segments, ← whole]; rfl)).elim
  | cons first front =>
    obtain ⟨rest, parts, tail⟩ : ∃ rest, base.segments = first :: rest ∧
        front.filterMap Path.Component.ofSegment = rest.filterMap Path.Component.ofSegment := by
      rcases whole with whole | whole
      · exact ⟨front, whole.symm, rfl⟩
      · refine ⟨front ++ [ByteString.ofText ""], whole.symm, ?_⟩
        rw [List.filterMap_append, List.filterMap_cons_none rfl, List.filterMap_nil, List.append_nil]
    unfold Path.body
    rw [isAbsolute_join clean nonempty, joined, parts]
    by_cases absolute : base.isAbsolute
    · exact ⟨front, by simp [absolute], by simpa [absolute] using tail⟩
    · by_cases current : first = "."
      · exact ⟨front, by simp [absolute, current], by simpa [absolute, current] using tail⟩
      · refine ⟨first :: front, by simp [absolute, current], ?_⟩
        rw [parted, parts]
        simp [absolute, current]

theorem components_join {base path : Path} (clean : Clean path) (nonempty : base.written ≠ "") :
    (base.join path).components = base.components ++ path.segments.map .name := by
  obtain ⟨front, body, parted⟩ := body_join clean nonempty
  rw [components_body, components_body base, body, List.filterMap_append, parted, components_proper clean,
    List.append_assoc]

private theorem dropParts_front (front back : List ByteString) :
    (Path.dropParts (front.filterMap Path.Component.ofSegment).length (front ++ back)).dropWhile
      Path.isIdle = back.dropWhile Path.isIdle := by
  induction front with
  | nil => rw [List.filterMap_nil, List.length_nil, List.nil_append, Path.dropParts]
  | cons first rest ih =>
    by_cases idle : Path.isIdle first
    · have skipped : Path.Component.ofSegment first = none := by simp [Path.Component.ofSegment, idle]
      rw [List.filterMap_cons_none skipped, List.cons_append]
      cases count : (rest.filterMap Path.Component.ofSegment).length with
      | zero =>
        rw [count, Path.dropParts] at ih
        rw [Path.dropParts, List.dropWhile_cons_of_pos idle]
        exact ih
      | succ count' =>
        rw [count] at ih
        rw [Path.dropParts, if_pos idle]
        exact ih
    · obtain ⟨component, kept⟩ := component_of_visible idle
      rw [List.filterMap_cons_some kept, List.length_cons, List.cons_append, Path.dropParts, if_neg idle]
      exact ih

theorem withoutIdleEnd_proper {names : List ByteString} (proper : ∀ name ∈ names, Proper name) :
    Path.withoutIdleEnd names = names := by
  rw [Path.withoutIdleEnd]
  cases backwards : names.reverse with
  | nil => rw [List.reverse_eq_nil_iff.mp backwards]; rfl
  | cons last others =>
    have own := proper last (List.mem_reverse.mp (backwards ▸ List.mem_cons_self))
    rw [List.dropWhile_cons_of_neg (by simp [proper_not_idle own]), ← backwards, List.reverse_reverse]

private theorem length_leading (path : Path) :
    (leading path.body.1).length = if path.body.1 = "" then 0 else 1 := by
  unfold Path.body
  split
  · rfl
  · split <;> rfl

theorem components_ne_nil {path : Path} (nonempty : path.written ≠ "") : path.components ≠ [] := by
  obtain ⟨first, rest, parts, starts⟩ := segments_cons path
  unfold Path.components
  split
  · exact List.cons_ne_nil _ _
  · rename_i relative
    split
    · exact List.cons_ne_nil _ _
    · rename_i current
      have named : first ≠ "" := fun empty => (starts.mp empty).elim nonempty relative
      have undotted : first ≠ "." := fun dot => current (by rw [parts, dot]; rfl)
      obtain ⟨component, kept⟩ := component_of_visible (show ¬ Path.isIdle first by
        simp [Path.isIdle, named, undotted])
      rw [parts, List.filterMap_cons_some kept]
      exact List.cons_ne_nil _ _

theorem relativeTo?_join (base : Path) {path : Path} (clean : Clean path) :
    (base.join path).relativeTo? base = some path := by
  have same : Path.ofSegments path.segments = path := congrArg Path.mk (written_of_segments path).symm
  by_cases empty : base.written = ""
  · have joined : base.join path = path := by
      simp [Path.join, clean.relative, empty]
    have above : base.components = [] := by
      simp [Path.components, Path.segments, Path.isAbsolute, empty, Path.Component.ofSegment, Path.isIdle]
    have body : path.body = (ByteString.ofText "", path.segments) := by
      obtain ⟨first, rest, parts, _⟩ := segments_cons path
      have own := clean first (parts ▸ List.mem_cons_self)
      simp [Path.body, clean.relative, parts, own.2.1]
    rw [joined, Path.relativeTo?, above, body]
    simp only [List.isPrefixOf, if_true, withoutIdleEnd_proper clean]
    rw [Path.ofBody, if_neg (by simp)]
    exact congrArg some (by simpa [Path.ofSegments] using same)
  · obtain ⟨front, body, parted⟩ := body_join clean empty
    have longer := components_join clean empty
    have led : base.components.length - (if base.body.1 = "" then 0 else 1) =
        (front.filterMap Path.Component.ofSegment).length := by
      rw [components_body, List.length_append, length_leading, Nat.add_sub_cancel_left, parted]
    obtain ⟨first, rest, parts, _⟩ := segments_cons path
    have own := clean first (parts ▸ List.mem_cons_self)
    rw [Path.relativeTo?, longer, body]
    simp only [if_neg (components_ne_nil empty), led, dropParts_front]
    rw [if_pos (by simp), parts, List.dropWhile_cons_of_neg (by simp [proper_not_idle own]), ← parts,
      withoutIdleEnd_proper clean, same]

private theorem withoutIdleEnd_concat (front : List ByteString) {last : ByteString}
    (visible : Path.isIdle last = false) :
    Path.withoutIdleEnd (front ++ [last]) = front ++ [last] := by
  rw [Path.withoutIdleEnd, List.reverse_append, List.reverse_singleton, List.singleton_append,
    List.dropWhile_cons_of_neg (by simp [visible]), ← List.singleton_append, List.reverse_append,
    List.reverse_reverse, List.reverse_singleton]

private theorem ofBody_bare (segments : List ByteString) : Path.ofBody "" segments = Path.ofSegments segments := by
  rw [Path.ofBody, if_neg (by simp), ByteString.empty_append, Path.ofSegments]

theorem joined_cons {first : ByteString} {rest : List ByteString} (more : rest ≠ []) :
    Path.joined (first :: rest) = first ++ "/" ++ Path.joined rest := by
  obtain ⟨second, others, rfl⟩ := List.exists_cons_of_ne_nil more
  simp [Path.joined, ByteString.ext_iff, List.intercalate_cons_cons]

theorem joined_singleton (segment : ByteString) : Path.joined [segment] = segment := by
  simp [Path.joined]

theorem joined_append {front back : List ByteString} (first : front ≠ []) (second : back ≠ []) :
    Path.joined (front ++ back) = Path.joined front ++ "/" ++ Path.joined back := by
  induction front with
  | nil => exact (first rfl).elim
  | cons name front ih =>
    by_cases alone : front = []
    · rw [alone, List.singleton_append, joined_cons second, joined_singleton]
    · rw [List.cons_append, joined_cons (List.append_ne_nil_of_left_ne_nil alone back), joined_cons alone, ih alone]
      simp only [ByteString.append_assoc]

private theorem ofBody_absolute {segments : List ByteString} (nonempty : segments ≠ []) :
    Path.ofBody "/" segments = Path.ofSegments ("" :: segments) := by
  rw [Path.ofBody, if_neg (by simp), Path.ofSegments, joined_cons nonempty, ByteString.empty_append]

private theorem parent?_of_body {path : Path} {lead last name : ByteString} {front : List ByteString}
    (body : path.body = (lead, front ++ [last, name])) (visible : Path.isIdle last = false)
    (named : Path.isIdle name = false) : path.parent? = some (Path.ofBody lead (front ++ [last])) := by
  have backwards : (front ++ [last, name]).reverse = name :: (front ++ [last]).reverse := by simp
  simp only [Path.parent?, body, backwards]
  rw [List.dropWhile_cons_of_neg (by simp [named])]
  simp only [List.reverse_reverse, withoutIdleEnd_concat front visible]

theorem parent?_join {base : Path} {front : List ByteString} {last name : ByteString}
    (parts : base.segments = front ++ [last]) (visible : Path.isIdle last = false) (proper : Proper name) :
    (base.join ⟨name⟩).parent? = some base := by
  have whole : Path.ofSegments (front ++ [last]) = base := congrArg Path.mk (parts ▸ written_of_segments base).symm
  have nonempty : base.written ≠ "" := by
    intro empty
    have alone : front ++ [last] = [] ++ [ByteString.ofText ""] := by rw [← parts, Path.segments, empty]; rfl
    cases List.singleton_inj.mp (List.append_inj_right' alone rfl)
    cases visible
  have joined : (base.join ⟨name⟩).segments = front ++ [last, name] := by
    obtain ⟨own, joined, whole | whole⟩ := segments_join base (Proper.clean proper)
    · rw [joined, whole, parts, segments_proper proper]
      simp
    · rw [parts] at whole
      cases List.singleton_inj.mp (List.append_inj_right' whole rfl)
      cases visible
  have named := proper_not_idle proper
  have absolute := isAbsolute_join (Proper.clean proper) nonempty
  obtain ⟨first, rest, shape, starts⟩ := segments_cons base
  rw [parts] at shape
  cases front with
  | nil =>
    obtain ⟨rfl, rfl⟩ := List.cons.inj shape
    have relative : base.isAbsolute = false := by
      refine Bool.eq_false_iff.mpr fun leads => ?_
      rw [starts.mpr (.inr leads)] at visible
      cases visible
    have dotless : last ≠ "." := by
      rintro rfl
      cases visible
    have body : (base.join ⟨name⟩).body = (ByteString.ofText "", [] ++ [last, name]) := by
      simp [Path.body, absolute, relative, joined, dotless]
    rw [parent?_of_body body visible named, ofBody_bare, whole]
  | cons lead middle =>
    obtain ⟨rfl, rfl⟩ := List.cons.inj shape
    by_cases leads : base.isAbsolute
    · have body : (base.join ⟨name⟩).body = (ByteString.ofText "/", middle ++ [last, name]) := by
        simp [Path.body, absolute, leads, joined]
      rw [starts.mpr (.inr leads)] at whole
      rw [parent?_of_body body visible named, ofBody_absolute (by simp)]
      exact congrArg some whole
    · by_cases current : lead = "."
      · have body : (base.join ⟨name⟩).body = (ByteString.ofText ".", middle ++ [last, name]) := by
          simp [Path.body, absolute, leads, joined, current]
        rw [current] at whole
        rw [parent?_of_body body visible named, Path.ofBody, if_pos ⟨rfl, by simp⟩]
        exact congrArg some whole
      · have body : (base.join ⟨name⟩).body = (ByteString.ofText "", lead :: middle ++ [last, name]) := by
          simp [Path.body, absolute, leads, joined, current]
        rw [parent?_of_body body visible named, ofBody_bare, whole]

end StagedFormat.Proofs.PathSegments
