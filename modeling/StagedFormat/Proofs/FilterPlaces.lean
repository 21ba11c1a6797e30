import StagedFormat.Proofs.PathNormalForm
import StagedFormat.Proofs.ScopeOverlap
import StagedFormat.Proofs.WorkingDirectoryScope

/-! Which paths file arguments choose, said by the places that the arguments name: those at or below a
place inside the root, and all of them if a place is the root itself. -/

namespace StagedFormat.Proofs.FilterPlaces
open StagedFormat Disk PathSegments DiskFollowing PathPlaces PathNormalForm ScopeOverlap
  WorkingDirectoryScope

/-- Where steps lead if no link is on the way, whether anything is there or not. They do not go up above
the top. -/
inductive Unlinked (disk : Disk) : Location → List Step → Location → Prop where
  | done {place} : Unlinked disk place [] place
  | stay {directory rest place} : Unlinked disk directory rest place →
      Unlinked disk directory (.stay :: rest) place
  | up {directory rest place} : directory ≠ [] → Unlinked disk directory.dropLast rest place →
      Unlinked disk directory (.up :: rest) place
  | down {directory name rest place} : (∀ target, disk.entry? (directory ++ [name]) ≠ some (.link target)) →
      Unlinked disk (directory ++ [name]) rest place → Unlinked disk directory (.down name :: rest) place

/-- The place that a path names: where it leads if something is there, and what it spells if nothing is and
no link is on the way. -/
inductive Resolves (disk : Disk) (path : Path) (place : Location) : Prop where
  | standing {entry} : disk.find true path = .ok ⟨place, some entry⟩ → Resolves disk path place
  | missing : disk.pathExists path = false → path.isAbsolute = true → Unlinked disk [] (steps path) place →
      Resolves disk path place

theorem Unlinked.proper {disk : Disk} {directory place : Location} {way : List Step}
    (unlinked : Unlinked disk directory way place) (known : ∀ name ∈ directory, Proper name)
    (stepped : ∀ name, .down name ∈ way → Proper name) : ∀ name ∈ place, Proper name := by
  induction unlinked with
  | done => exact known
  | stay _ ih => exact ih known fun name member => stepped name (.tail _ member)
  | up _ _ ih =>
    apply ih
    · exact fun name member => known name (List.dropLast_subset _ member)
    · exact fun name member => stepped name (.tail _ member)
  | @down directory name _ _ _ _ ih =>
    apply ih
    · intro other member
      rcases List.mem_append.mp member with member | member
      · exact known other member
      · rw [List.mem_singleton.mp member]
        exact stepped name List.mem_cons_self
    · exact fun other member => stepped other (.tail _ member)

def component? : Step → Option Path.Component
  | .stay => none
  | .up => some .parent
  | .down name => some (.name name)

private theorem component?_ofSegment (segment : ByteString) :
    (Step.ofSegment segment).bind component? = Path.Component.ofSegment segment := by
  unfold Step.ofSegment
  split_ifs <;> simp_all [component?, Path.Component.ofSegment, Path.isIdle]

private theorem filterMap_steps (path : Path) :
    (steps path).filterMap component? = path.segments.filterMap Path.Component.ofSegment := by
  have ends :
      (if path.written.bytes.getLast? = some Path.slash then [Step.stay] else []).filterMap component? = [] := by
    split <;> rfl
  rw [steps, List.filterMap_append, ends, List.append_nil, List.filterMap_filterMap]
  simp only [component?_ofSegment]

theorem Unlinked.foldl_push {disk : Disk} {directory place : Location} {way : List Step}
    (unlinked : Unlinked disk directory way place) :
    (way.filterMap component?).foldl Path.push (directory.reverse.map .name ++ [.top]) =
      place.reverse.map .name ++ [.top] := by
  induction unlinked with
  | done => rfl
  | stay _ ih => exact ih
  | @up directory _ _ nonempty _ ih =>
    obtain ⟨front, last, rfl⟩ := (List.eq_nil_or_concat directory).resolve_left nonempty
    rw [List.concat_eq_append, List.dropLast_concat] at ih
    rw [List.concat_eq_append, List.reverse_concat]
    exact ih
  | @down directory name _ _ _ _ ih =>
    rw [List.reverse_concat] at ih
    exact ih

/-- Normal form is the path of the place that a path without links names. -/
theorem Unlinked.normalize {disk : Disk} {path : Path} {place : Location} (absolute : path.isAbsolute = true)
    (unlinked : Unlinked disk [] (steps path) place) : path.normalize = place.path := by
  have folded := unlinked.foldl_push
  rw [filterMap_steps] at folded
  rw [Path.normalize, components_absolute absolute, List.foldl_cons]
  change Path.ofComponents (List.foldl Path.push [.top] _).reverse = _
  rw [show [Path.Component.top] = ([] : Location).reverse.map .name ++ [.top] from rfl, folded,
    List.reverse_append, List.map_reverse, List.reverse_reverse]
  exact ofComponents_path place

private theorem canonicalize_missing {disk : Disk} {path : Path} (missing : disk.pathExists path = false) :
    ∃ cause, disk.canonicalize path = .error cause := by
  cases found : disk.canonicalize path with
  | error cause => exact ⟨cause, rfl⟩
  | ok place =>
    obtain ⟨location, entry, stands, _⟩ := canonicalize_ok found
    rw [pathExists, inspect_ok.mpr ⟨location, stands⟩] at missing
    cases missing

theorem Resolves.proper {disk : Disk} {path : Path} {place : Location} (resolves : Resolves disk path place) :
    ∀ name ∈ place, Proper name := by
  cases resolves with
  | standing found => exact (find_grounded found).1.proper
  | missing _ _ unlinked => exact unlinked.proper nofun fun _ => proper_of_steps

private theorem absolutize_resolves {disk : Disk} {directory path : Path} {place : Location}
    (resolves : Resolves disk (directory.join path) place) : absolutize disk directory path = place.path := by
  unfold absolutize
  cases resolves with
  | standing found =>
    have settled : disk.canonicalize (directory.join path) = .ok place.path := by
      rw [canonicalize, found]
      rfl
    simp only [settled]
  | missing gone absolute unlinked =>
    obtain ⟨cause, failed⟩ := canonicalize_missing gone
    simp only [failed]
    exact unlinked.normalize absolute

theorem Resolves.unique {disk : Disk} {directory path : Path} {one other : Location}
    (first : Resolves disk (directory.join path) one) (second : Resolves disk (directory.join path) other) :
    one = other := by
  have same : one.path = other.path := by rw [← absolutize_resolves first, ← absolutize_resolves second]
  apply path_injective first.proper second.proper
  rw [same]

/-! ### A root that is there

It is resolved with a slash behind it, which asks for the directory that it leads to anyway. -/

private theorem advance_stay {disk : Disk} {chase : Location → Path → List Step → Except IoError Place}
    (onward : ∀ directory target rest location,
      chase directory target rest = .ok ⟨location, some .directory⟩ →
      chase directory target (rest ++ [.stay]) = .ok ⟨location, some .directory⟩)
    {directory location : Location} {way : List Step}
    (found : disk.advance true chase directory way = .ok ⟨location, some .directory⟩) :
    disk.advance true chase directory (way ++ [.stay]) = .ok ⟨location, some .directory⟩ := by
  induction way generalizing directory with
  | nil => exact found
  | cons step rest ih =>
    cases step with
    | stay => exact ih found
    | up => exact ih found
    | down name =>
      rw [List.cons_append]
      rw [advance] at found ⊢
      split at found
      · cases found
      · rename_i short
        rw [if_neg short]
        cases stands : disk.entry? (directory ++ [name]) with
        | none =>
          simp only [stands] at found
          split at found <;> cases found
        | some entry =>
          cases entry with
          | directory =>
            simp only [stands] at found ⊢
            exact ih found
          | link target =>
            simp only [stands, Bool.not_true, Bool.and_false, Bool.false_eq_true, if_false] at found ⊢
            exact onward _ _ _ _ found
          | file =>
            simp only [stands] at found
            split at found <;> cases found

private theorem walk_stay {disk : Disk} {links : Nat} {directory location : Location} {way : List Step}
    (found : disk.walk true links directory way = .ok ⟨location, some .directory⟩) :
    disk.walk true links directory (way ++ [.stay]) = .ok ⟨location, some .directory⟩ := by
  induction links generalizing directory location way with
  | zero => exact advance_stay (fun _ _ _ _ none => by cases none) found
  | succ links ih =>
    apply advance_stay _ found
    intro directory target rest location chased
    rw [← List.append_assoc]
    exact ih chased

private theorem resolves_root {disk : Disk} {root : Path} {top : Location}
    (found : disk.find true root = .ok ⟨top, some .directory⟩) (room : root.written.bytes.length < pathLimit) :
    Resolves disk (root.join ⟨""⟩) top := by
  unfold find at found
  split at found
  · cases found
  · rename_i nonempty
    split at found
    · cases found
    · rename_i plain
      rw [if_neg (Nat.not_lt.mpr (Nat.le_of_lt room))] at found
      apply @Resolves.standing _ _ _ .directory
      by_cases slash : root.written.bytes.getLast? = some Path.slash
      · have same : root.join ⟨""⟩ = root := by simp [Path.join, Path.isAbsolute, slash]
        rw [same, find, if_neg nonempty, if_neg plain, if_neg (Nat.not_lt.mpr (Nat.le_of_lt room))]
        exact found
      · have joined : root.join ⟨""⟩ = ⟨root.written ++ "/" ++ ""⟩ := by
          simp [Path.join, Path.isAbsolute, slash, nonempty]
        have onward : steps ⟨root.written ++ "/" ++ ""⟩ = steps root ++ [.stay] := by
          rw [steps, steps, segments_append_slash, List.filterMap_append, if_neg slash]
          simp [Path.segments, Step.ofSegment]
        have long : ¬ pathLimit < (root.written ++ "/" ++ "").bytes.length := by
          rw [ByteString.append_empty, ByteString.bytes_append, List.length_append, Path.bytes_slash,
            List.length_singleton]
          omega
        rw [joined, find, if_neg (by simp), if_neg (by simpa [Path.slash] using plain), if_neg long, onward]
        exact walk_stay found

/-! ### Places and the root -/

section
variable {top place : Location} (above : ∀ name ∈ top, Proper name) (proper : ∀ name ∈ place, Proper name)
include above proper

private theorem same_path : place.path.same top.path = true ↔ place = top := by
  constructor
  · intro same
    apply path_injective proper above
    simpa [Path.same] using same
  · rintro rfl
    simp [Path.same]

private theorem leads_components : top.path.components <+: place.path.components ↔ top <+: place := by
  rw [components_path above, components_path proper, List.cons_prefix_cons]
  rw [List.prefix_map_iff_of_injective fun _ _ => Path.Component.name.inj]
  simp

private theorem relativeTo?_outside (outside : ¬ top <+: place) : place.path.relativeTo? top.path = none := by
  rw [Path.relativeTo?, if_neg]
  rwa [List.isPrefixOf_iff_prefix, leads_components above proper]

end

section
variable {top names : Location} (nonempty : names ≠ []) (below : ∀ name ∈ names, Proper name)
include nonempty below

private theorem clean_ofSegments : Clean (Path.ofSegments names) ∧ (Path.ofSegments names).segments = names := by
  have parts := segments_ofSegments nonempty fun name member => (below name member).2.2.2
  constructor
  · intro segment member
    rw [parts] at member
    exact below segment member
  · exact parts

private theorem join_names (above : ∀ name ∈ top, Proper name) :
    top.path.join (Path.ofSegments names) = (top ++ names).path := by
  obtain ⟨clean, _⟩ := clean_ofSegments nonempty below
  unfold Path.join
  rw [if_neg (by simp [clean.relative])]
  by_cases bare : top = []
  · subst bare
    rfl
  · rw [if_neg (by simp [getLast?_path bare above, path_nonempty])]
    simp only [Location.path, Path.ofSegments, joined_append bare nonempty,
      ByteString.append_assoc]

/-- A place below the root is seen from there by its remaining names. -/
theorem relativeTo?_inside (above : ∀ name ∈ top, Proper name) :
    (top ++ names).path.relativeTo? top.path = some (Path.ofSegments names) := by
  obtain ⟨clean, _⟩ := clean_ofSegments nonempty below
  rw [← join_names nonempty below above]
  exact relativeTo?_join _ clean

end

private theorem components_clean {path : Path} (clean : Clean path) : path.components = path.segments.map .name := by
  obtain ⟨first, rest, parts, _⟩ := segments_cons path
  have own := clean first (parts ▸ List.mem_cons_self)
  have dotless : path.segments.head? ≠ some (ByteString.ofText ".") := by
    rw [parts]
    simpa using own.2.1
  rw [Path.components, if_neg (by simp [clean.relative]), if_neg dotless]
  exact components_proper clean

/-- What an argument at a place chooses below the root: nothing from outside, and else what has the names
from the root on in front. -/
theorem startsWith_place {top place : Location} (above : ∀ name ∈ top, Proper name)
    (proper : ∀ name ∈ place, Proper name) (different : place ≠ top) {path : Path} (clean : Clean path) :
    path.startsWith ((place.path.relativeTo? top.path).getD place.path) = true ↔
      top <+: place ∧ place <+: top ++ path.segments := by
  by_cases inside : top <+: place
  · obtain ⟨names, rfl⟩ := inside
    have nonempty : names ≠ [] := by
      rintro rfl
      simp at different
    have below : ∀ name ∈ names, Proper name := fun name member => proper name (List.mem_append_right _ member)
    obtain ⟨relative, parts⟩ := clean_ofSegments nonempty below
    rw [relativeTo?_inside nonempty below above, Option.getD_some, Path.startsWith,
      List.isPrefixOf_iff_prefix, components_clean relative, components_clean clean, parts,
      List.prefix_map_iff_of_injective fun _ _ => Path.Component.name.inj, List.prefix_append_right_inj]
    simp
  · rw [relativeTo?_outside above proper inside, Option.getD_none, Path.startsWith,
      List.isPrefixOf_iff_prefix, components_path proper, components_clean clean]
    refine iff_of_false ?_ fun chosen => inside chosen.1
    cases path.segments <;> simp

section
variable {disk : Disk} {root directory : Path} {top : Location} {arguments : List Path} {path : Path}
  (rooted : Resolves disk (root.join ⟨""⟩) top)
  (resolved : ∀ argument ∈ arguments, ∃ place, Resolves disk (directory.join argument) place)
  (clean : Clean path)
include rooted

private theorem filters_eq : Scope.filters disk root directory arguments =
    if (arguments.map (absolutize disk directory)).any (·.same top.path) then []
    else (arguments.map (absolutize disk directory)).map fun place =>
      (place.relativeTo? top.path).getD place := by
  rw [Scope.filters, absolutize_resolves rooted]

include resolved

private theorem any_same_iff : (arguments.map (absolutize disk directory)).any (·.same top.path) = true ↔
    ∃ argument ∈ arguments, Resolves disk (directory.join argument) top := by
  rw [List.any_map, List.any_eq_true]
  apply exists_congr
  intro argument
  apply and_congr_right
  intro member
  obtain ⟨place, resolves⟩ := resolved argument member
  rw [Function.comp_apply, absolutize_resolves resolves, same_path rooted.proper resolves.proper]
  constructor
  · rintro rfl
    exact resolves
  · intro here
    exact resolves.unique here

include clean

private theorem any_startsWith_iff
    (rootless : ∀ argument ∈ arguments, ¬ Resolves disk (directory.join argument) top) :
    ((arguments.map (absolutize disk directory)).map fun place => (place.relativeTo? top.path).getD place).any
        path.startsWith = true ↔
      ∃ argument ∈ arguments, ∃ place, Resolves disk (directory.join argument) place ∧
        top <+: place ∧ place ≠ top ∧ place <+: top ++ path.segments := by
  rw [List.map_map, List.any_map, List.any_eq_true]
  apply exists_congr
  intro argument
  apply and_congr_right
  intro member
  obtain ⟨place, resolves⟩ := resolved argument member
  have different : place ≠ top := by
    rintro rfl
    exact rootless argument member resolves
  rw [Function.comp_apply, Function.comp_apply, absolutize_resolves resolves,
    startsWith_place rooted.proper resolves.proper different clean]
  constructor
  · rintro ⟨inside, leads⟩
    exact ⟨place, resolves, inside, different, leads⟩
  · rintro ⟨other, again, inside, _, leads⟩
    cases resolves.unique again
    exact ⟨inside, leads⟩

private theorem passes_iff : Scope.passes (Scope.filters disk root directory arguments) path = true ↔
    arguments = [] ∨ (∃ argument ∈ arguments, Resolves disk (directory.join argument) top) ∨
      ∃ argument ∈ arguments, ∃ place, Resolves disk (directory.join argument) place ∧
        top <+: place ∧ place ≠ top ∧ place <+: top ++ path.segments := by
  have whole := any_same_iff rooted resolved
  rw [filters_eq rooted]
  by_cases chosen : ∃ argument ∈ arguments, Resolves disk (directory.join argument) top
  · rw [if_pos (whole.mpr chosen)]
    exact iff_of_true rfl (.inr (.inl chosen))
  · have rootless : ∀ argument ∈ arguments, ¬ Resolves disk (directory.join argument) top :=
      fun argument member resolves => chosen ⟨argument, member, resolves⟩
    rw [if_neg (mt whole.mp chosen), Scope.passes, Bool.or_eq_true,
      any_startsWith_iff rooted resolved clean rootless, or_iff_right chosen]
    simp

end

/-- The arguments choose a path exactly if there are none, or one names the root, or one names a place
inside the root that the path is at or below. One that names a place outside, above the root or
elsewhere, chooses nothing, and adds nothing to what the others choose. -/
theorem filters_choose_places {disk : Disk} {root directory : Path} {top : Location} {arguments : List Path}
    {path : Path} (rooted : Resolves disk (root.join ⟨""⟩) top)
    (resolved : ∀ argument ∈ arguments, ∃ place, Resolves disk (directory.join argument) place)
    (clean : Clean path) :
    (Scope.passes (Scope.filters disk root directory arguments) path = true ↔
      arguments = [] ∨ (∃ argument ∈ arguments, Resolves disk (directory.join argument) top) ∨
        ∃ argument ∈ arguments, ∃ place, Resolves disk (directory.join argument) place ∧
          top <+: place ∧ place ≠ top ∧ place <+: top ++ path.segments) ∧
    ∀ argument place, Resolves disk (directory.join argument) place → ¬ top <+: place →
      (Scope.passes (Scope.filters disk root directory (argument :: arguments)) path = true ↔
        arguments ≠ [] ∧ Scope.passes (Scope.filters disk root directory arguments) path = true) := by
  have own := passes_iff rooted resolved clean
  refine ⟨own, ?_⟩
  intro argument place resolves outside
  have known : ∀ other ∈ argument :: arguments, ∃ place, Resolves disk (directory.join other) place := by
    intro other member
    rcases List.mem_cons.mp member with rfl | member
    · exact ⟨place, resolves⟩
    · exact resolved other member
  have rootless : ¬ Resolves disk (directory.join argument) top := by
    intro here
    cases resolves.unique here
    exact outside (List.prefix_refl _)
  have elsewhere : ¬ ∃ place, Resolves disk (directory.join argument) place ∧
      top <+: place ∧ place ≠ top ∧ place <+: top ++ path.segments := by
    rintro ⟨other, again, inside, _⟩
    cases resolves.unique again
    exact outside inside
  rw [passes_iff rooted known clean, own]
  simp only [List.exists_mem_cons_iff, rootless, elsewhere, false_or, reduceCtorEq]
  constructor
  · intro chosen
    refine ⟨?_, .inr chosen⟩
    rintro rfl
    simp at chosen
  · rintro ⟨nonempty, chosen⟩
    exact chosen.resolve_left nonempty

def linkedRepository : Disk where
  entries := [
    (["repo"], .directory),
    (["repo", "src"], .directory),
    (["repo", "src", "A.kt"], .file 0 plainMode ByteArray.empty),
    (["repo", "way"], .link ⟨"src"⟩),
    (["home"], .link ⟨"repo"⟩)]
  fresh := 1

theorem filters_choose_places_linked :
    Resolves linkedRepository ((⟨"/home"⟩ : Path).join ⟨""⟩) ["repo"] ∧
      Resolves linkedRepository ((⟨"/repo/src"⟩ : Path).join ⟨"../way"⟩) ["repo", "src"] ∧
      Resolves linkedRepository ((⟨"/repo/src"⟩ : Path).join ⟨"../../gone/x"⟩) ["gone", "x"] ∧
      Scope.passes (Scope.filters linkedRepository ⟨"/home"⟩ ⟨"/repo/src"⟩ [⟨"../way"⟩]) ⟨"src/A.kt"⟩ = true ∧
      Scope.passes (Scope.filters linkedRepository ⟨"/home"⟩ ⟨"/repo/src"⟩ [⟨"../../gone/x"⟩]) ⟨"src/A.kt"⟩ =
        false := by
  have rooted : Resolves linkedRepository ((⟨"/home"⟩ : Path).join ⟨""⟩) ["repo"] := by
    obtain ⟨entry, found⟩ := placeOf_eq_some.mp
      (show placeOf linkedRepository ⟨"/home"⟩ = some (["repo"] : Location) by decide +kernel)
    obtain rfl : entry = .directory := Option.some.inj (find_grounded found).2
    exact resolves_root found (by decide)
  have way : Resolves linkedRepository ((⟨"/repo/src"⟩ : Path).join ⟨"../way"⟩) ["repo", "src"] := by
    obtain ⟨_, found⟩ := placeOf_eq_some.mp
      (show placeOf linkedRepository ((⟨"/repo/src"⟩ : Path).join ⟨"../way"⟩) = some (["repo", "src"] : Location) by
        decide +kernel)
    exact .standing found
  have gone : Resolves linkedRepository ((⟨"/repo/src"⟩ : Path).join ⟨"../../gone/x"⟩) ["gone", "x"] := by
    have onward : steps ((⟨"/repo/src"⟩ : Path).join ⟨"../../gone/x"⟩) =
        [.down "repo", .down "src", .up, .up, .down "gone", .down "x"] := by decide
    apply Resolves.missing (by decide) (by decide)
    rw [onward]
    exact .down nofun (.down nofun (.up (by decide) (.up (by decide) (.down nofun (.down nofun .done)))))
  have clean : Clean ⟨"src/A.kt"⟩ := by decide
  refine ⟨rooted, way, gone, ?_, ?_⟩
  · have resolved : ∀ argument ∈ [(⟨"../way"⟩ : Path)], ∃ place,
        Resolves linkedRepository ((⟨"/repo/src"⟩ : Path).join argument) place := by
      intro argument member
      rw [List.mem_singleton.mp member]
      exact ⟨_, way⟩
    obtain ⟨chosen, _⟩ := filters_choose_places rooted resolved clean
    apply chosen.mpr
    exact .inr (.inr ⟨_, List.mem_cons_self, _, way, by decide, by decide, by decide⟩)
  · have resolved : ∀ argument ∈ ([] : List Path), ∃ place,
        Resolves linkedRepository ((⟨"/repo/src"⟩ : Path).join argument) place := nofun
    obtain ⟨_, outside⟩ := filters_choose_places rooted resolved clean
    rw [Bool.eq_false_iff]
    intro passes
    obtain ⟨nonempty, _⟩ := (outside _ _ gone (by decide)).mp passes
    exact nonempty rfl

end StagedFormat.Proofs.FilterPlaces
