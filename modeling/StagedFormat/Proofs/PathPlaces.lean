import Mathlib.Data.List.Infix
import StagedFormat.Proofs.DiskFollowing
import StagedFormat.Scope.Filter

/-! Places that arguments name. In a tree without links an argument names the path of a location, and
that path names itself wherever it is seen from. -/

namespace StagedFormat.Proofs.PathPlaces
open StagedFormat Disk PathSegments DiskFollowing

def LinkFree (disk : Disk) : Prop := ∀ location target, disk.entry? location ≠ some (.link target)

def isLink : Entry → Bool
  | .link _ => true
  | _ => false

theorem linkFree_of_entries {disk : Disk} (none : ∀ entry ∈ disk.entries, isLink entry.2 = false) :
    LinkFree disk := by
  intro location target stands
  unfold entry? at stands
  split at stands
  · cases stands
  · obtain ⟨front, back, whole, _⟩ := List.lookup_eq_some_iff.mp stands
    have member : (location, Entry.link target) ∈ disk.entries := by simp [whole]
    cases none _ member

def isName : Path.Component → Bool
  | .name _ => true
  | _ => false

/-- No beginning of a path has more parent steps than names. -/
def StaysBelowTop (path : Path) : Prop :=
  ∀ front ∈ path.components.inits, front.count .parent ≤ front.countP isName

instance (path : Path) : Decidable (StaysBelowTop path) := inferInstanceAs (Decidable (∀ _ ∈ _, _))

theorem mem_body {path : Path} {component : Path.Component}
    (member : component ∈ path.segments.filterMap Path.Component.ofSegment) :
    component = .parent ∨ ∃ name, component = .name name ∧ Proper name := by
  obtain ⟨segment, inside, made⟩ := List.mem_filterMap.mp member
  unfold Path.Component.ofSegment at made
  split at made
  · cases made
  · rename_i visible
    simp only [Path.isIdle, Bool.or_eq_true, beq_iff_eq, not_or] at visible
    split at made
    · exact .inl (Option.some.inj made).symm
    · rename_i noParent
      exact .inr ⟨segment, (Option.some.inj made).symm, visible.1, visible.2, noParent,
        segments_slashless inside⟩

/-- Components that never climb above the names so far leave a stack of names. -/
theorem foldl_push_below {body : List Path.Component} (stack : List ByteString)
    (proper : ∀ name ∈ stack, Proper name)
    (known : ∀ component ∈ body, component = .parent ∨ ∃ name, component = .name name ∧ Proper name)
    (below : ∀ front, front <+: body → front.count .parent ≤ stack.length + front.countP isName) :
    ∃ left : List ByteString, body.foldl Path.push (stack.map .name ++ [.top]) = left.map .name ++ [.top] ∧
      ∀ name ∈ left, Proper name := by
  -- A parent step takes from the stack what a name put there; the bound counts both.
  induction body generalizing stack with
  | nil => exact ⟨stack, rfl, proper⟩
  | cons component rest ih =>
    have others : ∀ component ∈ rest, component = .parent ∨ ∃ name, component = .name name ∧ Proper name :=
      fun component member => known component (.tail _ member)
    rw [List.foldl_cons]
    rcases known component List.mem_cons_self with rfl | ⟨name, rfl, own⟩
    · cases stack with
      | nil =>
        have climbs := below [.parent] (List.prefix_append [.parent] rest)
        simp [isName] at climbs
      | cons last stack =>
        refine ih stack (fun name member => proper name (.tail _ member)) others ?_
        intro front leads
        have bound := below (.parent :: front) (List.cons_prefix_cons.mpr ⟨rfl, leads⟩)
        simp only [List.count_cons_self, List.length_cons,
          List.countP_cons_of_neg (show ¬ isName .parent = true by decide)] at bound
        omega
    · refine ih (name :: stack) ?_ others ?_
      · intro other member
        rcases List.mem_cons.mp member with rfl | member
        · exact own
        · exact proper other member
      · intro front leads
        have bound := below (.name name :: front) (List.cons_prefix_cons.mpr ⟨rfl, leads⟩)
        simp only [List.count_cons_of_ne (show Path.Component.name name ≠ .parent by simp),
          List.countP_cons_of_pos (show isName (.name name) = true from rfl)] at bound
        simp only [List.length_cons]
        omega

theorem ofComponents_path (location : Location) :
    Path.ofComponents (.top :: location.map .name) = location.path := by
  cases location with
  | nil => rfl
  | cons name names =>
    have parts : ((name :: names).map Path.Component.name).map Path.Component.written = name :: names := by
      simp [Path.Component.written, Function.comp_def]
    change Path.ofSegments (ByteString.ofText "" ::
      ((name :: names).map Path.Component.name).map Path.Component.written) = _
    rw [parts, Path.ofSegments, joined_cons (List.cons_ne_nil _ _)]
    rfl

theorem components_absolute {path : Path} (absolute : path.isAbsolute = true) :
    path.components = .top :: path.segments.filterMap Path.Component.ofSegment := if_pos absolute

theorem normalize_below {path : Path} (absolute : path.isAbsolute = true) (below : StaysBelowTop path) :
    ∃ location : Location, path.normalize = location.path ∧ ∀ name ∈ location, Proper name := by
  rw [StaysBelowTop, components_absolute absolute] at below
  have within : ∀ front, front <+: path.segments.filterMap Path.Component.ofSegment →
      front.count .parent ≤ ([] : List ByteString).length + front.countP isName := by
    intro front leads
    have bound := below (.top :: front) ((List.mem_inits _ _).mpr (List.cons_prefix_cons.mpr ⟨rfl, leads⟩))
    simpa [isName] using bound
  obtain ⟨left, folded, proper⟩ := foldl_push_below [] nofun (fun _ => mem_body) within
  refine ⟨left.reverse, ?_, fun name member => proper name (List.mem_reverse.mp member)⟩
  rw [← ofComponents_path, Path.normalize, components_absolute absolute, List.foldl_cons]
  change Path.ofComponents (List.foldl Path.push [.top] _).reverse = _
  rw [show [Path.Component.top] = ([] : List ByteString).map .name ++ [.top] from rfl, folded,
    List.reverse_append, List.map_reverse]
  rfl

theorem isAbsolute_path (location : Location) : location.path.isAbsolute = true := by
  simp [Location.path, Path.isAbsolute]

theorem components_path {location : Location} (proper : ∀ name ∈ location, Proper name) :
    location.path.components = .top :: location.map .name := by
  cases location with
  | nil => rfl
  | cons name names =>
    rw [components_absolute (isAbsolute_path _), segments_path (List.cons_ne_nil _ _) proper,
      List.filterMap_cons_none rfl, components_proper proper]

theorem canonicalize_ok {disk : Disk} {path place : Path} (found : disk.canonicalize path = .ok place) :
    ∃ location entry, disk.find true path = .ok ⟨location, some entry⟩ ∧ place = location.path := by
  unfold canonicalize at found
  cases reached : disk.find true path with
  | error cause => rw [reached] at found; cases found
  | ok stop =>
    obtain ⟨location, stands⟩ := stop
    rw [reached] at found
    cases stands with
    | none => cases found
    | some entry =>
      cases found
      exact ⟨location, entry, rfl, rfl⟩

section
variable {disk : Disk} (free : LinkFree disk)
include free

private theorem location_of_leads {directory : Location} {names : List ByteString} {place : Place}
    (leads : Leads disk true directory (names.map .down) place) :
    place.location = directory ++ names := by
  induction names generalizing directory with
  | nil =>
    cases leads
    rw [List.append_nil]
  | cons name names ih =>
    rw [List.append_cons]
    generalize way : List.map Step.down (name :: names) = steps at leads
    cases leads with
    | done => cases way
    | stay => cases way
    | up => cases way
    | enter _ leads =>
      cases way
      exact ih leads
    | chase link => exact (free _ _ link).elim
    | stop =>
      cases names with
      | cons next names => cases way
      | nil =>
        cases way
        rw [List.append_nil]

theorem find_location {location : Location} (proper : ∀ name ∈ location, Proper name) {place : Place}
    (found : disk.find true location.path = .ok place) : place.location = location := by
  have leads := leads_of_find found
  by_cases top : location = []
  · subst top
    cases leads with
    | stay leads =>
      cases leads
      rfl
  · rw [steps_path top proper] at leads
    exact location_of_leads free leads

end

theorem join_absolute {directory : Path} (absolute : directory.isAbsolute = true) (path : Path) :
    (directory.join path).isAbsolute = true := by
  have ⟨rest, text⟩ : ∃ rest, directory.written.bytes = Path.slash :: rest := by
    rw [Path.isAbsolute, beq_iff_eq, List.head?_eq_some_iff] at absolute
    exact absolute
  unfold Path.join
  split
  · assumption
  · split <;> simp [Path.isAbsolute, text]

end StagedFormat.Proofs.PathPlaces
