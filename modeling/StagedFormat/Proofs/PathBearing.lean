import StagedFormat.Proofs.PathNormalForm

/-! Where a path leads on its text alone: so many levels up, and then down by names. Normal form keeps
this place as long as no more than one level is gone up, since a second parent step in front takes back
the first. -/

namespace StagedFormat.Proofs.PathBearing
open StagedFormat StagedFormat.Path PathSegments PathPlaces PathOrder PathNormalForm

/-- Levels up, and the names down from there, the last one first. -/
structure Bearing where
  climbs : Nat := 0
  names : List ByteString := []

/-- A parent step takes back the last name; it goes up a level only where there is none. -/
def Bearing.step (bearing : Bearing) : Component → Bearing
  | .top | .current => bearing
  | .name name => { bearing with names := name :: bearing.names }
  | .parent =>
    match bearing.names with
    | [] => { bearing with climbs := bearing.climbs + 1 }
    | _ :: below => { bearing with names := below }

/-- Where a path leads from the directory that it is seen from, or from the top. -/
def bearing (path : Path) : Bearing := path.components.foldl Bearing.step {}

/-- Where the way leads on from a directory with these names; what it climbs above their top is left. -/
def Bearing.onto (bearing : Bearing) (names : List ByteString) : Bearing :=
  { climbs := bearing.climbs - names.length, names := bearing.names ++ names.drop bearing.climbs }

theorem Bearing.step_onto (bearing : Bearing) (names : List ByteString) (component : Component) :
    (bearing.step component).onto names = (bearing.onto names).step component := by
  obtain ⟨climbs, own⟩ := bearing
  cases component with
  | top => rfl
  | current => rfl
  | name name => rfl
  | parent =>
    cases own with
    | cons last below => rfl
    | nil =>
      by_cases left : climbs < names.length
      · have more : climbs + 1 - names.length = climbs - names.length := by omega
        simp only [Bearing.step, Bearing.onto, List.nil_append, List.drop_eq_getElem_cons left, more]
      · have above : names.length ≤ climbs := Nat.le_of_not_lt left
        have none : names.drop climbs = [] := List.drop_eq_nil_iff.mpr above
        have more : climbs + 1 - names.length = climbs - names.length + 1 := by omega
        simp only [Bearing.step, Bearing.onto, List.nil_append, none, more,
          List.drop_eq_nil_iff.mpr (Nat.le_succ_of_le above)]

theorem Bearing.foldl_onto (bearing : Bearing) (names : List ByteString) (components : List Component) :
    components.foldl Bearing.step (bearing.onto names) =
      (components.foldl Bearing.step bearing).onto names := by
  induction components generalizing bearing with
  | nil => rfl
  | cons component rest ih => rw [List.foldl_cons, List.foldl_cons, ← Bearing.step_onto, ih]

theorem Bearing.climbs_le (bearing : Bearing) (components : List Component) :
    (components.foldl Bearing.step bearing).climbs ≤ bearing.climbs + components.count .parent := by
  induction components generalizing bearing with
  | nil => exact Nat.le_refl _
  | cons component rest ih =>
    have onward := ih (bearing.step component)
    rw [List.foldl_cons]
    cases component with
    | parent =>
      have once : (bearing.step .parent).climbs ≤ bearing.climbs + 1 := by
        obtain ⟨climbs, _ | _⟩ := bearing
        · exact Nat.le_refl _
        · exact Nat.le_succ _
      rw [List.count_cons_self]
      omega
    | top => simpa [Bearing.step] using onward
    | current => simpa [Bearing.step] using onward
    | name name => simpa [Bearing.step] using onward

/-- The stack that stands for a place. Of the levels up it shows only whether their number is odd. -/
def stack (lead : List Component) (bearing : Bearing) : List Component :=
  bearing.names.map .name ++ (List.replicate (bearing.climbs % 2) .parent ++ lead)

private theorem push_stack {lead : List Component} (starts : lead = [] ∨ lead = [.top]) (bearing : Bearing)
    {component : Component} (plain : Plain component) :
    push (stack lead bearing) component = stack lead (bearing.step component) := by
  obtain ⟨climbs, names⟩ := bearing
  rcases plain with rfl | ⟨name, rfl, _⟩
  · cases names with
    | cons last below => rfl
    | nil =>
      rcases Nat.mod_two_eq_zero_or_one climbs with even | odd
      · have next : (climbs + 1) % 2 = 1 := by omega
        rcases starts with rfl | rfl <;> simp [stack, Bearing.step, push, even, next]
      · have next : (climbs + 1) % 2 = 0 := by omega
        rcases starts with rfl | rfl <;> simp [stack, Bearing.step, push, odd, next]
  · rfl

private theorem foldl_push_stack {lead : List Component} (starts : lead = [] ∨ lead = [.top]) (bearing : Bearing)
    {body : List Component} (plain : ∀ component ∈ body, Plain component) :
    body.foldl push (stack lead bearing) = stack lead (body.foldl Bearing.step bearing) := by
  induction body generalizing bearing with
  | nil => rfl
  | cons component rest ih =>
    rw [List.foldl_cons, push_stack starts bearing (plain component List.mem_cons_self),
      ih _ fun other member => plain other (.tail _ member)]
    rfl

def lead (path : Path) : List Component := if path.isAbsolute then [.top] else []

private theorem lead_cases (path : Path) : lead path = [] ∨ lead path = [.top] := by
  unfold lead
  split
  · exact .inr rfl
  · exact .inl rfl

private theorem isAbsolute_iff {path : Path} : path.isAbsolute = true ↔ .top ∈ path.components := by
  have inner : Component.top ∉ path.segments.filterMap Component.ofSegment := by
    intro member
    rcases mem_body member with same | ⟨name, same, _⟩ <;> cases same
  unfold components
  split
  · rename_i absolute
    exact iff_of_true absolute List.mem_cons_self
  · rename_i relative
    refine iff_of_false relative ?_
    split <;> simp [inner]

private theorem bearing_eq (path : Path) :
    bearing path = (path.segments.filterMap Component.ofSegment).foldl Bearing.step {} := by
  unfold bearing components
  split
  · rfl
  · split <;> rfl

private theorem foldl_push_components (path : Path) :
    path.components.foldl push [] = stack (lead path) (bearing path) := by
  rw [bearing_eq, ← foldl_push_stack (lead_cases path) {} fun _ => mem_body]
  unfold components lead
  split
  · rfl
  · split <;> rfl

/-- Normal form has the names of the path's bearing, and a parent step in front if the number of levels
up is odd. -/
theorem components_normalize (path : Path) :
    path.normalize.components =
      lead path ++ List.replicate ((bearing path).climbs % 2) .parent ++
        (bearing path).names.reverse.map .name := by
  have reversed : (lead path).reverse = lead path := by
    rcases lead_cases path with same | same <;> rw [same] <;> rfl
  rw [Path.normalize, components_ofComponents (normal_components path), foldl_push_components, stack]
  simp [reversed]

private theorem isAbsolute_normalize (path : Path) : path.normalize.isAbsolute = path.isAbsolute := by
  rw [Bool.eq_iff_iff, isAbsolute_iff, components_normalize]
  simp [lead, List.mem_replicate]

private theorem foldl_step_names (names : List ByteString) (bearing : Bearing) :
    (names.map Component.name).foldl Bearing.step bearing =
      { bearing with names := names.reverse ++ bearing.names } := by
  induction names generalizing bearing with
  | nil => rfl
  | cons name names ih =>
    rw [List.map_cons, List.foldl_cons, ih]
    simp [Bearing.step]

private theorem bearing_normalize (path : Path) :
    bearing path.normalize = { bearing path with climbs := (bearing path).climbs % 2 } := by
  have levels (count : Nat) :
      (List.replicate count Component.parent).foldl Bearing.step {} = { climbs := count } := by
    induction count with
    | zero => rfl
    | succ count ih =>
      rw [List.replicate_succ', List.foldl_concat, ih]
      rfl
  have leads : (lead path).foldl Bearing.step {} = {} := by
    rcases lead_cases path with same | same <;> rw [same] <;> rfl
  rw [bearing, components_normalize, List.foldl_append, List.foldl_append, leads, levels, foldl_step_names]
  simp

/-! ### Seen from a base -/

def Ordinary (base : Path) : Prop :=
  base.isAbsolute = true ∧ ∀ component ∈ base.components.tail, isName component = true

instance (base : Path) : Decidable (Ordinary base) := inferInstanceAs (Decidable (_ ∧ ∀ _ ∈ _, _))

theorem Ordinary.names {base : Path} (ordinary : Ordinary base) :
    ∃ names : List ByteString, base.components = .top :: names.map .name := by
  obtain ⟨absolute, known⟩ := ordinary
  rw [components_absolute absolute, List.tail_cons] at known
  rw [components_absolute absolute]
  generalize base.segments.filterMap Component.ofSegment = body at known
  induction body with
  | nil => exact ⟨[], rfl⟩
  | cons component rest ih =>
    obtain ⟨names, same⟩ := ih fun other member => known other (.tail _ member)
    have named := known component List.mem_cons_self
    cases component with
    | name name => exact ⟨name :: names, by rw [(List.cons.inj same).2]; rfl⟩
    | top => cases named
    | current => cases named
    | parent => cases named

private theorem bearing_join {base path : Path} {names : List ByteString}
    (spelt : base.components = .top :: names.map .name) (relative : path.isAbsolute = false) :
    bearing (base.join path) = (bearing path).onto names.reverse := by
  have absolute : base.isAbsolute = true := isAbsolute_iff.mpr (spelt ▸ List.mem_cons_self)
  have body : base.segments.filterMap Component.ofSegment = names.map .name := by
    rw [components_absolute absolute] at spelt
    exact (List.cons.inj spelt).2
  have start : ({ names := names.reverse } : Bearing) = Bearing.onto {} names.reverse := by
    simp [Bearing.onto]
  rw [bearing_eq, filterMap_join_relative relative rfl, List.foldl_append, body, foldl_step_names,
    List.append_nil, start, Bearing.foldl_onto, ← bearing_eq]

private theorem normalize_eq_iff {a b : Path} :
    a.normalize = b.normalize ↔ a.normalize.components = b.normalize.components := by
  constructor
  · intro same
    rw [same]
  · intro same
    apply eq_of_canonical (canonical_normalize a) (canonical_normalize b)
    simpa [Path.same] using same

private theorem normalize_normalize {path : Path} (absolute : path.isAbsolute = true) :
    path.normalize.normalize = path.normalize := by
  rw [normalize_eq_iff, components_normalize, components_normalize path, bearing_normalize]
  simp [lead, isAbsolute_normalize, absolute]

/-- Where a base is deep enough for all levels up, each of them counts. -/
theorem onto_eq_iff {bearing : Bearing} {names : List ByteString} (deep : bearing.climbs ≤ names.length) :
    ({ bearing with climbs := bearing.climbs % 2 } : Bearing).onto names = bearing.onto names ↔
      bearing.climbs ≤ 1 := by
  constructor
  · intro same
    have left := congrArg (fun place => place.names.length) same
    simp only [Bearing.onto, List.length_append, List.length_drop] at left
    omega
  · intro few
    have whole : bearing.climbs % 2 = bearing.climbs := by omega
    rw [whole]

private theorem normalize_join_iff {base path : Path} {names : List ByteString}
    (spelt : base.components = .top :: names.map .name) (relative : path.isAbsolute = false)
    (deep : (bearing path).climbs ≤ names.length) :
    (base.join path.normalize).normalize = (base.join path).normalize ↔ (bearing path).climbs ≤ 1 := by
  have absolute : base.isAbsolute = true := isAbsolute_iff.mpr (spelt ▸ List.mem_cons_self)
  have leads (other : Path) : lead (base.join other) = [.top] := by
    simp [lead, join_absolute absolute other]
  have settled : path.normalize.isAbsolute = false := by rw [isAbsolute_normalize, relative]
  have long : (bearing path).climbs ≤ names.reverse.length := by simpa using deep
  have short : (bearing path).climbs % 2 ≤ names.length := by omega
  have here : (bearing (base.join path)).climbs = 0 := by
    simp [bearing_join spelt relative, Bearing.onto, deep]
  have there : (bearing (base.join path.normalize)).climbs = 0 := by
    simp [bearing_join spelt settled, bearing_normalize, Bearing.onto, short]
  have places : (base.join path.normalize).normalize = (base.join path).normalize ↔
      bearing (base.join path.normalize) = bearing (base.join path) := by
    rw [normalize_eq_iff, components_normalize, components_normalize (base.join path), leads, leads,
      here, there]
    constructor
    · intro same
      have texts := List.map_injective_iff.mpr (fun _ _ => Component.name.inj) (List.append_cancel_left same)
      rw [Bearing.mk.injEq]
      exact ⟨there.trans here.symm, List.reverse_injective texts⟩
    · intro same
      rw [same]
  rw [places, bearing_join spelt settled, bearing_join spelt relative, bearing_normalize]
  exact onto_eq_iff long

/-- Normal form keeps the place that a path names below any base that is deep enough, exactly if the path
is absolute or goes up one level at most. An absolute path in normal form has no dot, and it has a
parent step exactly if the path goes up above the top an odd number of times. -/
theorem normalize_keeps_place (path : Path) :
    (∀ base : Path, Ordinary base → path.components.count .parent < base.components.length →
      ((base.join path.normalize).normalize = (base.join path).normalize ↔
        path.isAbsolute = true ∨ (bearing path).climbs ≤ 1)) ∧
    (path.isAbsolute = true → .current ∉ path.normalize.components ∧
      (.parent ∈ path.normalize.components ↔ (bearing path).climbs % 2 = 1)) := by
  constructor
  · intro base ordinary deep
    by_cases absolute : path.isAbsolute = true
    · have settled : path.normalize.isAbsolute = true := by rw [isAbsolute_normalize, absolute]
      have same : (base.join path.normalize).normalize = (base.join path).normalize := by
        rw [Path.join, Path.join, if_pos settled, if_pos absolute, normalize_normalize absolute]
      exact iff_of_true same (.inl absolute)
    · obtain ⟨names, spelt⟩ := ordinary.names
      have few := Bearing.climbs_le {} path.components
      have levels : (bearing path).climbs ≤ path.components.count .parent := by simpa [bearing] using few
      have enough : (bearing path).climbs ≤ names.length := by
        rw [spelt] at deep
        simp only [List.length_cons, List.length_map] at deep
        omega
      rw [or_iff_right absolute]
      exact normalize_join_iff spelt (Bool.eq_false_iff.mpr absolute) enough
  · intro absolute
    rw [components_normalize, lead, if_pos absolute]
    constructor <;> simp [List.mem_replicate]

theorem normalize_keeps_place_sibling :
    Ordinary ⟨"/a/b"⟩ ∧
      (⟨"c/../../x"⟩ : Path).components.count .parent < (⟨"/a/b"⟩ : Path).components.length ∧
      ((⟨"/a/b"⟩ : Path).join (⟨"c/../../x"⟩ : Path).normalize).normalize =
        ((⟨"/a/b"⟩ : Path).join ⟨"c/../../x"⟩).normalize ∧
      (⟨"/a/../../../x"⟩ : Path).isAbsolute = true ∧
      .parent ∉ (⟨"/a/../../../x"⟩ : Path).normalize.components := by
  have ordinary : Ordinary ⟨"/a/b"⟩ := by decide
  have deep : (⟨"c/../../x"⟩ : Path).components.count .parent < (⟨"/a/b"⟩ : Path).components.length := by
    decide
  obtain ⟨relative, _⟩ := normalize_keeps_place ⟨"c/../../x"⟩
  obtain ⟨_, absolute⟩ := normalize_keeps_place ⟨"/a/../../../x"⟩
  obtain ⟨_, climbing⟩ := absolute (by decide)
  refine ⟨ordinary, deep, ?_, by decide, ?_⟩
  · apply (relative _ ordinary deep).mpr
    exact .inr (by decide)
  · apply mt climbing.mp
    decide

/-- Two parent steps in front take each other back, and one above the top is kept. -/
theorem leading_parents_cancel :
    (Ordinary ⟨"/a/b/c"⟩ ∧
      (⟨"../../x"⟩ : Path).components.count .parent < (⟨"/a/b/c"⟩ : Path).components.length ∧
      ((⟨"/a/b/c"⟩ : Path).join (⟨"../../x"⟩ : Path).normalize).normalize = ⟨"/a/b/c/x"⟩ ∧
      ((⟨"/a/b/c"⟩ : Path).join ⟨"../../x"⟩).normalize = ⟨"/a/x"⟩) ∧
    (⟨"/.."⟩ : Path).isAbsolute = true ∧ .parent ∈ (⟨"/.."⟩ : Path).normalize.components := by
  decide

end StagedFormat.Proofs.PathBearing
