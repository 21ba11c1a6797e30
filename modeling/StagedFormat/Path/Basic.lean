import StagedFormat.Text.ByteString

/-! Paths: the bytes that were written and the components they stand for. Two paths may have the same
components, since repeated slashes, trailing slashes and inner dots name nothing. -/

namespace StagedFormat

structure Path where
  written : ByteString
  deriving DecidableEq, Repr, Inhabited

namespace Path

/-- The text that shows a path. -/
def text (path : Path) : String := path.written.text

/-- Where a text is wanted, a path stands for the text that shows it. -/
instance : CoeOut Path String := ⟨text⟩

/-- The byte between components. -/
def slash : UInt8 := 0x2F

def dot : UInt8 := 0x2E

@[simp] theorem bytes_slash : (ByteString.ofText "/").bytes = [slash] := rfl

@[simp] theorem bytes_dot : (ByteString.ofText ".").bytes = [dot] := rfl

inductive Component where
  /-- The top of the tree, where absolute paths start. -/
  | top
  /-- A leading dot of a relative path. -/
  | current
  | parent
  | name (name : ByteString)
  deriving DecidableEq, Repr

/-- The parts between slashes, empty ones included. -/
def segments (path : Path) : List ByteString := (path.written.bytes.splitOn slash).map ByteString.mk

def isAbsolute (path : Path) : Bool := path.written.bytes.head? == some slash

/-- A part that names no place of its own. -/
def isIdle (segment : ByteString) : Bool := segment == "" || segment == "."

def Component.ofSegment (segment : ByteString) : Option Component :=
  if isIdle segment then none
  else if segment = ".." then some .parent
  else some (.name segment)

def components (path : Path) : List Component :=
  let body := path.segments.filterMap Component.ofSegment
  if path.isAbsolute then .top :: body
  else if path.segments.head? = some ↑"." then .current :: body
  else body

/-- Order of components: the top, the leading dot, the parent, then names byte by byte. -/
def Component.order : Component → Component → Ordering
  | .top, .top | .current, .current | .parent, .parent => .eq
  | .top, _ => .lt
  | _, .top => .gt
  | .current, _ => .lt
  | _, .current => .gt
  | .parent, _ => .lt
  | _, .parent => .gt
  | .name a, .name b => compare a b

def orderComponents : List Component → List Component → Ordering
  | [], [] => .eq
  | [], _ :: _ => .lt
  | _ :: _, [] => .gt
  | a :: s, b :: t => (a.order b).then (orderComponents s t)

/-- Component by component; a path comes before what lies below it. -/
def order (a b : Path) : Ordering := orderComponents a.components b.components

/-- Whether two paths have the same components. -/
def same (a b : Path) : Bool := a.components == b.components

/-- The path `other` as seen from `base`; an absolute path stands for itself. -/
def join (base other : Path) : Path :=
  if other.isAbsolute then other
  else if base.written = "" ∨ base.written.bytes.getLast? = some slash then ⟨base.written ++ other.written⟩
  else ⟨base.written ++ "/" ++ other.written⟩

def fileName (path : Path) : Option ByteString :=
  match path.components.getLast? with
  | some (.name name) => some name
  | _ => none

/-- The part of a name after its last dot, unless that dot is its first character. -/
def extensionOf (name : ByteString) : Option ByteString :=
  let backwards := name.bytes.reverse
  match backwards.dropWhile (· != dot) with
  | [] | [_] => none
  | _ => some ⟨(backwards.takeWhile (· != dot)).reverse⟩

def extension (path : Path) : Option ByteString := path.fileName.bind extensionOf

/-- Parts with a slash between them. -/
def joined (segments : List ByteString) : ByteString := ⟨[slash].intercalate (segments.map ByteString.bytes)⟩

def ofSegments (segments : List ByteString) : Path := ⟨joined segments⟩

/-- The parts without idle ones at the end. -/
def withoutIdleEnd (segments : List ByteString) : List ByteString :=
  (segments.reverse.dropWhile isIdle).reverse

/-- What leads a path, a slash or a dot or nothing, and the parts after it. -/
def body (path : Path) : ByteString × List ByteString :=
  if path.isAbsolute then ("/", path.segments.tail)
  else if path.segments.head? = some ↑"." then (".", path.segments.tail)
  else ("", path.segments)

/-- A path put together from what leads it and the parts of its body. -/
def ofBody (lead : ByteString) (segments : List ByteString) : Path :=
  if lead = "." ∧ segments ≠ [] then ofSegments (lead :: segments)
  else ⟨lead ++ joined segments⟩

/-- The path without its last component; the top and the empty path have no parent. -/
def parent? (path : Path) : Option Path :=
  let (lead, segments) := path.body
  match (segments.reverse.dropWhile isIdle) with
  | _ :: before => some (ofBody lead (withoutIdleEnd before.reverse))
  | [] => if lead = "." then some ⟨""⟩ else none

/-- The path itself and the paths above it, from the longest. -/
def ancestors (path : Path) : List Path :=
  climb path.components.length path
where
  climb : Nat → Path → List Path
    | 0, path => [path]
    | steps + 1, path =>
      match path.parent? with
      | none => [path]
      | some above => path :: climb steps above

/-- Drops parts until `count` of them were not idle. -/
def dropParts : (count : Nat) → List ByteString → List ByteString
  | 0, segments => segments
  | _, [] => []
  | count + 1, segment :: rest =>
    if isIdle segment then dropParts (count + 1) rest else dropParts count rest

/-- What remains of a path below `base`, if it lies there. -/
def relativeTo? (path base : Path) : Option Path :=
  let above := base.components
  if above.isPrefixOf path.components then
    let (lead, segments) := path.body
    if above = [] then some (ofBody lead (withoutIdleEnd segments))
    else
      let led := if lead = "" then 0 else 1
      let below := dropParts (above.length - led) segments
      some (ofSegments (withoutIdleEnd (below.dropWhile isIdle)))
  else none

/-- Whether `base` leads `path`, whole components at a time. -/
def startsWith (path base : Path) : Bool := base.components.isPrefixOf path.components

end Path

end StagedFormat
