import StagedFormat.Path.Basic

/-! Normal form of paths: dots and parent steps are resolved without a look at any file. -/

namespace StagedFormat.Path

/-- Adds a component to a stack of components, the last one first. A parent step removes the last
component, and is kept where there is none to remove; at the top it is kept once. -/
def push (stack : List Component) : Component → List Component
  | .current => stack
  | .parent =>
    match stack with
    | [] | [.top] => .parent :: stack
    | _ :: below => below
  | component => component :: stack

def Component.written : Component → ByteString
  | .top => ""
  | .current => "."
  | .parent => ".."
  | .name segment => segment

/-- Components with a slash between them; a path of the top alone is one slash. -/
def ofComponents : List Component → Path
  | [.top] => ⟨"/"⟩
  | components => ofSegments (components.map Component.written)

def normalize (path : Path) : Path := ofComponents (path.components.foldl push []).reverse

end StagedFormat.Path
