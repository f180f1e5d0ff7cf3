import UriTemplate.Text.Width

namespace UriTemplate

structure Table where
  header : List Text
  rows : List (List Text)

namespace Table

structure Rule where
  left : CodePoint
  cross : CodePoint
  right : CodePoint
  fill : CodePoint

def topRule : Rule := ⟨.char '┏', .char '┳', .char '┓', .char '━'⟩

def headerRule : Rule := ⟨.char '┡', .char '╇', .char '┩', .char '━'⟩

def bottomRule : Rule := ⟨.char '└', .char '┴', .char '┘', .char '─'⟩

def opensTag : Text → Bool
  | c :: s =>
      (c.satisfies Char.isLower || c ∈ Text.of "#/@") &&
        s.find? (fun x => x = .char '[' || x = .char ']') = some (.char ']')
  | [] => false

/-- How the text of a cell is shown. A bracket that would open a style tag stands for itself, and
any other takes away a backslash in front of it. -/
def shown : Text → Text
  | .char '\\' :: .char '[' :: s =>
      if opensTag s then .char '\\' :: .char '[' :: shown s else .char '[' :: shown s
  | c :: s => c :: shown s
  | [] => []

def widen : List Nat → List Nat → List Nat
  | [], ns => ns
  | ms, [] => ms
  | m :: ms, n :: ns => max m n :: widen ms ns

def widths (t : Table) : List Nat :=
  t.rows.foldl (fun ws row => widen ws (row.map Text.width)) (t.header.map Text.width)

def drawRule (r : Rule) (ws : List Nat) : Text :=
  r.left :: Text.joined r.cross (ws.map fun w => List.replicate (w + 2) r.fill) ++
    [r.right, .char '\n']

def cell (w : Nat) (t : Text) : Text :=
  .char ' ' :: t ++ List.replicate (w + 1 - t.width) (.char ' ')

def drawRow (edge : CodePoint) (ws : List Nat) (row : List Text) : Text :=
  edge :: Text.joined edge (List.zipWith cell ws row) ++ [edge, .char '\n']

def drawShown (t : Table) : Text :=
  let ws := t.widths
  drawRule topRule ws ++ drawRow (.char '┃') ws t.header ++ drawRule headerRule ws ++
    t.rows.flatMap (drawRow (.char '│') ws) ++ drawRule bottomRule ws

def draw (t : Table) (below : Text) : Text :=
  drawShown ⟨t.header, t.rows.map (List.map shown)⟩ ++ below ++ [.char '\n']

end Table

end UriTemplate
