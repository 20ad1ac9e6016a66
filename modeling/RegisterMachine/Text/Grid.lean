namespace RegisterMachine.Text

inductive Alignment where
  | left
  | right
deriving DecidableEq, Repr

structure Cell where
  lines : List String
  alignment : Alignment
deriving DecidableEq, Repr

namespace Cell

def width (c : Cell) : Nat := (c.lines.map String.length).foldl max 0

def fill (alignment : Alignment) (width : Nat) (text : String) : String :=
  let blanks := String.ofList (List.replicate (width - text.length) ' ')
  match alignment with
  | .left => text ++ blanks
  | .right => blanks ++ text

def line (c : Cell) (width index : Nat) : String := fill c.alignment width (c.lines.getD index "")

end Cell

structure Grid where
  heading : Option (List Cell)
  rows : List (List Cell)
deriving DecidableEq, Repr

namespace Grid

def widest : List Nat → List Nat → List Nat
  | a :: as, b :: bs => max a b :: widest as bs
  | [], bs => bs
  | as, [] => as

def widths (g : Grid) : List Nat :=
  (g.heading.toList ++ g.rows).foldl (fun acc row => widest acc (row.map Cell.width)) []

def rowLines (widths : List Nat) (row : List Cell) : List String :=
  let height := (row.map (fun c => c.lines.length)).foldl max 0
  (List.range height).map (fun index =>
    " " ++ String.intercalate "│" (List.zipWith (fun c width =>
      " " ++ c.line width index ++ " ") row widths) ++ " ")

def rule (widths : List Nat) (crossing : String) : String :=
  " " ++ String.intercalate crossing (widths.map (fun width =>
    String.ofList (List.replicate (width + 2) '─'))) ++ " "

def lines (g : Grid) : List String :=
  let heading := match g.heading with
    | some row => rowLines g.widths row ++ [rule g.widths "┼"]
    | none => []
  heading ++ g.rows.flatMap (rowLines g.widths) ++ [rule g.widths "┴"]

end Grid

end RegisterMachine.Text
