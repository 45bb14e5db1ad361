import SchemaInterfaces.Diff.Block

/-!
# Unified diffs

Changes as text that can be applied: hunks of changed lines with up to three kept lines on either
side. A header names the lines that a hunk covers in both texts.
-/
namespace SchemaInterfaces.Diff

/-- Kept lines shown on either side of a change. -/
def contextRadius : Nat := 3

/-- The last lines of kept lines, at most `count`. -/
def Block.keepLast (count : Nat) : Block → Block
  | .keep oldStart newStart lines =>
    let cut := lines.length - count
    .keep (oldStart + cut) (newStart + cut) (lines.drop cut)
  | block => block

/-- The first lines of kept lines, at most `count`. -/
def Block.keepFirst (count : Nat) : Block → Block
  | .keep oldStart newStart lines => .keep oldStart newStart (lines.take count)
  | block => block

/-- Shortens the kept lines at the beginning and at the end. -/
def trimEnds (blocks : List Block) : List Block :=
  let headed :=
    match blocks with
    | first :: rest => first.keepLast contextRadius :: rest
    | [] => []
  match headed.reverse with
  | last :: rest => (last.keepFirst contextRadius :: rest).reverse
  | [] => []

/-- Cuts blocks into groups in the middle of long kept stretches; `group` is the open group, its
last block first. A group of kept lines alone is left out. -/
def groupBlocks (group : List Block) : List Block → List (List Block)
  | [] =>
    match group with
    | [] => []
    | [.keep _ _ _] => []
    | _ => [group.reverse]
  | block :: rest =>
    match block with
    | .keep oldStart newStart lines =>
      if 2 * contextRadius < lines.length then
        (block.keepFirst contextRadius :: group).reverse ::
          groupBlocks [(Block.keep oldStart newStart lines).keepLast contextRadius] rest
      else groupBlocks (block :: group) rest
    | .change _ _ _ _ => groupBlocks (block :: group) rest

/-- A range of lines, numbered from one. An empty one is named by the line before it. -/
def rangeText (start stop : Nat) : String :=
  let length := stop - start
  if length = 1 then toString (start + 1)
  else if length = 0 then toString start ++ ",0"
  else toString (start + 1) ++ "," ++ toString length

/-- A line behind its mark. A line without an ending is pointed out. -/
def lineText (mark line : String) : String :=
  let ended := line.toList.getLast? = some '\n' ∨ line.toList.getLast? = some '\r'
  mark ++ line ++ (if ended then "" else "\n\\ No newline at end of file\n")

def Block.text : Block → String
  | .keep _ _ lines => String.join (lines.map (lineText " "))
  | .change _ _ removed added =>
    String.join (removed.map (lineText "-")) ++ String.join (added.map (lineText "+"))

/-- The text of a group that is not empty. -/
def hunkText (group : List Block) : String :=
  match group.head?, group.getLast? with
  | some first, some last =>
    "@@ -" ++ rangeText first.oldStart last.oldEnd ++ " +" ++
      rangeText first.newStart last.newEnd ++ " @@\n" ++ String.join (group.map Block.text)
  | _, _ => ""

/-- The unified diff of two named texts; empty when they are equal. -/
def unifiedText (oldName newName : String) (blocks : List Block) : String :=
  let hunks := groupBlocks [] (trimEnds blocks)
  if hunks.isEmpty then ""
  else
    "--- " ++ oldName ++ "\n+++ " ++ newName ++ "\n" ++ String.join (hunks.map hunkText)

end SchemaInterfaces.Diff
