import BinMatch.Diff.Hunk

/-!
# Differences of two texts

Two texts are compared line by line.  The rows and the match ratio come from the
alignment over all lines.  The unified diff has an alignment of its own, which
for long texts looks for blocks among the lines that are not frequent.
-/

namespace BinMatch.Diff

structure TextDiff where
  oldText : String
  newText : String
  alignment : Alignment String
  /-- Number of lines of both texts together. -/
  totalLines : Nat
  unified : String

namespace TextDiff

def rows (d : TextDiff) : List (Edit String) :=
  d.alignment.rows

def matchingLines (d : TextDiff) : Nat :=
  d.alignment.matching

/-- Every line of either text stands in a common run. -/
def isMatch (d : TextDiff) : Bool :=
  2 * d.matchingLines = d.totalLines

/-- Share of the lines that stand in common runs; one for two empty texts. -/
def ratio (d : TextDiff) : Float :=
  if d.totalLines = 0 then 1.0
  else Float.ofNat (2 * d.matchingLines) / Float.ofNat d.totalLines

end TextDiff

/-- The lines that are frequent in a text of two hundred lines or more: those
that occur more often than once in a hundred lines and once besides. -/
def frequent (lines : List String) : List String :=
  if lines.length < 200 then []
  else
    lines.eraseDups.filter fun line =>
      lines.length / 100 + 1 < lines.count line

def unifiedDiff (oldName newName : String) (old new : List String) : String :=
  let common := frequent new
  unifiedText oldName newName
    (hunks (align (fun line => !common.contains line) old new).rows)

def compareTexts (oldName newName oldText newText : String) : TextDiff :=
  let old := Text.Line.split oldText
  let new := Text.Line.split newText
  { oldText
    newText
    alignment := align (fun _ => true) old new
    totalLines := old.length + new.length
    unified := unifiedDiff oldName newName old new }

end BinMatch.Diff
