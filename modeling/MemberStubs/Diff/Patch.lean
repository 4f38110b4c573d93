import MemberStubs.Diff.Compaction
import MemberStubs.Diff.Hunk
import MemberStubs.PathMap
import MemberStubs.Text.Lines

namespace MemberStubs.Diff

/-! Unified diffs of texts. Lines keep their ends while they are compared; in the patch every line
ends with a line feed. -/

/-- A range is written with its first line, counted from one, and its size if that is not one. An
empty range is written with the line before it. -/
def rangeText (start count : Nat) : List Char :=
  let first := if count = 0 then start else start + 1
  (toString first).toList ++ if count = 1 then [] else ',' :: (toString count).toList

def Hunk.header (hunk : Hunk α) : List Char :=
  "@@ -".toList ++ rangeText hunk.oldStart hunk.oldCount ++ " +".toList ++
    rangeText hunk.newStart hunk.newCount ++ " @@\n".toList

def RunKind.sign : RunKind → Char
  | .kept => ' '
  | .removed => '-'
  | .added => '+'

/-- A kept empty line has no sign. A line without an end, which can only be the last one of its text,
is followed by a remark. -/
def lineText (kind : RunKind) (line : List Char) : List Char :=
  if kind = .kept ∧ line = ['\n'] then line
  else if line.getLast? = some '\n' then kind.sign :: line
  else kind.sign :: line ++ "\n\\ No newline at end of file\n".toList

def Hunk.text (hunk : Hunk (List Char)) : List Char :=
  hunk.header ++ hunk.body.flatMap fun run => run.values.flatMap (lineText run.kind)

def hunksOf (old new : List Char) : List (Hunk (List Char)) :=
  let comparison : Comparison (List Char) := ⟨Text.linesWithEnds old, Text.linesWithEnds new⟩
  comparison.hunks (compactScript comparison.old comparison.new)

def patchHeader (path : Path) : List Char :=
  s!"diff --git a/{path} b/{path}\n--- a/{path}\n+++ b/{path}\n".toList

/-- The diff of two texts without names. -/
def plainDiff (old new : List Char) : List Char :=
  "--- original\n+++ modified\n".toList ++ (hunksOf old new).flatMap Hunk.text

/-- The hunks alone. Writing them line by line drops a carriage return before each line feed. -/
def patchBody (old new : List Char) : List Char :=
  let hunkLines := (Text.lines (plainDiff old new)).dropWhile fun line =>
    !"@@".toList.isPrefixOf line
  hunkLines.flatMap fun line => line ++ ['\n']

def filePatch (path : Path) (old new : String) : List Char :=
  if old = new then [] else patchHeader path ++ patchBody old.toList new.toList

/-- The patch of every file that changes, in the order of their paths. A path without a new text
keeps its old one. -/
def patch (before after : PathMap String) : String :=
  String.ofList <| before.entries.flatMap fun (path, old) =>
    filePatch path old ((after.find? path).getD old)

example : lineText .removed "two".toList = "-two\n\\ No newline at end of file\n".toList := by
  decide +kernel

example : hunksOf "a\nb\n".toList "a\nc\n".toList =
    [⟨0, 2, 0, 2,
      [⟨.kept, ["a\n".toList]⟩, ⟨.removed, ["b\n".toList]⟩, ⟨.added, ["c\n".toList]⟩]⟩] := by
  decide +kernel

example : rangeText 0 2 = "1,2".toList := by decide +kernel

end MemberStubs.Diff
