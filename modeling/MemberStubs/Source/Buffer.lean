import MemberStubs.Edit
import MemberStubs.Text.Lines
import MemberStubs.Text.Offset

namespace MemberStubs

/-! A source text and the blocks that go into it. A block stands right behind an opening brace, and
no brace takes two. Positions always mean the text without any block. -/

/-! ## The layout of a block

Every line of a block starts on a line of its own, one indent unit deeper than the line of its brace.
If anything but blanks follows the brace on its line, that goes to a fresh line behind the block. -/

namespace Layout

/-- The spaces and tabs at the start of the line that ends a text. -/
def indentOf (before : List Char) : List Char :=
  (before.reverse.takeWhile (· ≠ '\n')).reverse.takeWhile fun c => c = ' ' || c = '\t'

def isRestBlank (after : List Char) : Bool :=
  (after.takeWhile (· ≠ '\n')).all Text.isBlank

def placedLine (layout : Layout) (indent line : List Char) : List Char :=
  layout.newline.toList ++
    if line.isEmpty then [] else indent ++ layout.indentUnit.toList ++ line

/-- The block for a text that is put between `before` and `after`. -/
def placedBlock (layout : Layout) (before after : List Char) (text : List Char) : List Char :=
  let indent := indentOf before
  (Text.lines text).flatMap (layout.placedLine indent) ++
    if isRestBlank after then [] else layout.newline.toList ++ indent

example : placedBlock {} "\tclass A \x7b".toList "\x7d".toList "a;\n\nb;".toList =
    "\n\t    a;\n\n\t    b;\n\t".toList := by
  decide +kernel

end Layout

/-! ## Insertions -/

inductive AnchorFault where
  | notBehindBrace (position : UInt64)
  | taken (position : UInt64)
  deriving DecidableEq, Repr

def AnchorFault.message : AnchorFault → String
  | .notBehindBrace position => s!"offset {position} does not follow an opening brace"
  | .taken position => s!"offset {position} already has an insertion"

structure Insertion where
  position : UInt64
  block : List Char
  deriving DecidableEq, Repr

structure SourceBuffer where
  source : List Char
  /-- In the order of their positions. -/
  insertions : List Insertion := []
  deriving DecidableEq, Repr

namespace SourceBuffer

def ofText (text : String) : SourceBuffer :=
  ⟨text.toList, []⟩

/-- The text before and after an anchor, if a brace opens right before it. -/
def splitBehindBrace? (source : List Char) (position : UInt64) :
    Option (List Char × List Char) :=
  (Text.splitAtByte? position.toNat source).filter fun parts =>
    parts.1.getLast? = some '\x7b'

def isTaken (buffer : SourceBuffer) (position : UInt64) : Bool :=
  buffer.insertions.any fun insertion => insertion.position = position

def addInsertion (insertion : Insertion) : List Insertion → List Insertion
  | [] => [insertion]
  | first :: later =>
      if insertion.position < first.position then insertion :: first :: later
      else first :: addInsertion insertion later

def insert (buffer : SourceBuffer) (anchor : Anchor) (text : List Char) (layout : Layout) :
    Except AnchorFault SourceBuffer :=
  match splitBehindBrace? buffer.source anchor.position with
  | none => .error (.notBehindBrace anchor.position)
  | some (before, after) =>
      if buffer.isTaken anchor.position then .error (.taken anchor.position)
      else
        let insertion := ⟨anchor.position, layout.placedBlock before after text⟩
        .ok { buffer with insertions := addInsertion insertion buffer.insertions }

/-! ## The resulting text -/

/-- Here `rest` is the source from the offset `passed` on. -/
def renderFrom (passed : Nat) (rest : List Char) : List Insertion → List Char
  | [] => rest
  | insertion :: later =>
      match Text.splitAtByte? (insertion.position.toNat - passed) rest with
      | some (before, after) =>
          before ++ insertion.block ++ renderFrom insertion.position.toNat after later
      | none => rest

def render (buffer : SourceBuffer) : List Char :=
  renderFrom 0 buffer.source buffer.insertions

def text (buffer : SourceBuffer) : String :=
  String.ofList buffer.render

end SourceBuffer

end MemberStubs
