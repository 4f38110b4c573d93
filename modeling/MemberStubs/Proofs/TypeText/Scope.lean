import MemberStubs.Proofs.TypeText.Holes
import MemberStubs.Proofs.TypeText.Scan

/-! A text taken apart, scope by scope. A text is a scope, and so is every hole of a template in it;
what stands behind a name in the same scope says if an opening bracket comes next. -/

namespace MemberStubs.TypeText

inductive Segment where
  | verbatim (chars : List Char)
  | occurrence (name : List Char)
  /-- The hole of a template, delimiters included. One that is not closed ends with its text. -/
  | hole (scope : List Segment) (isClosed : Bool)

namespace Segment

def holeStart : List Char := ['$', '\x7b']

def holeEnd (isClosed : Bool) : List Char :=
  if isClosed then ['\x7d'] else []

mutual
def source : Segment → List Char
  | .verbatim chars => chars
  | .occurrence name => name
  | .hole scope isClosed => holeStart ++ sourceOf scope ++ holeEnd isClosed

def sourceOf : List Segment → List Char
  | [] => []
  | segment :: later => segment.source ++ sourceOf later
end

mutual
def pieces (behind : List Char) : Segment → List Piece
  | .verbatim chars => [.verbatim chars]
  | .occurrence name => [.occurrence name (Text.nextVisible? behind = some '[')]
  | .hole scope isClosed =>
      .verbatim holeStart :: piecesOf scope ++
        if isClosed then [.verbatim (holeEnd isClosed)] else []

def piecesOf : List Segment → List Piece
  | [] => []
  | segment :: later => segment.pieces (sourceOf later) ++ piecesOf later
end

/-- The scan of a text sees these segments in it. -/
def Shows (scope : List Segment) (chars : List Char) (pieces : List Piece) : Prop :=
  sourceOf scope = chars ∧ piecesOf scope = pieces

theorem Shows.cons (segment : Segment) {chars : List Char} {pieces : List Piece}
    {scope : List Segment} {later : List Char} {laterPieces : List Piece}
    (shows : Shows scope later laterPieces) (source : segment.source = chars)
    (here : segment.pieces later = pieces) :
    Shows (segment :: scope) (chars ++ later) (pieces ++ laterPieces) := by
  rcases shows with ⟨rfl, rfl⟩
  exact ⟨by rw [sourceOf, source], by rw [piecesOf, here]⟩

/-- What follows a template is no matter for its holes. -/
theorem exists_template {chars : List Char} {scope : List Segment} {laterPieces : List Piece}
    (holes : ∀ hole, .hole hole ∈ (splitTemplate chars).1 →
      ∃ inner, Shows inner hole (piecesFrom {} hole))
    (shows : Shows scope (splitTemplate chars).2 laterPieces) :
    ∃ whole, Shows whole chars
      ((splitTemplate chars).1.flatMap TemplatePart.pieces ++ laterPieces) := by
  fun_induction splitTemplate chars with
  | case1 => exact ⟨scope, shows⟩
  | case2 c rest parts after split induction =>
      simp only [split] at induction
      rcases induction (fun hole member => holes hole (List.mem_cons_of_mem _ member)) shows with
        ⟨whole, shown⟩
      exact ⟨_, shown.cons (.verbatim ['\\', c]) rfl rfl⟩
  | case3 rest hole split =>
      rcases holes hole (by simp) with ⟨inner, innerSource, innerPieces⟩
      have joined : hole = rest := by simpa [split] using splitHole_append 0 rest
      have shown := shows.cons (.hole inner false) rfl rfl
      refine ⟨.hole inner false :: scope, ?_⟩
      simpa [Segment.source, Segment.pieces, innerSource, innerPieces, holeStart, holeEnd, joined,
        TemplatePart.pieces] using shown
  | case4 rest hole close later outside parts after split induction =>
      simp only [split] at induction
      rcases holes hole (by simp) with ⟨inner, innerSource, innerPieces⟩
      rcases induction (fun hole member => holes hole (by simp [member])) shows with
        ⟨whole, shown⟩
      have joined := splitHole_append 0 rest
      rw [outside] at joined
      have closes : close = '\x7d' := by
        rcases splitHole_cases 0 rest with ⟨whole, _⟩ | ⟨_, _, found, _⟩
        · rw [outside] at whole
          cases whole
        · rw [outside] at found
          cases found
          rfl
      subst closes
      have added := shown.cons (.hole inner true) rfl rfl
      refine ⟨.hole inner true :: whole, ?_⟩
      simpa [Segment.source, Segment.pieces, innerSource, innerPieces, holeStart, holeEnd,
        ← joined, TemplatePart.pieces] using added
  | case5 rest => exact ⟨_, shows.cons (.verbatim [backquote]) rfl rfl⟩
  | case6 c rest _ _ other parts after split induction =>
      simp only [split] at induction
      rcases induction (fun hole member => holes hole (List.mem_cons_of_mem _ member)) shows with
        ⟨whole, shown⟩
      exact ⟨_, shown.cons (.verbatim [c]) rfl rfl⟩

/-- The scan of a text sees some segments in it. -/
theorem exists_scope (context : Context) (chars : List Char) :
    ∃ scope, Shows scope chars (piecesFrom context chars) := by
  induction context, chars using scan_induction with
  | nil => exact ⟨[], rfl, (piecesFrom_nil _).symm⟩
  | template context rest holes induction =>
      rcases induction with ⟨later, shows⟩
      rcases exists_template holes shows with ⟨scope, shown⟩
      rw [piecesFrom_template]
      exact ⟨_, shown.cons (.verbatim [backquote]) rfl rfl⟩
  | quoted context quote rest quotes plain induction =>
      rcases induction with ⟨later, shows⟩
      have shown := shows.cons
        (.verbatim (quote :: (splitQuoted quote rest).1)) rfl rfl
      rw [Segment.source, List.cons_append, splitQuoted_append] at shown
      rw [piecesFrom_quoted context quotes plain]
      exact ⟨_, shown⟩
  | name context name behind isName ends induction =>
      rcases induction with ⟨later, shows⟩
      rw [piecesFrom_name context isName ends, namePiece]
      split
      · exact ⟨_, shows.cons (.verbatim name) rfl rfl⟩
      · exact ⟨_, shows.cons (.occurrence name) rfl rfl⟩
  | mark context mark rest marks induction =>
      rcases induction with ⟨later, shows⟩
      rw [piecesFrom_mark context marks]
      exact ⟨_, shows.cons (.verbatim [mark]) rfl rfl⟩

end Segment

end MemberStubs.TypeText
