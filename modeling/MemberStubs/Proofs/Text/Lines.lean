import MemberStubs.Text.Lines

/-! The lines of a text have no line feeds, and all their characters are characters of the text. The
end of the first line tells how the lines of a text end. -/

namespace MemberStubs.Text

theorem notMem_dropLast_of_mem_linesWithEnds {chars line : List Char}
    (member : line ∈ linesWithEnds chars) : '\n' ∉ line.dropLast := by
  fun_induction linesWithEnds chars generalizing line with
  | case1 => cases member
  | case2 rest induction =>
      rcases List.mem_cons.mp member with rfl | member
      · simp
      · exact induction member
  | case3 c rest lineFeed empty induction =>
      rw [List.mem_singleton.mp member]
      simp
  | case4 c rest lineFeed first later split induction =>
      rcases List.mem_cons.mp member with rfl | member
      · have inner := induction (split ▸ List.mem_cons_self ..)
        cases first with
        | nil => simp
        | cons d first =>
            rw [List.dropLast_cons_cons, List.mem_cons, not_or]
            exact ⟨Ne.symm lineFeed, inner⟩
      · exact induction (split ▸ List.mem_cons_of_mem _ member)

theorem dropLineEnd_eq_or (line : List Char) :
    line = dropLineEnd line ++ ['\r', '\n'] ∨ line = dropLineEnd line ++ ['\n'] ∨
      line = dropLineEnd line ∧ line.getLast? ≠ some '\n' := by
  rw [dropLineEnd]
  split
  · next reversed split => exact .inl (by simpa using congrArg List.reverse split)
  · next reversed split => exact .inr (.inl (by simpa using congrArg List.reverse split))
  · next noReturn noFeed =>
      refine .inr (.inr ⟨rfl, ?_⟩)
      rw [← List.head?_reverse]
      intro last
      rcases List.head?_eq_some_iff.mp last with ⟨reversed, split⟩
      exact noFeed reversed split

theorem notMem_dropLineEnd {line : List Char} (inner : '\n' ∉ line.dropLast) :
    '\n' ∉ dropLineEnd line := by
  rcases dropLineEnd_eq_or line with split | split | ⟨same, last⟩
  · rw [split, List.dropLast_append_of_ne_nil (by simp)] at inner
    exact fun member => inner (List.mem_append_left _ member)
  · rwa [split, List.dropLast_concat] at inner
  · rw [← same]
    intro member
    rcases List.eq_nil_or_concat line with rfl | ⟨front, c, rfl⟩
    · cases member
    · rw [List.concat_eq_append] at inner last member
      rw [List.dropLast_concat] at inner
      rw [List.getLast?_concat] at last
      rcases List.mem_append.mp member with member | member
      · exact inner member
      · exact last (congrArg some (List.mem_singleton.mp member).symm)

theorem notMem_of_mem_lines {chars line : List Char} (member : line ∈ lines chars) :
    '\n' ∉ line := by
  rcases List.mem_map.mp member with ⟨whole, held, rfl⟩
  exact notMem_dropLineEnd (notMem_dropLast_of_mem_linesWithEnds held)

theorem mem_of_mem_lines {chars line : List Char} (member : line ∈ lines chars) {c : Char}
    (inside : c ∈ line) : c ∈ chars := by
  rcases List.mem_map.mp member with ⟨whole, held, rfl⟩
  rw [← flatten_linesWithEnds chars]
  refine List.mem_flatten.mpr ⟨whole, held, ?_⟩
  rcases dropLineEnd_eq_or whole with split | split | ⟨same, _⟩
  · exact split ▸ List.mem_append_left _ inside
  · exact split ▸ List.mem_append_left _ inside
  · exact same ▸ inside

/-! ## Newlines -/

/-- Every line feed has a carriage return before it. -/
def FeedsReturned (chars : List Char) : Prop :=
  ∀ front behind, front ++ '\n' :: behind = chars → front.getLast? = some '\r'

namespace FeedsReturned

theorem of_notMem {chars : List Char} (oneLine : '\n' ∉ chars) : FeedsReturned chars := by
  rintro front behind rfl
  exact absurd (List.mem_append_right _ (List.mem_cons_self ..)) oneLine

theorem newline : FeedsReturned ['\r', '\n'] := by
  rintro (_ | ⟨c, _ | ⟨d, front⟩⟩) behind same
  · cases same
  · cases same
    rfl
  · simp at same

theorem append {first second : List Char} (returned : FeedsReturned first)
    (returned' : FeedsReturned second) : FeedsReturned (first ++ second) := by
  intro front behind same
  rcases List.append_eq_append_iff.mp same with ⟨between, rfl, split⟩ | ⟨between, rfl, split⟩
  · cases between with
    | nil => exact nomatch returned' [] behind split
    | cons c between =>
        rcases List.cons.inj split with ⟨rfl, _⟩
        exact returned front between rfl
  · have last := returned' between behind split.symm
    rw [List.getLast?_append, last]
    rfl

theorem flatMap {lines : List (List Char)} {laid : List Char → List Char}
    (returned : ∀ line ∈ lines, FeedsReturned (laid line)) :
    FeedsReturned (lines.flatMap laid) := by
  induction lines with
  | nil => exact of_notMem List.not_mem_nil
  | cons line lines induction =>
      rcases List.forall_mem_cons.mp returned with ⟨first, later⟩
      exact first.append (induction later)

theorem front {first second : List Char} (returned : FeedsReturned (first ++ second)) :
    FeedsReturned first := by
  rintro front behind rfl
  exact returned front (behind ++ second) (by simp)

/-- What follows a character that is no carriage return does not begin with a line feed. -/
theorem behind {first second : List Char} {c : Char} (noReturn : c ≠ '\r')
    (returned : FeedsReturned (first ++ c :: second)) : FeedsReturned second := by
  rintro front behind rfl
  have last := returned (first ++ c :: front) behind (by simp)
  cases front with
  | nil => simp [noReturn] at last
  | cons d front => simpa using last

end FeedsReturned

theorem linesWithEnds_line {line : List Char} (oneLine : '\n' ∉ line) (rest : List Char) :
    linesWithEnds (line ++ '\n' :: rest) = (line ++ ['\n']) :: linesWithEnds rest := by
  induction line with
  | nil => rfl
  | cons c line induction =>
      rw [List.mem_cons, not_or] at oneLine
      rw [List.cons_append, linesWithEnds, if_neg (Ne.symm oneLine.1), induction oneLine.2]
      rfl

theorem detectNewline_of_returned {source : List Char} (broken : '\n' ∈ source)
    (returned : FeedsReturned source) : detectNewline source = "\r\n" := by
  rcases List.eq_append_cons_of_mem broken with ⟨line, rest, rfl, oneLine⟩
  rcases List.getLast?_eq_some_iff.mp (returned line rest rfl) with ⟨front, rfl⟩
  rw [detectNewline, linesWithEnds_line oneLine]
  simp

theorem detectNewline_of_notMem {source : List Char} (noReturn : '\r' ∉ source) :
    detectNewline source = "\n" := by
  rw [detectNewline]
  split
  · rfl
  · next line first =>
      split
      · next reversed split =>
          have inside : '\r' ∈ line := List.mem_reverse.mp (by rw [split]; simp)
          rw [← flatten_linesWithEnds source] at noReturn
          exact absurd (List.mem_flatten.mpr ⟨line, List.mem_of_mem_head? first, inside⟩) noReturn
      · rfl

end MemberStubs.Text
