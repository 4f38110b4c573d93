import MemberStubs.Proofs.Diff.Reading

/-! What the reader makes of a diff that was written line by line. It finds every hunk, but no line of
it has a carriage return at its end any more. -/

namespace MemberStubs.Diff

open Text

/-! ## Lines and their ends -/

/-- A line as a text has it: only its last character may be a line feed. -/
structure IsLine (line : List Char) : Prop where
  notEmpty : line ≠ []
  inner : '\n' ∉ line.dropLast

/-- A line with a line feed at its end and nowhere else. -/
def Terminated (line : List Char) : Prop :=
  ∃ content, line = content ++ ['\n'] ∧ '\n' ∉ content

theorem isLine_of_mem_linesWithEnds {chars line : List Char}
    (member : line ∈ linesWithEnds chars) : IsLine line := by
  refine ⟨?_, notMem_dropLast_of_mem_linesWithEnds member⟩
  rintro rfl
  fun_induction linesWithEnds chars with
  | case1 => cases member
  | case2 rest induction => exact induction (by simpa using member)
  | case3 c rest lineFeed empty induction => simp at member
  | case4 c rest lineFeed first later split induction =>
      exact induction (split ▸ List.mem_cons_of_mem _ (by simpa using member))

theorem IsLine.terminated_or {line : List Char} (isLine : IsLine line) :
    Terminated line ∨ '\n' ∉ line := by
  rcases List.eq_nil_or_concat line with rfl | ⟨front, c, rfl⟩
  · exact absurd rfl isLine.notEmpty
  · have inner := isLine.inner
    rw [List.concat_eq_append, List.dropLast_concat] at inner
    rw [List.concat_eq_append]
    by_cases feed : c = '\n'
    · exact .inl ⟨front, by rw [feed], inner⟩
    · refine .inr fun member => ?_
      rcases List.mem_append.mp member with member | member
      · exact inner member
      · exact feed (List.mem_singleton.mp member).symm

theorem linesWithEnds_flatten {lines : List (List Char)}
    (terminated : ∀ line ∈ lines, Terminated line) : linesWithEnds lines.flatten = lines := by
  induction lines with
  | nil => rfl
  | cons line lines induction =>
      rcases List.forall_mem_cons.mp terminated with ⟨⟨content, rfl, oneLine⟩, later⟩
      rw [List.flatten_cons, List.append_assoc, List.singleton_append,
        linesWithEnds_line oneLine, induction later]

theorem dropLineEnd_cons {c : Char} (noReturn : c ≠ '\r') (content : List Char) :
    dropLineEnd (c :: (content ++ ['\n'])) = c :: dropLineEnd (content ++ ['\n']) := by
  rcases List.eq_nil_or_concat content with rfl | ⟨front, d, rfl⟩
  · simp [dropLineEnd, noReturn]
  · by_cases isReturn : d = '\r' <;> simp [dropLineEnd, isReturn]

/-- A line written anew. -/
def rewritten (line : List Char) : List Char :=
  dropLineEnd line ++ ['\n']

theorem Terminated.rewritten {line : List Char} (terminated : Terminated line) :
    Terminated (rewritten line) := by
  rcases terminated with ⟨content, rfl, oneLine⟩
  exact ⟨_, rfl, notMem_dropLineEnd (by rwa [List.dropLast_concat])⟩

/-- What is shown of a line that is written anew. -/
def shownLine (line : List Char) : List Char :=
  if line.getLast? = some '\n' then rewritten line else dropLineEnd (line ++ ['\n'])

/-! ## Printed lines -/

def remark : List Char :=
  "\\ No newline at end of file\n".toList

/-- The lines on which a line of a text is printed. -/
def printedLines (kind : RunKind) (line : List Char) : List (List Char) :=
  if kind = .kept ∧ line = ['\n'] then [line]
  else if line.getLast? = some '\n' then [kind.sign :: line]
  else [kind.sign :: (line ++ ['\n']), remark]

theorem flatten_printedLines (kind : RunKind) (line : List Char) :
    (printedLines kind line).flatten = lineText kind line := by
  have remark_eq : "\n\\ No newline at end of file\n".toList = '\n' :: remark := by decide
  unfold printedLines lineText
  rw [remark_eq]
  by_cases empty : kind = .kept ∧ line = ['\n']
  · rw [if_pos empty, if_pos empty, List.flatten_singleton]
  · by_cases ends : line.getLast? = some '\n'
    · rw [if_neg empty, if_neg empty, if_pos ends, if_pos ends, List.flatten_singleton]
    · rw [if_neg empty, if_neg empty, if_neg ends, if_neg ends]
      simp

/-- The lines of a script, each with what is done about it. -/
def Script.entries (script : Script α) : List (RunKind × α) :=
  script.flatMap fun run => run.values.map (run.kind, ·)

def Hunk.printed (hunk : Hunk (List Char)) : List (List Char) :=
  hunk.header :: hunk.body.entries.flatMap fun (kind, line) => printedLines kind line

theorem Hunk.flatten_printed (hunk : Hunk (List Char)) : hunk.printed.flatten = hunk.text := by
  rw [printed, List.flatten_cons, text, Script.entries]
  simp only [← List.flatMap_id, List.flatMap_assoc, List.flatMap_map]
  simp only [List.flatMap_id, flatten_printedLines]

theorem RunKind.sign_ne {c : Char} (kind : RunKind) (other : c ∉ [' ', '-', '+']) :
    kind.sign ≠ c := by
  rintro rfl
  cases kind <;> exact absurd other (by decide)

/-- A line is printed as it is, with its sign, or with its sign and a line feed that a remark takes
back. -/
theorem printedLines_cases {line : List Char} (isLine : IsLine line) (kind : RunKind) :
    (kind = .kept ∧ line = ['\n'] ∧ printedLines kind line = [line]) ∨
    (∃ content, line = content ++ ['\n'] ∧ '\n' ∉ content ∧
      printedLines kind line = [kind.sign :: line]) ∨
    ('\n' ∉ line ∧ printedLines kind line = [kind.sign :: (line ++ ['\n']), remark]) := by
  rcases isLine.terminated_or with ⟨content, rfl, oneLine⟩ | oneLine
  · by_cases empty : kind = .kept ∧ content ++ ['\n'] = ['\n']
    · exact .inl ⟨empty.1, empty.2, if_pos empty⟩
    · refine .inr (.inl ⟨content, rfl, oneLine, ?_⟩)
      rw [printedLines, if_neg empty, List.getLast?_concat, if_pos rfl]
  · have unfinished : line.getLast? ≠ some '\n' := fun last => oneLine (List.mem_of_getLast? last)
    have notEmpty : ¬(kind = .kept ∧ line = ['\n']) := by
      rintro ⟨_, rfl⟩
      exact oneLine (List.mem_singleton_self _)
    exact .inr (.inr ⟨oneLine, by rw [printedLines, if_neg notEmpty, if_neg unfinished]⟩)

theorem terminated_printedLines {line : List Char} (isLine : IsLine line) (kind : RunKind) :
    ∀ printed ∈ printedLines kind line, Terminated printed := by
  have signed {content : List Char} (oneLine : '\n' ∉ content) :
      Terminated (kind.sign :: (content ++ ['\n'])) :=
    ⟨kind.sign :: content, rfl,
      List.not_mem_cons_of_ne_of_not_mem (kind.sign_ne (by decide)).symm oneLine⟩
  rcases printedLines_cases isLine kind with ⟨_, rfl, printed⟩ | ⟨content, rfl, oneLine, printed⟩ |
    ⟨oneLine, printed⟩
  · exact printed ▸ List.forall_mem_singleton.mpr ⟨[], rfl, List.not_mem_nil⟩
  · exact printed ▸ List.forall_mem_singleton.mpr (signed oneLine)
  · have remarkEnds : Terminated remark := ⟨remark.dropLast, by decide, by decide⟩
    exact printed ▸ List.forall_mem_cons.mpr
      ⟨signed oneLine, List.forall_mem_singleton.mpr remarkEnds⟩

theorem Hunk.header_eq (hunk : Hunk α) :
    ∃ ranges, hunk.header = '@' :: '@' :: (ranges ++ [' ', '@', '@', '\n']) ∧ '\n' ∉ ranges := by
  refine ⟨" -".toList ++ rangeText hunk.oldStart hunk.oldCount ++ " +".toList ++
    rangeText hunk.newStart hunk.newCount, ?_, ?_⟩
  · show "@@ -".toList ++ rangeText hunk.oldStart hunk.oldCount ++ " +".toList ++
      rangeText hunk.newStart hunk.newCount ++ " @@\n".toList = _
    simp
  · simp [notMem_rangeText]

theorem Hunk.terminated_header (hunk : Hunk α) : Terminated hunk.header := by
  rcases hunk.header_eq with ⟨ranges, header, oneLine⟩
  refine ⟨'@' :: '@' :: (ranges ++ [' ', '@', '@']), by rw [header]; simp, ?_⟩
  simp [oneLine]

/-- All lines of a hunk's body are lines of texts. -/
def Hunk.OfLines (hunk : Hunk (List Char)) : Prop :=
  ∀ run ∈ hunk.body, ∀ line ∈ run.values, IsLine line

theorem Hunk.OfLines.entries {hunk : Hunk (List Char)} (ofLines : hunk.OfLines) :
    ∀ entry ∈ hunk.body.entries, IsLine entry.2 := by
  intro entry member
  rcases List.mem_flatMap.mp member with ⟨run, inBody, inRun⟩
  rcases List.mem_map.mp inRun with ⟨line, inValues, rfl⟩
  exact ofLines run inBody line inValues

theorem Hunk.terminated_printed {hunk : Hunk (List Char)} (ofLines : hunk.OfLines) :
    ∀ printed ∈ hunk.printed, Terminated printed := by
  refine List.forall_mem_cons.mpr ⟨hunk.terminated_header, fun printed member => ?_⟩
  rcases List.mem_flatMap.mp member with ⟨⟨kind, line⟩, held, member⟩
  exact terminated_printedLines (ofLines.entries _ held) kind printed member

/-! ## The body of a patch -/

/-- The lines in front of the hunks. -/
def nameLines : List (List Char) :=
  ["--- original\n".toList, "+++ modified\n".toList]

theorem terminated_nameLines : ∀ line ∈ nameLines, Terminated line :=
  List.forall_mem_cons.mpr ⟨⟨"--- original".toList, by decide, by decide⟩,
    List.forall_mem_singleton.mpr ⟨"+++ modified".toList, by decide, by decide⟩⟩

theorem plainDiff_eq (old new : List Char) :
    plainDiff old new = (nameLines ++ (hunksOf old new).flatMap Hunk.printed).flatten := by
  have texts : ((hunksOf old new).flatMap Hunk.printed).flatten =
      (hunksOf old new).flatMap Hunk.text := by
    rw [← List.flatMap_id, List.flatMap_assoc]
    simp only [List.flatMap_id, Hunk.flatten_printed]
  rw [List.flatten_append, texts]
  rfl

theorem terminated_hunkLines {hunks : List (Hunk (List Char))}
    (ofLines : ∀ hunk ∈ hunks, hunk.OfLines) :
    ∀ line ∈ hunks.flatMap Hunk.printed, Terminated line := by
  intro line member
  rcases List.mem_flatMap.mp member with ⟨hunk, held, member⟩
  exact Hunk.terminated_printed (ofLines hunk held) line member

theorem isPrefixOf_dropLineEnd_header (hunk : Hunk α) :
    "@@".toList.isPrefixOf (dropLineEnd hunk.header) = true := by
  rcases hunk.header_eq with ⟨ranges, header, _⟩
  rw [header]
  simp [dropLineEnd]

/-- Everything in front of the first header is passed, and nothing else. -/
theorem dropWhile_hunkLines (hunks : List (Hunk (List Char))) :
    ((nameLines ++ hunks.flatMap Hunk.printed).map dropLineEnd).dropWhile
        (fun line => !"@@".toList.isPrefixOf line) =
      (hunks.flatMap Hunk.printed).map dropLineEnd := by
  have names : ∀ name ∈ nameLines.map dropLineEnd,
      (!"@@".toList.isPrefixOf name) = true := by decide
  rw [List.map_append, List.dropWhile_append_of_pos names]
  cases hunks with
  | nil => rfl
  | cons hunk later =>
      rw [List.flatMap_cons, Hunk.printed, List.cons_append, List.map_cons,
        List.dropWhile_cons_of_neg (by rw [isPrefixOf_dropLineEnd_header]; decide)]

/-- The lines of a patch are the lines of its hunks, written anew. -/
theorem patchBody_eq {old new : List Char} (ofLines : ∀ hunk ∈ hunksOf old new, hunk.OfLines) :
    patchBody old new = (((hunksOf old new).flatMap Hunk.printed).map rewritten).flatten := by
  have terminated := List.forall_mem_append.mpr
    ⟨terminated_nameLines, terminated_hunkLines ofLines⟩
  rw [patchBody, lines, plainDiff_eq, linesWithEnds_flatten terminated, dropWhile_hunkLines,
    List.flatMap_map]
  rfl

/-! ## The hunks that are read -/

/-- What the reader makes of lines. A remark among them belongs to another of them. -/
structure Reads (lines : List (List Char)) (body : Script (List Char))
    (hunks : List (Hunk (List Char))) : Prop where
  read : readFrom? lines = some (body, hunks)
  noRemark : lines.head?.any isRemark = false

/-- A hunk with its lines one by one, as they are shown. -/
def Hunk.shown (hunk : Hunk (List Char)) : Hunk (List Char) :=
  { hunk with body := hunk.body.entries.map fun (kind, line) => ⟨kind, [shownLine line]⟩ }

theorem rewritten_signed (kind : RunKind) (content : List Char) :
    rewritten (kind.sign :: (content ++ ['\n'])) = kind.sign :: rewritten (content ++ ['\n']) := by
  rw [rewritten, dropLineEnd_cons (kind.sign_ne (by decide))]
  rfl

theorem readLine?_signed (kind : RunKind) (text : List Char) :
    readLine? (kind.sign :: text) = some (kind, text) := by
  cases kind <;> rfl

theorem isRemark_signed (kind : RunKind) (text : List Char) :
    isRemark (kind.sign :: text) = false :=
  decide_eq_false fun head => kind.sign_ne (by decide) (Option.some.inj head)

namespace Reads

variable {body : Script (List Char)} {hunks : List (Hunk (List Char))}
  {later : List (List Char)}

/-- A signed line, the end of which is taken by a remark behind it. -/
theorem readFrom?_signed (kind : RunKind) (text : List Char)
    (read : readFrom? later = some (body, hunks)) :
    readFrom? ((kind.sign :: text) :: later) =
      some (⟨kind, [if later.head?.any isRemark then text.dropLast else text]⟩ :: body, hunks) := by
  have noHeader : (kind.sign :: text).head? ≠ some '@' := fun head =>
    kind.sign_ne (by decide) (Option.some.inj head)
  rw [readFrom?, read]
  show (if (kind.sign :: text).head? = some '@' then _ else if isRemark (kind.sign :: text) then _
    else _) = _
  rw [if_neg noHeader, isRemark_signed, readLine?_signed]
  rfl

theorem line {line : List Char} (isLine : IsLine line) (kind : RunKind)
    (reads : Reads later body hunks) :
    Reads ((printedLines kind line).map rewritten ++ later)
      (⟨kind, [shownLine line]⟩ :: body) hunks := by
  rcases printedLines_cases isLine kind with ⟨rfl, rfl, printed⟩ | ⟨content, rfl, _, printed⟩ |
    ⟨oneLine, printed⟩
  · refine printed ▸ ⟨?_, rfl⟩
    show (readFrom? (['\n'] :: later)) = _
    rw [readFrom?, reads.read]
    show some (Run.mk .kept [if later.head?.any isRemark then _ else _] :: body, hunks) = _
    rw [reads.noRemark]
    rfl
  · rw [printed, List.map_singleton, List.singleton_append, rewritten_signed, shownLine,
      List.getLast?_concat, if_pos rfl]
    refine ⟨?_, isRemark_signed ..⟩
    rw [readFrom?_signed kind _ reads.read, reads.noRemark]
    rfl
  · have unfinished : line.getLast? ≠ some '\n' := fun last => oneLine (List.mem_of_getLast? last)
    have remark_same : rewritten remark = remark := by decide
    have skipped : readFrom? (remark :: later) = some (body, hunks) := by
      rw [readFrom?, reads.read]
      rfl
    rw [printed, shownLine, if_neg unfinished, List.map_cons, List.map_singleton, rewritten_signed,
      remark_same]
    refine ⟨?_, isRemark_signed ..⟩
    show readFrom? ((kind.sign :: rewritten (line ++ ['\n'])) :: remark :: later) = _
    rw [readFrom?_signed kind _ skipped]
    show some (Run.mk kind [(rewritten (line ++ ['\n'])).dropLast] :: body, hunks) = _
    rw [rewritten, List.dropLast_concat]

theorem entries {entries : List (RunKind × List Char)} (isLine : ∀ entry ∈ entries, IsLine entry.2)
    (reads : Reads later [] hunks) :
    Reads ((entries.flatMap fun (kind, line) => printedLines kind line).map rewritten ++ later)
      (entries.map fun (kind, line) => ⟨kind, [shownLine line]⟩) hunks := by
  induction entries with
  | nil => exact reads
  | cons entry entries induction =>
      rcases List.forall_mem_cons.mp isLine with ⟨first, others⟩
      rw [List.flatMap_cons, List.map_append, List.append_assoc]
      exact (induction others).line first entry.1

theorem hunk {hunk : Hunk (List Char)} (ofLines : hunk.OfLines) (reads : Reads later [] hunks) :
    Reads (hunk.printed.map rewritten ++ later) [] (hunk.shown :: hunks) := by
  have same : rewritten hunk.header = hunk.header := by
    rcases hunk.header_eq with ⟨ranges, header, _⟩
    rw [header]
    simp [rewritten, dropLineEnd]
  have begins : hunk.header.head? = some '@' := by
    rcases hunk.header_eq with ⟨ranges, header, _⟩
    rw [header]
    rfl
  rw [Hunk.printed, List.map_cons, same]
  refine ⟨?_, ?_⟩
  · rw [List.cons_append]
    simp only [readFrom?, (reads.entries ofLines.entries).read, begins, readHeader?_header,
      Option.bind_eq_bind, Option.bind_some, if_true]
    rfl
  · rw [List.cons_append, List.head?_cons, Option.any_some, isRemark, begins]
    decide

theorem printedHunks {hunks : List (Hunk (List Char))} (ofLines : ∀ hunk ∈ hunks, hunk.OfLines) :
    Reads ((hunks.flatMap Hunk.printed).map rewritten) [] (hunks.map Hunk.shown) := by
  induction hunks with
  | nil => exact ⟨rfl, rfl⟩
  | cons hunk later induction =>
      rcases List.forall_mem_cons.mp ofLines with ⟨first, others⟩
      rw [List.flatMap_cons, List.map_append]
      exact (induction others).hunk first

end Reads

theorem readHunks?_patchBody {old new : List Char}
    (ofLines : ∀ hunk ∈ hunksOf old new, hunk.OfLines) :
    readHunks? (patchBody old new) = some ((hunksOf old new).map Hunk.shown) := by
  have terminated : ∀ line ∈ ((hunksOf old new).flatMap Hunk.printed).map rewritten,
      Terminated line := by
    intro line member
    rcases List.mem_map.mp member with ⟨printed, held, rfl⟩
    exact (terminated_hunkLines ofLines printed held).rewritten
  rw [patchBody_eq ofLines, readHunks?, linesWithEnds_flatten terminated,
    (Reads.printedHunks ofLines).read]
  rfl

end MemberStubs.Diff
