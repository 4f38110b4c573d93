import Mathlib.Data.List.Basic
import MemberStubs.Diff.Patch
import MemberStubs.Proofs.Diff.Hunk
import MemberStubs.Proofs.Text.Lines
import MemberStubs.Text.Digits

/-! Unified diffs read and put into effect. The reader goes by the format alone: a hunk begins with its
ranges, every line of it has a sign, and a remark takes the end from the line before it. -/

namespace MemberStubs.Diff

/-! ## The reader -/

/-- A range from its first line, counted from zero, and of its size. -/
def readRange? (chars : List Char) : Option (Nat × Nat) :=
  match chars.splitOn ',' with
  | [first] => (Text.unsigned? first).map fun first => (first - 1, 1)
  | [first, size] => do
      let first ← Text.unsigned? first
      let size ← Text.unsigned? size
      some (if size = 0 then first else first - 1, size)
  | _ => none

/-- The ranges of a hunk in the old text and in the new one. -/
def readHeader? (line : List Char) : Option ((Nat × Nat) × (Nat × Nat)) :=
  match line.splitOn ' ' with
  | [['@', '@'], '-' :: old, '+' :: new, ['@', '@', '\n']] => do
      let old ← readRange? old
      let new ← readRange? new
      some (old, new)
  | _ => none

def isRemark (line : List Char) : Bool :=
  line.head? = some '\\'

/-- A line behind its sign. An empty line has lost the sign of a kept one. -/
def readLine? : List Char → Option (RunKind × List Char)
  | ['\n'] => some (.kept, ['\n'])
  | ' ' :: line => some (.kept, line)
  | '-' :: line => some (.removed, line)
  | '+' :: line => some (.added, line)
  | _ => none

/-- The lines in front of the first header, and the hunks. -/
def readFrom? : List (List Char) → Option (Script (List Char) × List (Hunk (List Char)))
  | [] => some ([], [])
  | line :: later => do
      let (body, hunks) ← readFrom? later
      if line.head? = some '@' then
        let (old, new) ← readHeader? line
        some ([], ⟨old.1, old.2, new.1, new.2, body⟩ :: hunks)
      else if isRemark line then some (body, hunks)
      else
        let (kind, text) ← readLine? line
        let whole := if later.head?.any isRemark then text.dropLast else text
        some (⟨kind, [whole]⟩ :: body, hunks)

def readHunks? (diff : List Char) : Option (List (Hunk (List Char))) :=
  (readFrom? (Text.linesWithEnds diff)).bind fun (body, hunks) =>
    if body.isEmpty then some hunks else none

/-- The new text, if every hunk of a diff fits the old one. -/
def applyDiff? (diff old : List Char) : Option (List Char) :=
  ((readHunks? diff).bind (applyHunks? (Text.linesWithEnds old))).map List.flatten

/-! ## Ranges -/

theorem unsigned?_toDigits (value : Nat) : Text.unsigned? (Nat.toDigits 10 value) = some value := by
  have digits : (Nat.toDigits 10 value).all Char.isDigit = true :=
    List.all_eq_true.mpr fun _ => Nat.isDigit_of_mem_toDigits (by decide) (by decide)
  have value_eq : Text.natOfDigits (Nat.toDigits 10 value) = value := by
    have read := Nat.ofDigitChars_ten_toDigits (n := value)
    rwa [Nat.ofDigitChars_eq_foldl] at read
  have unsigned : ∀ rest, Nat.toDigits 10 value = '+' :: rest → False := by
    intro rest split
    rw [split] at digits
    cases digits
  unfold Text.unsigned?
  dsimp only
  split
  · next rest split => exact (unsigned rest split).elim
  · rw [digits, value_eq, List.isEmpty_eq_false_iff.mpr Nat.toDigits_ne_nil]
    rfl

theorem toList_toString (value : Nat) : (toString value).toList = Nat.toDigits 10 value :=
  Nat.toList_repr

theorem notMem_toDigits {c : Char} (other : c.isDigit = false) (value : Nat) :
    c ∉ Nat.toDigits 10 value := by
  intro member
  rw [Nat.isDigit_of_mem_toDigits (by decide) (by decide) member] at other
  cases other

/-- Words that one character keeps apart are found again. -/
theorem splitOn_words {separator : Char} {words : List (List Char)} (notEmpty : words ≠ [])
    (apart : ∀ word ∈ words, separator ∉ word) :
    (List.intercalate [separator] words).splitOn separator = words :=
  List.splitOn_intercalate separator apart notEmpty

theorem notMem_rangeText {c : Char} (other : c.isDigit = false) (noComma : c ≠ ',')
    (start count : Nat) : c ∉ rangeText start count := by
  have digits (value : Nat) : c ∉ (toString value).toList := by
    rw [toList_toString]
    exact notMem_toDigits other value
  rw [rangeText, List.mem_append, not_or]
  refine ⟨digits _, ?_⟩
  split
  · exact List.not_mem_nil
  · rw [List.mem_cons, not_or]
    exact ⟨noComma, digits count⟩

theorem readRange?_rangeText (start count : Nat) :
    readRange? (rangeText start count) = some (start, count) := by
  have noComma (value : Nat) : ',' ∉ Nat.toDigits 10 value := notMem_toDigits (by decide) value
  rw [rangeText, toList_toString, toList_toString, readRange?]
  generalize first_eq : (if count = 0 then start else start + 1) = first
  by_cases single : count = 1
  · have words := splitOn_words (List.cons_ne_nil (Nat.toDigits 10 first) [])
      (List.forall_mem_singleton.mpr (noComma first))
    rw [List.intercalate_singleton] at words
    rw [if_pos single, List.append_nil, words]
    dsimp only
    rw [unsigned?_toDigits, ← first_eq, single]
    rfl
  · have words := splitOn_words (List.cons_ne_nil (Nat.toDigits 10 first) [Nat.toDigits 10 count])
      (List.forall_mem_cons.mpr ⟨noComma first, List.forall_mem_singleton.mpr (noComma count)⟩)
    rw [List.intercalate_cons_cons, List.intercalate_singleton, List.append_assoc] at words
    rw [if_neg single, ← List.singleton_append, words]
    dsimp only
    rw [unsigned?_toDigits, unsigned?_toDigits, ← first_eq]
    by_cases empty : count = 0 <;> simp [empty]

theorem readHeader?_header (hunk : Hunk α) :
    readHeader? hunk.header =
      some ((hunk.oldStart, hunk.oldCount), (hunk.newStart, hunk.newCount)) := by
  have noBlank (start count : Nat) : ' ' ∉ rangeText start count :=
    notMem_rangeText (by decide) (by decide) start count
  have apart : ∀ word ∈ [['@', '@'], '-' :: rangeText hunk.oldStart hunk.oldCount,
      '+' :: rangeText hunk.newStart hunk.newCount, ['@', '@', '\n']], ' ' ∉ word := by
    simp [noBlank]
  have words := splitOn_words (List.cons_ne_nil _ _) apart
  have header : hunk.header = List.intercalate [' '] [['@', '@'],
      '-' :: rangeText hunk.oldStart hunk.oldCount, '+' :: rangeText hunk.newStart hunk.newCount,
      ['@', '@', '\n']] := by
    show "@@ -".toList ++ rangeText hunk.oldStart hunk.oldCount ++ " +".toList ++
      rangeText hunk.newStart hunk.newCount ++ " @@\n".toList = _
    simp [List.intercalate_cons_cons, List.intercalate_singleton]
  rw [header, readHeader?, words]
  show ((readRange? (rangeText hunk.oldStart hunk.oldCount)).bind fun old =>
    (readRange? (rangeText hunk.newStart hunk.newCount)).bind fun new => some (old, new)) = _
  rw [readRange?_rangeText, readRange?_rangeText]
  rfl

end MemberStubs.Diff
