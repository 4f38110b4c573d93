import Mathlib.Data.List.TakeWhile
import MemberStubs.Proofs.Text.Lines
import MemberStubs.Text.Blank

/-! Brackets of a text. Every bracket character counts, wherever it stands. A text is balanced if
each closing bracket closes the innermost open one and none is left open; such a text makes no
difference to the brackets that are open around it. -/

namespace MemberStubs.Text

inductive Bracket where
  | round
  | square
  | curly
  deriving DecidableEq, Repr

namespace Bracket

def opening : Bracket → Char
  | round => '('
  | square => '['
  | curly => '\x7b'

def closing : Bracket → Char
  | round => ')'
  | square => ']'
  | curly => '\x7d'

def all : List Bracket := [round, square, curly]

def opened? (c : Char) : Option Bracket :=
  all.find? fun bracket => c = bracket.opening

def closed? (c : Char) : Option Bracket :=
  all.find? fun bracket => c = bracket.closing

end Bracket

def isBracket (c : Char) : Bool :=
  (Bracket.opened? c).isSome || (Bracket.closed? c).isSome

/-- The brackets that are open behind a character, the innermost first. A closing bracket that does
not fit is a stray one. -/
def openBehind? (openBefore : List Bracket) (c : Char) : Option (List Bracket) :=
  match Bracket.opened? c, Bracket.closed? c, openBefore with
  | some bracket, _, _ => some (bracket :: openBefore)
  | none, none, _ => some openBefore
  | none, some bracket, innermost :: outer => if innermost = bracket then some outer else none
  | none, some _, [] => none

/-- The brackets that are open behind a text without stray brackets. -/
def openAfter? (openBefore : List Bracket) (chars : List Char) : Option (List Bracket) :=
  chars.foldlM openBehind? openBefore

def Balanced (chars : List Char) : Prop :=
  openAfter? [] chars = some []

instance (chars : List Char) : Decidable (Balanced chars) :=
  inferInstanceAs (Decidable (openAfter? [] chars = some []))

/-- The brackets that are open behind any text. What a stray bracket does is left to `stray`. -/
def openAfter (stray : List Bracket → Char → List Bracket) (openBefore : List Bracket)
    (chars : List Char) : List Bracket :=
  chars.foldl (fun opened c => (openBehind? opened c).getD (stray opened c)) openBefore

example : Balanced "f(a: [b]): \x7b c: (d) \x7d".toList := by decide

example : ¬ Balanced "([)]".toList := by decide

/-! ## One character -/

section

variable {c : Char} {opened inner outer : List Bracket}

theorem openBehind?_of_not_isBracket (plain : isBracket c = false) :
    openBehind? opened c = some opened := by
  rw [isBracket, Bool.or_eq_false_iff, Option.isSome_eq_false_iff, Option.isSome_eq_false_iff,
    Option.isNone_iff_eq_none, Option.isNone_iff_eq_none] at plain
  unfold openBehind?
  rw [plain.1, plain.2]

theorem openBehind?_opening (bracket : Bracket) :
    openBehind? opened bracket.opening = some (bracket :: opened) := by
  cases bracket <;> rfl

theorem openBehind?_closing (bracket : Bracket) :
    openBehind? (bracket :: opened) bracket.closing = some opened := by
  cases bracket <;> rfl

/-- What is open further out stays open, and changes nothing. -/
theorem openBehind?_append (known : openBehind? opened c = some inner) :
    openBehind? (opened ++ outer) c = some (inner ++ outer) := by
  revert known
  unfold openBehind?
  rcases Bracket.opened? c with _ | bracket
  · rcases Bracket.closed? c with _ | bracket
    · rintro ⟨⟩
      rfl
    · cases opened with
      | nil => nofun
      | cons innermost rest =>
          intro known
          by_cases same : innermost = bracket
          · simpa [same] using known
          · simp [same] at known
  · rintro ⟨⟩
    rfl

end

theorem isBracket_eq_true_iff : isBracket c = true ↔ c ∈ ['(', '[', '\x7b', ')', ']', '\x7d'] := by
  simp only [isBracket, Bracket.opened?, Bracket.closed?, Bool.or_eq_true, List.find?_isSome,
    decide_eq_true_eq, Bracket.all, List.mem_cons, List.not_mem_nil, or_false, exists_eq_or_imp,
    exists_eq_left, or_assoc]
  rfl

theorem isBracket_eq_false_of {test : Char → Bool} (holds : test c = true)
    (none : ['(', '[', '\x7b', ')', ']', '\x7d'].any test = false) : isBracket c = false := by
  rw [← Bool.not_eq_true, isBracket_eq_true_iff]
  exact fun member => List.any_eq_false.mp none c member holds

/-! ## Texts -/

section

variable {opened between outer : List Bracket} {first second chars : List Char}

theorem openAfter?_append (opened : List Bracket) (first second : List Char) :
    openAfter? opened (first ++ second) =
      (openAfter? opened first).bind fun between => openAfter? between second :=
  List.foldlM_append

theorem openAfter?_outer (known : openAfter? opened chars = some between) :
    openAfter? (opened ++ outer) chars = some (between ++ outer) := by
  induction chars generalizing opened with
  | nil =>
      cases known
      rfl
  | cons c rest induction =>
      rw [openAfter?, List.foldlM_cons, Option.bind_eq_bind, Option.bind_eq_some_iff] at known ⊢
      rcases known with ⟨behind, here, later⟩
      exact ⟨_, openBehind?_append here, induction later⟩

theorem openAfter?_filter (opened : List Bracket) (chars : List Char) :
    openAfter? opened (chars.filter isBracket) = openAfter? opened chars := by
  induction chars generalizing opened with
  | nil => rfl
  | cons c rest induction =>
      cases plain : isBracket c with
      | true =>
          rw [List.filter_cons_of_pos plain, openAfter?, openAfter?, List.foldlM_cons,
            List.foldlM_cons]
          exact congrArg _ (funext induction)
      | false =>
          rw [List.filter_cons_of_neg (by simp [plain]), induction, openAfter?, openAfter?,
            List.foldlM_cons, openBehind?_of_not_isBracket plain]
          rfl

theorem openAfter_append (stray : List Bracket → Char → List Bracket) (opened : List Bracket)
    (first second : List Char) :
    openAfter stray opened (first ++ second) =
      openAfter stray (openAfter stray opened first) second :=
  List.foldl_append

theorem openAfter_of_openAfter? (stray : List Bracket → Char → List Bracket)
    (known : openAfter? opened chars = some between) :
    openAfter stray opened chars = between := by
  induction chars generalizing opened with
  | nil =>
      cases known
      rfl
  | cons c rest induction =>
      rw [openAfter?, List.foldlM_cons, Option.bind_eq_bind, Option.bind_eq_some_iff] at known
      rcases known with ⟨behind, here, later⟩
      rw [openAfter, List.foldl_cons, here]
      exact induction later

end

/-! ## Texts with the same brackets -/

theorem filter_trimStart (chars : List Char) :
    (trimStart chars).filter isBracket = chars.filter isBracket := by
  have blanks : (chars.takeWhile isBlank).filter isBracket = [] := by
    refine List.filter_eq_nil_iff.mpr fun c member => ?_
    rw [isBracket_eq_false_of (List.mem_takeWhile_imp member) (by decide)]
    exact Bool.false_ne_true
  have whole := congrArg (List.filter isBracket)
    (List.takeWhile_append_dropWhile (p := isBlank) (l := chars))
  rwa [List.filter_append, blanks] at whole

theorem filter_trim (chars : List Char) :
    (trim chars).filter isBracket = chars.filter isBracket := by
  rw [trim, List.filter_reverse, filter_trimStart, List.filter_reverse, List.reverse_reverse,
    filter_trimStart]

theorem filter_dropLineEnd (line : List Char) :
    (dropLineEnd line).filter isBracket = line.filter isBracket := by
  have ending {ended : List Char} (split : line = dropLineEnd line ++ ended)
      (plain : ended.filter isBracket = []) :
      (dropLineEnd line).filter isBracket = line.filter isBracket := by
    have whole := congrArg (List.filter isBracket) split
    rw [List.filter_append, plain, List.append_nil] at whole
    exact whole.symm
  rcases dropLineEnd_eq_or line with split | split | ⟨same, _⟩
  · exact ending split (by decide)
  · exact ending split (by decide)
  · rw [← same]

/-- What stands around lines is all that cutting a text into lines takes away. -/
theorem filter_flatMap_lines {place : List Char → List Char}
    (placed : ∀ line, (place line).filter isBracket = line.filter isBracket) (chars : List Char) :
    ((lines chars).flatMap place).filter isBracket = chars.filter isBracket := by
  rw [lines, List.flatMap_map, List.filter_flatMap]
  simp only [placed, filter_dropLineEnd]
  rw [← List.filter_flatMap, List.flatMap_id', flatten_linesWithEnds]

/-! ## Balanced texts -/

namespace Balanced

variable {first second inside chars : List Char}

theorem openAfter?_eq (balanced : Balanced chars) (opened : List Bracket) :
    openAfter? opened chars = some opened :=
  openAfter?_outer balanced

theorem openAfter_eq (balanced : Balanced chars) (stray : List Bracket → Char → List Bracket)
    (opened : List Bracket) : openAfter stray opened chars = opened :=
  openAfter_of_openAfter? stray (balanced.openAfter?_eq opened)

theorem nil : Balanced [] := rfl

theorem append (balanced : Balanced first) (balanced' : Balanced second) :
    Balanced (first ++ second) := by
  rw [Balanced, openAfter?_append, show openAfter? [] first = some [] from balanced]
  exact balanced'

theorem flatMap {items : List α} {text : α → List Char}
    (balanced : ∀ item ∈ items, Balanced (text item)) : Balanced (items.flatMap text) := by
  induction items with
  | nil => exact nil
  | cons item items induction =>
      rcases List.forall_mem_cons.mp balanced with ⟨here, later⟩
      exact here.append (induction later)

theorem intercalate {separator : List Char} {parts : List (List Char)}
    (balanced : Balanced separator) (balanced' : ∀ part ∈ parts, Balanced part) :
    Balanced (separator.intercalate parts) := by
  induction parts with
  | nil => exact nil
  | cons part parts induction =>
      rcases List.forall_mem_cons.mp balanced' with ⟨here, later⟩
      cases parts with
      | nil => rwa [List.intercalate_singleton]
      | cons next parts =>
          rw [List.intercalate_cons_cons]
          exact (here.append balanced).append (induction later)

theorem enclosed (bracket : Bracket) (balanced : Balanced inside) :
    Balanced (bracket.opening :: (inside ++ [bracket.closing])) := by
  rw [Balanced, openAfter?, List.foldlM_cons, openBehind?_opening]
  show openAfter? [bracket] (inside ++ [bracket.closing]) = _
  rw [openAfter?_append, balanced.openAfter?_eq]
  exact (Option.bind_some ..).trans (by rw [openAfter?, List.foldlM_cons, openBehind?_closing]; rfl)

theorem of_filter_eq (balanced : Balanced first)
    (same : second.filter isBracket = first.filter isBracket) : Balanced second := by
  rwa [Balanced, ← openAfter?_filter, same, openAfter?_filter]

theorem of_plain (plain : ∀ c ∈ chars, isBracket c = false) : Balanced chars := by
  refine nil.of_filter_eq ?_
  rw [List.filter_eq_nil_iff.mpr fun c member => by simp [plain c member]]
  rfl

end Balanced

end MemberStubs.Text
