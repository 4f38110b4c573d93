import MemberStubs.Proofs.TypeText.Names

/-! The end of a template's hole. It is found by an automaton that knows about quotes and braces; a
name leaves the automaton as it is, whatever the name. -/

namespace MemberStubs.TypeText

/-- Where in a hole a character stands, by the braces that are open and the quote it is in. -/
inductive HoleState where
  | outside (depth : Nat)
  | quoted (quote : { c : Char // isQuote c = true }) (depth : Nat)
  /-- Behind a backslash. -/
  | escaped (quote : { c : Char // isQuote c = true }) (depth : Nat)
  | closed
  deriving DecidableEq

namespace HoleState

def next : HoleState → Char → HoleState
  | .outside depth, c =>
      if isQuote : isQuote c = true then .quoted ⟨c, isQuote⟩ depth
      else if c = '\x7d' then
        match depth with
        | 0 => .closed
        | inner + 1 => .outside inner
      else if c = '\x7b' then .outside (depth + 1)
      else .outside depth
  | .quoted quote depth, c =>
      if c = '\\' then .escaped quote depth
      else if c = quote then .outside depth
      else .quoted quote depth
  | .escaped quote depth, _ => .quoted quote depth
  | .closed, _ => .closed

def after (state : HoleState) (chars : List Char) : HoleState :=
  chars.foldl next state

@[simp] theorem after_nil (state : HoleState) : state.after [] = state := rfl

@[simp] theorem after_cons (state : HoleState) (c : Char) (rest : List Char) :
    state.after (c :: rest) = (state.next c).after rest := rfl

@[simp] theorem after_append (state : HoleState) (first second : List Char) :
    state.after (first ++ second) = (state.after first).after second :=
  List.foldl_append

@[simp] theorem after_closed (chars : List Char) : closed.after chars = closed := by
  induction chars with
  | nil => rfl
  | cons c rest induction => exact induction

end HoleState

open HoleState

/-! ## Quotes inside of a hole -/

theorem ne_backslash_of_isQuote {c : Char} (quotes : isQuote c = true) : c ≠ '\\' := by
  rintro rfl
  exact absurd quotes (by decide)

/-- A quote is passed up to its end, or it hides all that follows. -/
theorem after_splitQuoted (quote : { c : Char // isQuote c = true }) (depth : Nat)
    (chars : List Char) :
    (quoted quote depth).after (splitQuoted quote chars).1 = outside depth ∨
      splitQuoted quote chars = (chars, []) ∧ (quoted quote depth).after chars ≠ closed := by
  have quoteNe := ne_backslash_of_isQuote quote.property
  fun_induction splitQuoted (quote : Char) chars with
  | case1 => exact .inr ⟨rfl, by simp⟩
  | case2 c rest inner later split induction =>
      simp only [split] at induction
      simpa [next] using induction
  | case3 => exact .inr ⟨rfl, by simp [next]⟩
  | case4 rest => exact .inl (by simp [next, quoteNe])
  | case5 c rest escapes alone other inner later split induction =>
      have plain : c ≠ '\\' := by
        rintro rfl
        cases rest with
        | nil => exact alone rfl rfl
        | cons head tail => exact escapes head tail rfl rfl
      simp only [split] at induction
      simpa [next, plain, other] using induction

/-! ## The end of a hole -/

theorem splitHole_cases (depth : Nat) (chars : List Char) :
    splitHole depth chars = (chars, []) ∧ (outside depth).after chars ≠ closed ∨
      ∃ hole later, splitHole depth chars = (hole, '\x7d' :: later) ∧
        (outside depth).after hole = outside 0 := by
  fun_induction splitHole depth chars with
  | case1 => exact .inl ⟨rfl, by simp⟩
  | case2 depth c rest quotes hole later split induction =>
      have joined := splitQuoted_append c rest
      rcases after_splitQuoted ⟨c, quotes⟩ depth rest with passed | ⟨hidden, unclosed⟩
      · simp only [split] at induction
        rcases induction with ⟨whole, unclosed⟩ | ⟨inner, outer, found, ends⟩
        · left
          cases whole
          rw [List.cons_append, joined]
          refine ⟨rfl, ?_⟩
          rw [← joined]
          simpa [next, quotes, passed] using unclosed
        · right
          cases found
          exact ⟨_, outer, rfl, by simpa [next, quotes, passed] using ends⟩
      · left
        simp only [hidden, splitHole] at split
        cases split
        exact ⟨by simp [hidden], by simpa [next, quotes] using unclosed⟩
  | case3 depth c rest quotes ends =>
      rcases ends with ⟨rfl, rfl⟩
      exact .inr ⟨[], rest, rfl, rfl⟩
  | case4 depth c rest quotes ends inner hole later split induction =>
      have passed : (outside depth).next c = outside inner := by
        by_cases closing : c = '\x7d'
        · subst closing
          cases depth with
          | zero => exact absurd ⟨rfl, rfl⟩ ends
          | succ outer => rfl
        · simp only [next, quotes, closing, inner]
          by_cases opening : c = '\x7b' <;> simp [opening]
      simp only [split] at induction
      rcases induction with ⟨whole, unclosed⟩ | ⟨found, outer, same, closes⟩
      · cases whole
        exact .inl ⟨rfl, by rwa [after_cons, passed]⟩
      · cases same
        exact .inr ⟨_, outer, rfl, by rwa [after_cons, passed]⟩

/-- The braces that close two holes at the start of one text are one and the same. -/
theorem eq_of_closes {depth : Nat} {first second laterFirst laterSecond : List Char}
    (closesFirst : (outside depth).after first = outside 0)
    (closesSecond : (outside depth).after second = outside 0)
    (same : first ++ '\x7d' :: laterFirst = second ++ '\x7d' :: laterSecond) :
    first = second := by
  have notLonger : ∀ {short long laterShort laterLong : List Char},
      (outside depth).after short = outside 0 → (outside depth).after long = outside 0 →
      (∃ between, long = short ++ between ∧
        '\x7d' :: laterShort = between ++ '\x7d' :: laterLong) →
      short = long := by
    rintro short long laterShort laterLong closesShort closesLong ⟨between, rfl, split⟩
    cases between with
    | nil => simp
    | cons c between =>
        cases (List.cons.inj split).1
        have shut : (outside 0).next '\x7d' = closed := rfl
        rw [after_append, closesShort, after_cons, shut, after_closed] at closesLong
        cases closesLong
  rcases List.append_eq_append_iff.mp same with ⟨between, longer⟩ | ⟨between, longer⟩
  · exact notLonger closesFirst closesSecond ⟨between, longer⟩
  · exact (notLonger closesSecond closesFirst ⟨between, longer⟩).symm

theorem after_closing {depth : Nat} {hole : List Char}
    (closes : (outside depth).after hole = outside 0) (later : List Char) :
    (outside depth).after (hole ++ '\x7d' :: later) = closed := by
  rw [after_append, closes, after_cons]
  exact after_closed later

/-- What a hole does to the automaton decides where it ends. -/
theorem splitHole_append_of_after {depth : Nat} {hole : List Char}
    (closes : (outside depth).after hole = outside 0) (later : List Char) :
    splitHole depth (hole ++ '\x7d' :: later) = (hole, '\x7d' :: later) := by
  rcases splitHole_cases depth (hole ++ '\x7d' :: later) with
    ⟨_, unclosed⟩ | ⟨other, rest, split, otherCloses⟩
  · exact absurd (after_closing closes later) unclosed
  · have joined := splitHole_append depth (hole ++ '\x7d' :: later)
    rw [split] at joined ⊢
    cases eq_of_closes otherCloses closes joined
    exact congrArg (Prod.mk hole) (List.append_cancel_left joined)

theorem splitHole_of_after {depth : Nat} {chars : List Char}
    (unclosed : (outside depth).after chars ≠ closed) : splitHole depth chars = (chars, []) := by
  rcases splitHole_cases depth chars with ⟨whole, _⟩ | ⟨hole, later, split, closes⟩
  · exact whole
  · have joined := splitHole_append depth chars
    rw [split] at joined
    rw [← joined] at unclosed
    exact absurd (after_closing closes later) unclosed

/-! ## Names in a hole -/

def HoleState.behindName : HoleState → HoleState
  | .escaped quote depth => .quoted quote depth
  | state => state

theorem next_of_isNamePart {c : Char} (part : isNamePart c = true) (state : HoleState) :
    state.next c = state.behindName := by
  have different : ∀ {mark : Char}, isNamePart mark = false → c ≠ mark := ne_of_isNamePart part
  have notQuote : ¬ isQuote c = true := by simp [isQuote_of_isNamePart part]
  cases state with
  | outside depth =>
      simp [next, notQuote, behindName, different (by decide : isNamePart '\x7d' = false),
        different (by decide : isNamePart '\x7b' = false)]
  | quoted quote depth =>
      have other : c ≠ quote := by
        intro same
        exact notQuote (same ▸ quote.property)
      simp [next, behindName, other, different (by decide : isNamePart '\\' = false)]
  | escaped quote depth => rfl
  | closed => rfl

theorem after_of_isName {name : List Char} (isName : IsName name) (state : HoleState) :
    state.after name = state.behindName := by
  have settled : ∀ rest : List Char, (∀ c ∈ rest, isNamePart c = true) →
      ∀ state : HoleState, state.behindName.after rest = state.behindName := by
    intro rest parts
    induction rest with
    | nil => exact fun _ => rfl
    | cons c rest induction =>
        intro state
        have again : state.behindName.behindName = state.behindName := by cases state <;> rfl
        rw [after_cons, next_of_isNamePart (parts c (List.mem_cons_self ..)), again]
        exact induction (fun d member => parts d (List.mem_cons_of_mem _ member)) state
  cases name with
  | nil => exact isName.elim
  | cons c rest =>
      rw [after_cons, next_of_isNamePart (isNamePart_of_isNameStart isName.1)]
      exact settled rest isName.2 state

end MemberStubs.TypeText
