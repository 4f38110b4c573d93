import MemberStubs.Proofs.TypeText.Holes

/-! Quotes and templates that are read again, with another text behind them and other names in their
holes. They end where they ended before. -/

namespace MemberStubs.TypeText

/-! ## Quotes -/

theorem splitQuoted_cons {quote c : Char} (plain : c ≠ '\\') (rest : List Char) :
    splitQuoted quote (c :: rest) =
      if c = quote then ([c], rest)
      else (c :: (splitQuoted quote rest).1, (splitQuoted quote rest).2) := by
  rw [splitQuoted] <;> simp [plain]

/-- A character for which neither pattern of a backslash fits is none. -/
theorem ne_backslash_of_unescaped {c : Char} {rest : List Char}
    (escapes : ∀ d later, c = '\\' → rest = d :: later → False)
    (alone : c = '\\' → rest = [] → False) : c ≠ '\\' := by
  intro same
  cases rest with
  | nil => exact alone same rfl
  | cons d later => exact escapes d later same rfl

/-- A quote that has no end must have nothing behind it again. -/
theorem splitQuoted_again {quote : Char} {chars later : List Char}
    (ends : (splitQuoted quote chars).2 = [] → later = []) :
    splitQuoted quote ((splitQuoted quote chars).1 ++ later) =
      ((splitQuoted quote chars).1, later) := by
  fun_induction splitQuoted quote chars with
  | case1 => rw [ends rfl]; rfl
  | case2 c rest inner after split induction =>
      simp only [split] at induction ends
      simp [splitQuoted, induction ends]
  | case3 => rw [ends rfl]; rfl
  | case4 rest escapes alone =>
      have plain := ne_backslash_of_unescaped escapes alone
      simp [splitQuoted_cons plain]
  | case5 c rest escapes alone other inner after split induction =>
      have plain := ne_backslash_of_unescaped escapes alone
      simp only [split] at induction ends
      simp [splitQuoted_cons plain, other, induction ends]

/-! ## Templates -/

theorem splitTemplate_hole (rest : List Char) :
    splitTemplate ('$' :: '\x7b' :: rest) =
      match splitHole 0 rest with
      | (hole, []) => ([.text ['$', '\x7b'], .hole hole], [])
      | (hole, close :: later) =>
          (.text ['$', '\x7b'] :: .hole hole :: .text [close] :: (splitTemplate later).1,
            (splitTemplate later).2) := by
  rw [splitTemplate]
  split <;> rename_i found <;> rw [found]

theorem splitTemplate_cons {c : Char} {rest : List Char}
    (escapes : ∀ d later, c = '\\' → rest = d :: later → False)
    (opens : ∀ later, c = '$' → rest = '\x7b' :: later → False) :
    splitTemplate (c :: rest) =
      if c = backquote then ([.text [c]], rest)
      else (.text [c] :: (splitTemplate rest).1, (splitTemplate rest).2) := by
  rw [splitTemplate]
  · exact escapes
  · exact opens

def TemplatePart.mapHole (change : List Char → List Char) : TemplatePart → TemplatePart
  | .text chars => .text chars
  | .hole chars => .hole (change chars)

/-- The first part of a template is text. -/
theorem exists_splitTemplate_cons (c : Char) (rest : List Char) :
    ∃ chars parts, (splitTemplate (c :: rest)).1 = .text (c :: chars) :: parts := by
  generalize given : c :: rest = chars
  fun_cases splitTemplate chars <;> cases given <;> exact ⟨_, _, rfl⟩

variable {change : List Char → List Char}

/-- A template begins as the text did that it was split from. -/
theorem exists_front {rest later behind : List Char} {d : Char}
    (ends : (splitTemplate rest).2 = [] → later = [])
    (same : ((splitTemplate rest).1.map (.mapHole change)).flatMap TemplatePart.chars ++ later =
      d :: behind) : ∃ front, rest = d :: front := by
  cases rest with
  | nil =>
      rw [ends (by simp [splitTemplate])] at same
      simp [splitTemplate] at same
  | cons e front =>
      rcases exists_splitTemplate_cons e front with ⟨first, others, starts⟩
      rw [starts] at same
      cases same
      exact ⟨front, rfl⟩

/-- A template that has no end must have nothing behind it again. -/
theorem splitTemplate_again {chars later : List Char}
    (keeps : ∀ hole, .hole hole ∈ (splitTemplate chars).1 →
      ∀ state : HoleState, state.after (change hole) = state.after hole)
    (ends : (splitTemplate chars).2 = [] → later = []) :
    splitTemplate
        (((splitTemplate chars).1.map (.mapHole change)).flatMap TemplatePart.chars ++ later) =
      ((splitTemplate chars).1.map (.mapHole change), later) := by
  fun_induction splitTemplate chars with
  | case1 =>
      rw [ends rfl]
      simp [splitTemplate]
  | case2 c rest parts after split induction =>
      simp only [split] at induction ends
      have again := induction (fun hole member => keeps hole (List.mem_cons_of_mem _ member)) ends
      simp [splitTemplate, TemplatePart.mapHole, TemplatePart.chars, again]
  | case3 rest hole split =>
      have unclosed : (HoleState.outside 0).after (change hole) ≠ .closed := by
        rw [keeps hole (by simp)]
        rcases splitHole_cases 0 rest with ⟨whole, unclosed⟩ | ⟨_, _, found, _⟩
        · rw [split] at whole
          cases whole
          exact unclosed
        · rw [split] at found
          cases found
      rw [ends rfl]
      simp [TemplatePart.mapHole, TemplatePart.chars, splitTemplate_hole,
        splitHole_of_after unclosed]
  | case4 rest hole close behind outside parts after split induction =>
      simp only [split] at induction ends
      have again := induction (fun hole member => keeps hole (by simp [member])) ends
      rcases splitHole_cases 0 rest with ⟨whole, _⟩ | ⟨_, _, found, closes⟩
      · rw [outside] at whole
        cases whole
      · rw [outside] at found
        cases found
        rw [← keeps hole (by simp)] at closes
        simp [TemplatePart.mapHole, TemplatePart.chars, splitTemplate_hole,
          splitHole_append_of_after closes, again]
  | case5 rest =>
      simp [TemplatePart.mapHole, TemplatePart.chars, splitTemplate_cons, backquote]
  | case6 c rest escapes opens other parts after split induction =>
      -- The text behind begins as it did before, so no pattern fits that did not fit.
      have begins := @exists_front change rest later
      simp only [split] at induction ends begins
      have again := induction (fun hole member => keeps hole (by simp [member])) ends
      have whole := @splitTemplate_cons c
        ((parts.map (.mapHole change)).flatMap TemplatePart.chars ++ later)
        (fun d behind same found =>
          (begins ends found).elim fun front rest => escapes d front same rest)
        (fun behind same found =>
          (begins ends found).elim fun front rest => opens front same rest)
      rw [if_neg other, again] at whole
      exact whole

end MemberStubs.TypeText
