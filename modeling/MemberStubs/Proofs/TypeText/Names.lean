import MemberStubs.TypeText.Pieces

/-! Names in the text of a type. The characters of a name are no blanks, and none of the marks that
the scan of a text goes by. -/

namespace MemberStubs.TypeText

def IsName : List Char → Prop
  | [] => False
  | c :: rest => isNameStart c = true ∧ ∀ d ∈ rest, isNamePart d = true

instance : DecidablePred IsName
  | [] => inferInstanceAs (Decidable False)
  | c :: rest =>
      @instDecidableAnd (isNameStart c = true) (∀ d ∈ rest, isNamePart d = true) inferInstance
        (List.decidableBAll (fun d => isNamePart d = true) rest)

/-- Marks are the characters at which neither a quote nor a name begins. -/
def isMark (c : Char) : Bool :=
  !isQuote c && !isNameStart c

theorem isQuote_of_isMark {c : Char} (marks : isMark c = true) : isQuote c = false := by
  simp only [isMark, Bool.and_eq_true, Bool.not_eq_true'] at marks
  exact marks.1

theorem isNameStart_of_isMark {c : Char} (marks : isMark c = true) : isNameStart c = false := by
  simp only [isMark, Bool.and_eq_true, Bool.not_eq_true'] at marks
  exact marks.2

theorem ne_backquote_of_isMark {c : Char} (marks : isMark c = true) : c ≠ backquote := by
  rintro rfl
  exact absurd (isQuote_of_isMark marks) (by decide)

theorem isNamePart_of_isNameStart {c : Char} (starts : isNameStart c = true) :
    isNamePart c = true := by
  simp only [isNameStart, isNamePart, Text.isAlphanumeric, Bool.or_eq_true] at starts ⊢
  rcases starts with (alphabetic | underscore) | dollar
  · exact .inl (.inl (.inl alphabetic))
  · exact .inl (.inr underscore)
  · exact .inr dollar

theorem isNameStart_of_not_part {c : Char} (part : isNamePart c = false) :
    isNameStart c = false := by
  cases starts : isNameStart c with
  | false => rfl
  | true =>
      rw [isNamePart_of_isNameStart starts] at part
      cases part

namespace IsName

variable {name : List Char}

theorem ne_nil (isName : IsName name) : name ≠ [] := by
  rintro rfl
  exact isName

theorem isNamePart (isName : IsName name) : ∀ c ∈ name, isNamePart c = true := by
  cases name with
  | nil => exact isName.elim
  | cons first rest =>
      intro c member
      rcases List.mem_cons.mp member with rfl | member
      · exact isNamePart_of_isNameStart isName.1
      · exact isName.2 c member

theorem isNamePart_getLastD (isName : IsName name) {other : Char} :
    TypeText.isNamePart (name.getLastD other) = true := by
  cases name with
  | nil => exact isName.elim
  | cons first rest =>
      rw [List.getLastD_eq_getLast?, List.getLast?_eq_some_getLast isName.ne_nil]
      exact isName.isNamePart _ (List.getLast_mem _)

end IsName

/-- A name differs from a mark in every character. -/
theorem ne_of_isNamePart {c mark : Char} (part : isNamePart c = true)
    (isMark : isNamePart mark = false) : c ≠ mark := by
  rintro rfl
  rw [part] at isMark
  cases isMark

theorem isQuote_of_isNamePart {c : Char} (part : isNamePart c = true) : isQuote c = false := by
  have different : ∀ {mark : Char}, isNamePart mark = false → c ≠ mark := ne_of_isNamePart part
  simp [isQuote, different (by decide : isNamePart '\"' = false),
    different (by decide : isNamePart '\x27' = false),
    different (by decide : isNamePart backquote = false)]

/-! ## The end of a name -/

/-- No name goes on at the start of a text. -/
def EndsName (chars : List Char) : Prop :=
  ∀ c ∈ chars.head?, isNamePart c = false

theorem endsName_dropWhile (chars : List Char) : EndsName (chars.dropWhile isNamePart) := by
  intro c head
  have stopped := List.head?_dropWhile_not isNamePart chars
  rw [Option.mem_def.mp head] at stopped
  exact stopped

section

variable {name behind : List Char}

theorem takeWhile_append_of_endsName (parts : ∀ c ∈ name, isNamePart c = true)
    (ends : EndsName behind) : (name ++ behind).takeWhile isNamePart = name := by
  rw [List.takeWhile_append_of_pos parts]
  cases behind with
  | nil => simp
  | cons c rest => simp [ends c rfl]

theorem dropWhile_append_of_endsName (parts : ∀ c ∈ name, isNamePart c = true)
    (ends : EndsName behind) : (name ++ behind).dropWhile isNamePart = behind := by
  rw [List.dropWhile_append_of_pos parts]
  cases behind with
  | nil => rfl
  | cons c rest => simp [ends c rfl]

end

/-! ## Blanks -/

def blankCodes : List Nat :=
  List.range' 0x9 5 ++ [0x20, 0x85, 0xA0, 0x1680] ++ List.range' 0x2000 11 ++
    [0x2028, 0x2029, 0x202F, 0x205F, 0x3000]

theorem toNat_mem_blankCodes {c : Char} (blank : Text.isBlank c = true) :
    c.toNat ∈ blankCodes := by
  simp only [Text.isBlank, Text.blankRanges, Text.inRanges] at blank
  simp only [blankCodes, List.mem_append, List.mem_range'_1, List.mem_cons, List.not_mem_nil]
  grind

theorem isMark_of_isBlank {c : Char} (blank : Text.isBlank c = true) : isMark c = true := by
  have marks : ∀ code ∈ blankCodes, isMark (Char.ofNat code) = true := by decide +kernel
  have here := marks c.toNat (toNat_mem_blankCodes blank)
  rwa [Char.ofNat_toNat] at here

theorem isNamePart_of_isBlank {c : Char} (blank : Text.isBlank c = true) :
    isNamePart c = false := by
  have noneIsPart : ∀ code ∈ blankCodes, isNamePart (Char.ofNat code) = false := by
    decide +kernel
  have here := noneIsPart c.toNat (toNat_mem_blankCodes blank)
  rwa [Char.ofNat_toNat] at here

theorem isBlank_of_isNamePart {c : Char} (part : isNamePart c = true) :
    Text.isBlank c = false := by
  cases blank : Text.isBlank c with
  | false => rfl
  | true =>
      rw [isNamePart_of_isBlank blank] at part
      cases part

end MemberStubs.TypeText
