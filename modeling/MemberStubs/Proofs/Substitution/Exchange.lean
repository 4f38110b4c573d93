import MemberStubs.Proofs.Substitution.Spelling
import MemberStubs.Proofs.TypeText.Words

/-! The words of a text that a substitution has been applied to: those of the text, less the names
that were replaced, and those of the arguments in their places. -/

namespace MemberStubs

open TypeText

namespace Substitution

/-! ## What is exchanged in a text -/

def replacement? (substitution : Substitution) : Piece → Option String
  | .verbatim _ => none
  | .occurrence name _ => substitution.lookup? (String.ofList name)

/-- The arguments that are put into a text, in order. -/
def inserted (substitution : Substitution) (text : String) : List String :=
  (pieces text).filterMap substitution.replacement?

def wordsOut (substitution : Substitution) (piece : Piece) : List (List Char) :=
  if (substitution.replacement? piece).isSome then words piece.chars else []

def wordsIn (substitution : Substitution) (piece : Piece) : List (List Char) :=
  (substitution.replacement? piece).toList.flatMap fun argument => words argument.toList

/-- The second text has the words of the first one, but for what the pieces exchange. -/
def Exchanges (substitution : Substitution) (pieces : List Piece) (old new : List Char) : Prop :=
  (words new ++ pieces.flatMap substitution.wordsOut).Perm
    (words old ++ pieces.flatMap substitution.wordsIn)

section

variable {substitution : Substitution} {pieces : List Piece} {old new : List Char}

theorem words_replacementText (argument : String) (beforeBracket : Bool) :
    words (replacementText argument beforeBracket) = words argument.toList := by
  rw [replacementText]
  split
  · have closed : EndsName [')'] := by
      rintro _ ⟨⟩
      decide
    rw [List.cons_append, words_cons_of_not_start (by decide), words_append _ closed,
      words_cons_of_not_start (by decide), words_nil, List.append_nil]
  · rfl

namespace Exchanges

theorem nothing (substitution : Substitution) (chars : List Char) :
    substitution.Exchanges [] chars chars :=
  .refl _

@[simp] theorem verbatim_iff {chars : List Char} :
    substitution.Exchanges (.verbatim chars :: pieces) old new ↔
      substitution.Exchanges pieces old new :=
  .rfl

theorem append {later : List Piece} {oldLater newLater : List Char}
    (first : substitution.Exchanges pieces old new)
    (second : substitution.Exchanges later oldLater newLater)
    (oldEnds : EndsName oldLater) (newEnds : EndsName newLater) :
    substitution.Exchanges (pieces ++ later) (old ++ oldLater) (new ++ newLater) := by
  rw [Exchanges, words_append _ oldEnds, words_append _ newEnds, List.flatMap_append,
    List.flatMap_append, List.perm_iff_count]
  intro word
  have here := first.count_eq word
  have behind := second.count_eq word
  simp only [List.count_append] at here behind ⊢
  omega

theorem cons (exchanges : substitution.Exchanges pieces old new) {c : Char}
    (starts : isNameStart c = false) : substitution.Exchanges pieces (c :: old) (c :: new) := by
  rwa [Exchanges, words_cons_of_not_start starts, words_cons_of_not_start starts]

/-- Text that no name goes on from stays in front. -/
theorem behind (exchanges : substitution.Exchanges pieces old new) (front : List Char) {c : Char}
    (part : isNamePart c = false) :
    substitution.Exchanges pieces (front ++ c :: old) (front ++ c :: new) := by
  have ends : ∀ later, EndsName (c :: later) := by
    rintro later _ ⟨⟩
    exact part
  exact (nothing substitution front).append (exchanges.cons (isNameStart_of_not_part part))
    (ends old) (ends new)

end Exchanges

/-! ## Templates

The text of a template is taken character by character, so a name in it may go on behind a cut. It
goes on alike before and after the exchange. -/

structure Continues (substitution : Substitution) (pieces : List Piece) (old new : List Char) :
    Prop where
  sameFront : old.takeWhile isNamePart = new.takeWhile isNamePart
  exchanges : substitution.Exchanges pieces (old.dropWhile isNamePart) (new.dropWhile isNamePart)

namespace Continues

theorem whole (continues : substitution.Continues pieces old new) :
    substitution.Exchanges pieces old new := by
  have joined := (Exchanges.nothing substitution (old.takeWhile isNamePart)).append
    continues.exchanges (endsName_dropWhile old) (endsName_dropWhile new)
  rw [List.takeWhile_append_dropWhile, List.nil_append] at joined
  rwa [continues.sameFront, List.takeWhile_append_dropWhile] at joined

@[simp] theorem verbatim_iff {chars : List Char} :
    substitution.Continues (.verbatim chars :: pieces) old new ↔
      substitution.Continues pieces old new :=
  ⟨fun ⟨front, exchanges⟩ => ⟨front, exchanges⟩, fun ⟨front, exchanges⟩ => ⟨front, exchanges⟩⟩

theorem of_exchanges (exchanges : substitution.Exchanges pieces old new) {c : Char}
    (part : isNamePart c = false) : substitution.Continues pieces (c :: old) (c :: new) := by
  constructor
  · simp [part]
  · simpa [part] using exchanges.cons (isNameStart_of_not_part part)

theorem cons (continues : substitution.Continues pieces old new) (c : Char) :
    substitution.Continues pieces (c :: old) (c :: new) := by
  cases part : isNamePart c with
  | false => exact of_exchanges continues.whole part
  | true =>
      constructor
      · simp [part, continues.sameFront]
      · simpa [part] using continues.exchanges

end Continues

end

/-- What is exchanged in the holes of a template and behind it is exchanged in the whole. -/
theorem continues_template {substitution : Substitution} {chars : List Char}
    {later : List Piece} {behind : List Char}
    (holes : ∀ hole, .hole hole ∈ (splitTemplate chars).1 →
      substitution.Exchanges (piecesFrom {} hole) hole
        ((piecesFrom {} hole).flatMap substitution.pieceText))
    (exchanges : substitution.Exchanges later (splitTemplate chars).2 behind)
    (ends : (splitTemplate chars).2 = [] → behind = [] ∧ later = []) :
    substitution.Continues ((splitTemplate chars).1.flatMap TemplatePart.pieces ++ later) chars
      (((splitTemplate chars).1.flatMap TemplatePart.pieces).flatMap substitution.pieceText ++
        behind) := by
  fun_induction splitTemplate chars with
  | case1 =>
      rcases ends rfl with ⟨rfl, rfl⟩
      exact ⟨rfl, .nothing substitution []⟩
  | case2 c rest parts after split induction =>
      simp only [split] at induction ends
      have continues := induction (fun hole member => holes hole (List.mem_cons_of_mem _ member))
        exchanges ends
      simpa [TemplatePart.pieces, pieceText] using (continues.cons c).cons '\\'
  | case3 rest hole split =>
      rcases ends rfl with ⟨rfl, rfl⟩
      have joined : hole = rest := by simpa [split] using splitHole_append 0 rest
      subst joined
      have opened := Continues.of_exchanges (holes hole (by simp))
        (by decide : isNamePart '\x7b' = false)
      simpa [TemplatePart.pieces, pieceText] using opened.cons '$'
  | case4 rest hole close after outside parts later' split induction =>
      have joined := splitHole_append 0 rest
      rw [outside] at joined
      have closes : close = '\x7d' := by
        rcases splitHole_cases 0 rest with ⟨whole, _⟩ | ⟨_, _, found, _⟩
        · rw [outside] at whole
          cases whole
        · rw [outside] at found
          cases found
          rfl
      subst closes
      simp only [split] at induction ends
      have continues := induction (fun hole member => holes hole (by simp [member]))
        exchanges ends
      have shut : isNamePart '\x7d' = false := by decide
      have closed : ∀ rest, EndsName ('\x7d' :: rest) := by
        rintro rest _ ⟨⟩
        exact shut
      have behindHole := (@Exchanges.verbatim_iff _ _ _ _ ['\x7d']).mpr
        (continues.whole.cons (isNameStart_of_not_part shut))
      have inside := (holes hole (by simp)).append behindHole (closed _) (closed _)
      rw [joined] at inside
      have opened := Continues.of_exchanges inside (by decide : isNamePart '\x7b' = false)
      simpa [TemplatePart.pieces, pieceText] using opened.cons '$'
  | case5 rest =>
      have closed := Continues.of_exchanges exchanges (by decide : isNamePart backquote = false)
      simpa [TemplatePart.pieces, pieceText] using closed
  | case6 c rest _ _ other parts after split induction =>
      simp only [split] at induction ends
      have continues := induction (fun hole member => holes hole (by simp [member]))
        exchanges ends
      simpa [TemplatePart.pieces, pieceText] using continues.cons c

theorem splitQuoted_ends (quote : Char) (chars : List Char) :
    (splitQuoted quote chars).2 = [] ∨
      ∃ front, (splitQuoted quote chars).1 = front ++ [quote] := by
  fun_induction splitQuoted quote chars with
  | case1 => exact .inl rfl
  | case2 c rest inner after split induction =>
      simp only [split] at induction
      rcases induction with ends | ⟨front, rfl⟩
      · exact .inl ends
      · exact .inr ⟨'\\' :: c :: front, rfl⟩
  | case3 => exact .inl rfl
  | case4 => exact .inr ⟨[], rfl⟩
  | case5 c rest _ _ _ inner after split induction =>
      simp only [split] at induction
      rcases induction with ends | ⟨front, rfl⟩
      · exact .inl ends
      · exact .inr ⟨c :: front, rfl⟩

/-- A name that is replaced leaves the words of its argument behind. -/
theorem exchanges_piece (substitution : Substitution) {piece : Piece}
    (isName : IsName piece.chars) :
    substitution.Exchanges [piece] piece.chars (substitution.pieceText piece) := by
  cases piece with
  | verbatim chars => exact Exchanges.verbatim_iff.mpr (.nothing substitution chars)
  | occurrence name beforeBracket =>
      rw [Exchanges, List.flatMap_singleton, List.flatMap_singleton, wordsOut, wordsIn, replacement?]
      cases bound : substitution.lookup? (String.ofList name) with
      | none => simp [pieceText_of_unbound bound, Piece.chars]
      | some argument =>
          simp only [pieceText, bound, words_replacementText]
          simpa using List.perm_append_comm

theorem exchanges_piecesFrom (substitution : Substitution) (context : Context)
    (chars : List Char) :
    substitution.Exchanges (piecesFrom context chars) chars
      ((piecesFrom context chars).flatMap substitution.pieceText) := by
  induction context, chars using scan_induction with
  | nil context =>
      rw [piecesFrom_nil]
      exact .nothing substitution []
  | template context rest holes induction =>
      rw [piecesFrom_template]
      have continues := continues_template holes induction (by rintro ends; rw [ends]; simp)
      simpa [pieceText] using continues.whole.cons (by decide : isNameStart backquote = false)
  | quoted context quote rest quotes plain induction =>
      have joined := splitQuoted_append quote rest
      have part : isNamePart quote = false := by
        cases part : isNamePart quote with
        | false => rfl
        | true =>
            rw [isQuote_of_isNamePart part] at quotes
            cases quotes
      have start := isNameStart_of_not_part part
      rw [piecesFrom_quoted context quotes plain]
      rcases splitQuoted_ends quote rest with ends | ⟨front, closed⟩
      · rw [ends, List.append_nil] at joined
        rw [ends, piecesFrom_nil, joined]
        simpa [pieceText] using Exchanges.nothing substitution (quote :: rest)
      · rw [closed] at joined ⊢
        have whole := (induction.behind front part).cons start
        rw [List.append_cons, joined] at whole
        simpa [pieceText] using whole
  | name context name behind isName ends induction =>
      rw [piecesFrom_name context isName ends]
      have here := @exchanges_piece substitution (namePiece context name behind)
        (by rwa [chars_namePiece])
      rw [chars_namePiece] at here
      simpa using here.append induction ends (substitution.endsName_flatMap_pieceText ends _)
  | mark context mark rest marks induction =>
      rw [piecesFrom_mark context marks]
      simpa [pieceText] using induction.cons (isNameStart_of_isMark marks)

/-- What is exchanged between a text and the text that a substitution makes of it. -/
theorem exchanges_apply (substitution : Substitution) (text : String) :
    substitution.Exchanges (pieces text) text.toList (substitution.apply text).toList := by
  rw [toList_apply]
  exact substitution.exchanges_piecesFrom {} text.toList

theorem flatMap_wordsIn (substitution : Substitution) (text : String) :
    (pieces text).flatMap substitution.wordsIn =
      (substitution.inserted text).flatMap fun argument => words argument.toList := by
  rw [inserted, List.filterMap_eq_flatMap_toList, List.flatMap_assoc]
  rfl

/-- Every word of an instantiated text was in the text or is in an argument. -/
theorem mem_words_apply {substitution : Substitution} {text : String} {word : List Char}
    (member : word ∈ words (substitution.apply text).toList) :
    word ∈ words text.toList ∨
      ∃ argument ∈ substitution.inserted text, word ∈ words argument.toList := by
  have exchanged := (substitution.exchanges_apply text).mem_iff.mp
    (List.mem_append_left _ member)
  rwa [List.mem_append, flatMap_wordsIn, List.mem_flatMap] at exchanged

theorem exists_lookup?_of_inserted {substitution : Substitution} {text argument : String}
    (member : argument ∈ substitution.inserted text) :
    ∃ name, substitution.lookup? name = some argument := by
  rcases List.mem_filterMap.mp member with ⟨piece, _, replaced⟩
  cases piece with
  | verbatim chars => cases replaced
  | occurrence name beforeBracket => exact ⟨_, replaced⟩

/-! ## Bindings -/

/-- What the parameters of a declaration are bound to: the arguments, and defaults for those that
are missing. -/
def boundTexts : List TypeParameter → List String → List String
  | [], _ => []
  | _ :: parameters, argument :: arguments => argument :: boundTexts parameters arguments
  | parameter :: parameters, [] => parameter.fallback.toList ++ boundTexts parameters []

theorem lookup?_insert {substitution : Substitution} {name argument other replacement : String}
    (bound : (substitution.insert name argument).lookup? other = some replacement) :
    replacement = argument ∨ substitution.lookup? other = some replacement := by
  rw [lookup?, insert, List.lookup_cons] at bound
  split at bound
  · exact .inl (Option.some.inj bound).symm
  · exact .inr bound

/-- A property of all words of the texts that are bound is one of all words of the arguments, also
of those that come from a default in which others were put. -/
theorem words_bindFrom {good : List Char → Prop} {substitution : Substitution}
    {parameters : List TypeParameter} {arguments : List String}
    (before : ∀ name argument, substitution.lookup? name = some argument →
      ∀ word ∈ words argument.toList, good word)
    (texts : ∀ text ∈ boundTexts parameters arguments, ∀ word ∈ words text.toList, good word) :
    ∀ name argument, (substitution.bindFrom parameters arguments).lookup? name = some argument →
      ∀ word ∈ words argument.toList, good word := by
  induction parameters generalizing substitution arguments with
  | nil => exact before
  | cons parameter parameters induction =>
      cases arguments with
      | cons supplied arguments =>
          refine induction (fun name argument bound word member => ?_) fun text member =>
            texts text (List.mem_cons_of_mem _ member)
          rcases lookup?_insert bound with rfl | bound
          · rw [Text.trimmed, String.toList_ofList, words_trim] at member
            exact texts supplied (List.mem_cons_self ..) word member
          · exact before name argument bound word member
      | nil =>
          have others : ∀ text ∈ boundTexts parameters [], ∀ word ∈ words text.toList, good word :=
            fun text member => texts text (List.mem_append_right _ member)
          refine induction (fun name argument bound word member => ?_) others
          cases isDefault : parameter.fallback with
          | none =>
              simp only [List.head?_nil, bindOne, isDefault] at bound
              exact before name argument bound word member
          | some fallback =>
              simp only [List.head?_nil, bindOne, isDefault] at bound
              rcases lookup?_insert bound with rfl | bound
              · rcases mem_words_apply member with inText | ⟨inner, put, inArgument⟩
                · exact texts fallback (by simp [boundTexts, isDefault]) word inText
                · rcases exists_lookup?_of_inserted put with ⟨name, bound⟩
                  exact before name inner bound word inArgument
              · exact before name argument bound word member

theorem words_bind {good : List Char → Prop} {parameters : List TypeParameter}
    {arguments : List String}
    (texts : ∀ text ∈ boundTexts parameters arguments, ∀ word ∈ words text.toList, good word)
    {name argument : String} (bound : (bind parameters arguments).lookup? name = some argument) :
    ∀ word ∈ words argument.toList, good word :=
  words_bindFrom nofun texts name argument bound

end Substitution

end MemberStubs
