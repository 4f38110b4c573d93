import Mathlib.Data.Bool.AllAny
import MemberStubs.Proofs.TypeText.Rescan
import MemberStubs.Proofs.TypeText.Scan

/-! A text whose occurrences are given other names is cut into the same pieces as before, with the
other names in them. So nothing that a scan decides depends on how an occurrence is spelled. -/

namespace MemberStubs.TypeText

namespace Context

theorem isKeyPosition_iff {context : Context} :
    context.isKeyPosition = true ↔ context.brackets.head? = some '\x7b' ∧
      (context.previous = some '\x7b' ∨ context.previous = some ',' ∨
        context.previous = some ';') := by
  simp [isKeyPosition]

/-- The characters that make a difference to what comes behind them. -/
def signals : List Char := ['.', '\x7b', ',', ';', '=']

/-- The scan goes on alike behind two contexts. -/
structure Alike (first second : Context) : Prop where
  brackets : first.brackets = second.brackets
  previous : ∀ c ∈ signals, first.previous = some c ↔ second.previous = some c

namespace Alike

variable {first second : Context}

theorem refl (context : Context) : context.Alike context :=
  ⟨rfl, fun _ _ => .rfl⟩

theorem isQualified_eq (alike : first.Alike second) : first.isQualified = second.isQualified := by
  simp only [isQualified, alike.previous '.' (by decide)]

theorem isKeyPosition_eq (alike : first.Alike second) :
    first.isKeyPosition = second.isKeyPosition := by
  rw [Bool.eq_iff_iff, isKeyPosition_iff, isKeyPosition_iff, alike.brackets,
    alike.previous '\x7b' (by decide), alike.previous ',' (by decide),
    alike.previous ';' (by decide)]

theorem after (alike : first.Alike second) (c : Char) : (first.after c).Alike (second.after c) :=
  ⟨alike.brackets, fun _ _ => .rfl⟩

theorem afterName (alike : first.Alike second) {name other : List Char} (isName : IsName name)
    (isOther : IsName other) :
    (first.after (name.getLastD '_')).Alike (second.after (other.getLastD '_')) := by
  refine ⟨alike.brackets, fun c signal => ?_⟩
  have notPart : isNamePart c = false := by
    have none : ∀ c ∈ signals, isNamePart c = false :=
      List.all_iff_forall_prop.mp (by decide)
    exact none c signal
  have apart : ∀ {name : List Char}, IsName name → some (name.getLastD '_') ≠ some c := by
    intro name isName same
    exact ne_of_isNamePart (isName.isNamePart_getLastD) notPart (Option.some.inj same)
  exact ⟨fun same => absurd same (apart isName), fun same => absurd same (apart isOther)⟩

theorem afterMark (alike : first.Alike second) (c : Char) :
    (first.afterMark c).Alike (second.afterMark c) := by
  have equals := alike.previous '=' (by decide)
  refine ⟨?_, fun signal member => ?_⟩
  · simp only [Context.afterMark, alike.brackets, equals]
  · simp only [Context.afterMark]
    split
    · exact alike.previous signal member
    · exact .rfl

end Alike

end Context

/-! ## Other names -/

section

variable (spell : List Char → List Char)

def Piece.rename : Piece → Piece
  | .verbatim chars => .verbatim chars
  | .occurrence name beforeBracket => .occurrence (spell name) beforeBracket

/-- A text with other names in the place of its occurrences. -/
def renamed (context : Context) (chars : List Char) : List Char :=
  ((piecesFrom context chars).map (Piece.rename spell)).flatMap Piece.chars

@[simp] theorem renamed_nil (context : Context) : renamed spell context [] = [] := by
  simp [renamed]

theorem renamed_template (context : Context) (rest : List Char) :
    renamed spell context (backquote :: rest) =
      backquote ::
        (((splitTemplate rest).1.map (.mapHole (renamed spell {}))).flatMap TemplatePart.chars ++
          renamed spell (context.after backquote) (splitTemplate rest).2) := by
  rw [renamed, piecesFrom_template, List.map_cons, List.map_append, List.flatMap_cons,
    List.flatMap_append, ← renamed, List.map_flatMap, List.flatMap_assoc, List.flatMap_map]
  have inside : ∀ part : TemplatePart,
      (part.pieces.map (Piece.rename spell)).flatMap Piece.chars =
        (part.mapHole (renamed spell {})).chars := by
    intro part
    cases part with
    | text chars => simp [TemplatePart.pieces, Piece.rename, Piece.chars, TemplatePart.mapHole,
        TemplatePart.chars]
    | hole chars => rfl
  simp only [inside]
  rfl

theorem renamed_quoted (context : Context) {quote : Char} (quotes : isQuote quote = true)
    (plain : quote ≠ backquote) (rest : List Char) :
    renamed spell context (quote :: rest) =
      quote :: ((splitQuoted quote rest).1 ++
        renamed spell (context.after quote) (splitQuoted quote rest).2) := by
  rw [renamed, piecesFrom_quoted context quotes plain, List.map_cons, List.flatMap_cons, ← renamed]
  rfl

theorem renamed_name (context : Context) {name behind : List Char} (isName : IsName name)
    (ends : EndsName behind) :
    renamed spell context (name ++ behind) =
      ((namePiece context name behind).rename spell).chars ++
        renamed spell (context.after (name.getLastD '_')) behind := by
  rw [renamed, piecesFrom_name context isName ends, List.map_cons, List.flatMap_cons, ← renamed]

theorem renamed_mark (context : Context) {mark : Char} (marks : isMark mark = true)
    (rest : List Char) :
    renamed spell context (mark :: rest) =
      mark :: renamed spell (context.afterMark mark) rest := by
  rw [renamed, piecesFrom_mark context marks, List.map_cons, List.flatMap_cons, ← renamed]
  rfl

end

/-! ## What comes next -/

theorem startsAscription_iff {chars : List Char} :
    startsAscription chars = true ↔ Text.nextVisible? chars = some ':' ∨
      ∃ rest, Text.trimStart chars = '?' :: rest ∧ Text.nextVisible? rest = some ':' := by
  rw [startsAscription, Text.nextVisible?]
  split
  · next rest begins => simp [begins]
  · next rest begins => simp [begins]
  · next noColon noQuestion =>
      cases begins : Text.trimStart chars with
      | nil => simp
      | cons c rest =>
          have notColon : c ≠ ':' := fun same => noColon rest (same ▸ begins)
          have notQuestion : c ≠ '?' := fun same => noQuestion rest (same ▸ begins)
          simp [notColon, notQuestion]

section

variable {spell : List Char → List Char}
  (keeps : ∀ name, IsName name → IsName (spell name))

include keeps

theorem isName_rename_namePiece {name : List Char} (isName : IsName name) (context : Context)
    (behind : List Char) : IsName ((namePiece context name behind).rename spell).chars := by
  rw [namePiece]
  split
  · exact isName
  · exact keeps name isName

/-- A name takes the place of a name, and all else begins as before. -/
theorem renamed_cons_cases (context : Context) (c : Char) (rest : List Char) :
    isMark c = true ∧
        renamed spell context (c :: rest) = c :: renamed spell (context.afterMark c) rest ∨
      isQuote c = true ∧ (∃ later, renamed spell context (c :: rest) = c :: later) ∨
      isNameStart c = true ∧
        ∃ d later, isNameStart d = true ∧ renamed spell context (c :: rest) = d :: later := by
  by_cases quotes : isQuote c = true
  · right; left
    refine ⟨quotes, ?_⟩
    by_cases template : c = backquote
    · subst template
      exact ⟨_, renamed_template ..⟩
    · exact ⟨_, renamed_quoted _ _ quotes template _⟩
  · by_cases starts : isNameStart c = true
    · right; right
      refine ⟨starts, ?_⟩
      have split := List.takeWhile_append_dropWhile (p := isNamePart) (l := rest)
      have isName : IsName (c :: rest.takeWhile isNamePart) :=
        ⟨starts, fun _ => List.mem_takeWhile_imp⟩
      have whole := renamed_name spell context isName (endsName_dropWhile rest)
      rw [List.cons_append, split] at whole
      have isOther := isName_rename_namePiece keeps isName context (rest.dropWhile isNamePart)
      cases other : ((namePiece context (c :: rest.takeWhile isNamePart)
          (rest.dropWhile isNamePart)).rename spell).chars with
      | nil =>
          rw [other] at isOther
          exact isOther.elim
      | cons d later =>
          rw [other] at isOther whole
          exact ⟨d, _, isOther.1, whole⟩
    · have marks : isMark c = true := by simp [isMark, quotes, starts]
      exact .inl ⟨marks, renamed_mark _ _ marks _⟩

theorem endsName_renamed {context : Context} {chars : List Char} (ends : EndsName chars) :
    EndsName (renamed spell context chars) := by
  cases chars with
  | nil => simp [EndsName]
  | cons c rest =>
      have notPart := ends c rfl
      rcases renamed_cons_cases keeps context c rest with
        ⟨_, same⟩ | ⟨_, later, same⟩ | ⟨starts, _⟩
      · rwa [same]
      · rwa [same]
      · rw [isNamePart_of_isNameStart starts] at notPart
        cases notPart

/-- Blanks are passed, and what is visible first stays so. -/
theorem exists_trimStart_renamed (context : Context) (chars : List Char) :
    ∃ behind, Text.trimStart (renamed spell context chars) =
      renamed spell behind (Text.trimStart chars) := by
  induction chars generalizing context with
  | nil => exact ⟨context, by simp [Text.trimStart]⟩
  | cons c rest induction =>
      by_cases blank : Text.isBlank c = true
      · rcases induction (context.afterMark c) with ⟨behind, same⟩
        refine ⟨behind, ?_⟩
        rw [renamed_mark spell context (isMark_of_isBlank blank)]
        simpa [Text.trimStart, blank] using same
      · refine ⟨context, ?_⟩
        have stays : ∀ d later, Text.isBlank d = false →
            renamed spell context (c :: rest) = d :: later →
            Text.trimStart (renamed spell context (c :: rest)) =
              renamed spell context (Text.trimStart (c :: rest)) := by
          intro d later visible same
          simp only [Text.trimStart, List.dropWhile_cons, blank, same, visible]
          simp [same]
        rcases renamed_cons_cases keeps context c rest with
          ⟨_, same⟩ | ⟨_, later, same⟩ | ⟨_, d, later, starts, same⟩
        · exact stays c _ (by simpa using blank) same
        · exact stays c _ (by simpa using blank) same
        · exact stays d _ (isBlank_of_isNamePart (isNamePart_of_isNameStart starts)) same

/-- A mark that comes next comes next again, and there is none where there was none. -/
theorem nextVisible?_renamed {mark : Char} (marks : isMark mark = true) (context : Context)
    (chars : List Char) :
    Text.nextVisible? (renamed spell context chars) = some mark ↔
      Text.nextVisible? chars = some mark := by
  rcases exists_trimStart_renamed keeps context chars with ⟨behind, same⟩
  rw [Text.nextVisible?, Text.nextVisible?, same]
  cases Text.trimStart chars with
  | nil => simp
  | cons c rest =>
      rcases renamed_cons_cases keeps behind c rest with
        ⟨_, same⟩ | ⟨_, later, same⟩ | ⟨starts, d, later, others, same⟩
      · rw [same]; rfl
      · rw [same]; rfl
      · have apart : ∀ {e : Char}, isNameStart e = true → e ≠ mark := by
          rintro e begins rfl
          simp [isMark, begins] at marks
        simp [same, apart starts, apart others]

theorem startsAscription_renamed (context : Context) (chars : List Char) :
    startsAscription (renamed spell context chars) = startsAscription chars := by
  rw [Bool.eq_iff_iff, startsAscription_iff, startsAscription_iff,
    nextVisible?_renamed keeps (by decide)]
  refine or_congr_right ?_
  rcases exists_trimStart_renamed keeps context chars with ⟨behind, same⟩
  rw [same]
  cases Text.trimStart chars with
  | nil => simp
  | cons c rest =>
      rcases renamed_cons_cases keeps behind c rest with
        ⟨_, same⟩ | ⟨quotes, later, same⟩ | ⟨starts, d, later, others, same⟩
      · rw [same]
        constructor
        · rintro ⟨_, question, colon⟩
          cases question
          exact ⟨rest, rfl, (nextVisible?_renamed keeps (by decide) _ _).mp colon⟩
        · rintro ⟨_, question, colon⟩
          cases question
          exact ⟨_, rfl, (nextVisible?_renamed keeps (by decide) _ _).mpr colon⟩
      · rw [same]
        constructor
        all_goals
          rintro ⟨_, question, _⟩
          cases question
          exact absurd quotes (by decide)
      · rw [same]
        constructor
        · rintro ⟨_, question, _⟩
          cases question
          exact absurd others (by decide)
        · rintro ⟨_, question, _⟩
          cases question
          exact absurd starts (by decide)

end

/-! ## The pieces of a renamed text -/

section

variable {spell : List Char → List Char}
  (keeps : ∀ name, IsName name → IsName (spell name))

include keeps

theorem after_renamed (context : Context) (chars : List Char) (state : HoleState) :
    state.after (renamed spell context chars) = state.after chars := by
  have names : ∀ name beforeBracket, .occurrence name beforeBracket ∈ piecesFrom context chars →
      IsName name := fun _ _ => isName_of_mem_piecesFrom
  conv_rhs => rw [← chars_piecesFrom context chars]
  rw [renamed]
  generalize piecesFrom context chars = pieces at names
  induction pieces generalizing state with
  | nil => rfl
  | cons piece pieces induction =>
      have here : state.after (piece.rename spell).chars = state.after piece.chars := by
        cases piece with
        | verbatim chars => rfl
        | occurrence name beforeBracket =>
            have isName := names name beforeBracket (List.mem_cons_self ..)
            rw [Piece.rename, Piece.chars, Piece.chars, after_of_isName (keeps name isName),
              after_of_isName isName]
      rw [List.map_cons, List.flatMap_cons, List.flatMap_cons, HoleState.after_append,
        HoleState.after_append, here]
      exact induction _ fun name beforeBracket member =>
        names name beforeBracket (List.mem_cons_of_mem _ member)

theorem namePiece_renamed {first second : Context} (alike : first.Alike second)
    (name behind : List Char) (context : Context) :
    namePiece second ((namePiece first name behind).rename spell).chars
        (renamed spell context behind) =
      (namePiece first name behind).rename spell := by
  have bracket := nextVisible?_renamed keeps (by decide : isMark '[' = true) context behind
  rw [namePiece, startsAscription_renamed keeps, ← alike.isQualified_eq, ← alike.isKeyPosition_eq,
    namePiece]
  split
  · rfl
  · simp only [Piece.rename, Piece.chars, bracket]

/-- Renaming leaves the pieces of a text where they are. -/
theorem piecesFrom_renamed {first second : Context} (alike : first.Alike second)
    (chars : List Char) :
    piecesFrom second (renamed spell first chars) =
      (piecesFrom first chars).map (Piece.rename spell) := by
  induction first, chars using scan_induction generalizing second with
  | nil => simp
  | template context rest holes induction =>
      have again := @splitTemplate_again (renamed spell {}) rest
        (renamed spell (context.after backquote) (splitTemplate rest).2)
        (fun hole _ state => after_renamed keeps {} hole state)
        (fun ends => by rw [ends, renamed_nil])
      have inside : ((splitTemplate rest).1.map (.mapHole (renamed spell {}))).flatMap
          TemplatePart.pieces =
            ((splitTemplate rest).1.flatMap TemplatePart.pieces).map (Piece.rename spell) := by
        rw [List.flatMap_map, List.map_flatMap]
        refine List.flatMap_congr fun part member => ?_
        cases part with
        | text chars => rfl
        | hole chars => exact holes chars member (.refl {})
      rw [renamed_template, piecesFrom_template, again, inside, induction (alike.after backquote),
        piecesFrom_template, List.map_cons, List.map_append]
      rfl
  | quoted context quote rest quotes plain induction =>
      have again := @splitQuoted_again quote rest
        (renamed spell (context.after quote) (splitQuoted quote rest).2)
        (fun ends => by rw [ends, renamed_nil])
      rw [renamed_quoted spell context quotes plain, piecesFrom_quoted second quotes plain, again,
        induction (alike.after quote), piecesFrom_quoted context quotes plain, List.map_cons]
      rfl
  | name context name behind isName ends induction =>
      have isOther := isName_rename_namePiece keeps isName context behind
      rw [renamed_name spell context isName ends,
        piecesFrom_name second isOther (endsName_renamed keeps ends),
        induction (alike.afterName isName isOther), namePiece_renamed keeps alike,
        piecesFrom_name context isName ends, List.map_cons]
  | mark context mark rest marks induction =>
      rw [renamed_mark spell context marks, piecesFrom_mark second marks,
        induction (alike.afterMark mark), piecesFrom_mark context marks, List.map_cons]
      rfl

end

theorem piecesFrom_eq_of_alike {first second : Context} (alike : first.Alike second)
    (chars : List Char) : piecesFrom second chars = piecesFrom first chars := by
  have same := @piecesFrom_renamed id (fun _ isName => isName) _ _ alike chars
  have unchanged : Piece.rename id = id := by
    funext piece
    cases piece <;> rfl
  rwa [renamed, unchanged, List.map_id, chars_piecesFrom] at same

end MemberStubs.TypeText
