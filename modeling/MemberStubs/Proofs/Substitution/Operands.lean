import MemberStubs.Proofs.Substitution.Spelling
import MemberStubs.Proofs.TypeGrammar.Leaves
import MemberStubs.Proofs.TypeGrammar.Parentheses
import MemberStubs.Proofs.TypeGrammar.Reader

/-! Type arguments under the operators of a text. The text that a substitution makes means what the
tree with its leaves replaced means, exactly when every argument binds tight enough for its place or
gets parentheses there. -/

namespace MemberStubs

namespace TypeText

/-- A place where every name is an occurrence. -/
structure Context.IsPlain (context : Context) : Prop where
  unqualified : context.previous ≠ some '.'
  noObject : '\x7b' ∉ context.brackets

namespace Context.IsPlain

variable {context : Context}

theorem namePiece_eq (plain : context.IsPlain) (name behind : List Char) :
    namePiece context name behind = .occurrence name (Text.nextVisible? behind = some '[') := by
  have unqualified : context.isQualified = false := by
    simpa [isQualified] using plain.unqualified
  have noKey : context.isKeyPosition = false := by
    rw [isKeyPosition, Bool.and_eq_false_imp, decide_eq_true_iff]
    intro inObject
    exact absurd (List.mem_of_mem_head? inObject) plain.noObject
  rw [namePiece, unqualified, noKey]
  rfl

theorem afterName (plain : context.IsPlain) {name : List Char} (isName : IsName name) :
    (context.after (name.getLastD '_')).IsPlain := by
  refine ⟨?_, plain.noObject⟩
  intro dot
  exact ne_of_isNamePart isName.isNamePart_getLastD (by decide) (Option.some.inj dot)

theorem afterMark (plain : context.IsPlain) {c : Char} (noDot : c ≠ '.') (noBrace : c ≠ '\x7b') :
    (context.afterMark c).IsPlain := by
  constructor
  · rw [Context.afterMark]
    dsimp only
    split
    · exact plain.unqualified
    · simpa using noDot
  · rw [Context.afterMark]
    dsimp only
    split
    · simpa [noBrace.symm] using plain.noObject
    · split
      · exact plain.noObject
      · split
        · exact fun member => plain.noObject (List.mem_of_mem_tail member)
        · exact plain.noObject

end Context.IsPlain

end TypeText

namespace Substitution

open TypeText TypeGrammar

/-- What the names of a text stand for. No binding has a keyword for its name. -/
structure Reads (substitution : Substitution) (argument : List Char → Form) : Prop where
  unbound : ∀ {name : List Char}, substitution.lookup? (String.ofList name) = none →
    argument name = .name name
  bound : ∀ {name : List Char} {text : String},
    substitution.lookup? (String.ofList name) = some text → Parses text (argument name)
  keywords : ∀ keyword ∈ ["keyof", "extends"], substitution.lookup? keyword = none

theorem lexes_replacementText {text : String} {form : Form} (parses : Parses text form)
    (beforeBracket : Bool) :
    Lexes (replacementText text beforeBracket) (form.shield beforeBracket).tokens := by
  have inside := lexes_of_lex parses.2
  rw [replacementText, parses.needsParentheses_eq, Form.shield]
  split
  · have closed : Lexes [')'] [.mark ')'] := .symbol rfl .nil
    exact .symbol rfl (inside.append (by rintro _ ⟨⟩; decide) closed)
  · exact inside

namespace Reads

variable {substitution : Substitution} {argument : List Char → Form}

theorem wellFormed (reads : substitution.Reads argument) (name : List Char) :
    (argument name).WellFormed := by
  cases bound : substitution.lookup? (String.ofList name) with
  | none =>
      rw [reads.unbound bound]
      trivial
  | some text => exact (reads.bound bound).1

/-- A name that stands for itself, shielded or not. -/
theorem insert_word_of_unbound (reads : substitution.Reads argument) {name : List Char}
    (unbound : substitution.lookup? (String.ofList name) = none) (beforeBracket : Bool) :
    (word name).insert argument beforeBracket = [word name] := by
  have strong : (Form.name name).isWeak = false := rfl
  rw [word]
  split
  · rfl
  · split
    · rfl
    · simp [Token.insert, reads.unbound unbound, Form.shield, strong, Form.tokens]

theorem word_of_bound (reads : substitution.Reads argument) {name : List Char} {text : String}
    (bound : substitution.lookup? (String.ofList name) = some text) : word name = .name name := by
  have noKeyword : ∀ keyword ∈ ["keyof", "extends"], name ≠ keyword.toList := by
    rintro keyword member rfl
    rw [String.ofList_toList, reads.keywords keyword member] at bound
    cases bound
  rw [word, if_neg (noKeyword "keyof" (by decide)), if_neg (noKeyword "extends" (by decide))]

theorem lexes_occurrence (reads : substitution.Reads argument) {name : List Char}
    (isName : IsName name) (beforeBracket : Bool) :
    Lexes (substitution.pieceText (.occurrence name beforeBracket))
      ((word name).insert argument beforeBracket) := by
  cases bound : substitution.lookup? (String.ofList name) with
  | none =>
      have itself : Lexes (name ++ []) [word name] := .name isName nofun .nil
      rw [List.append_nil] at itself
      rwa [pieceText_of_unbound bound, reads.insert_word_of_unbound bound]
  | some text =>
      rw [reads.word_of_bound bound, pieceText, bound]
      exact lexes_replacementText (reads.bound bound) beforeBracket

theorem lexes_pieces (reads : substitution.Reads argument) {chars : List Char}
    {tokens : List Token} (lexes : Lexes chars tokens) {context : Context}
    (plain : context.IsPlain) :
    Lexes ((piecesFrom context chars).flatMap substitution.pieceText)
      (insertTokens argument tokens) := by
  induction lexes generalizing context with
  | nil =>
      rw [piecesFrom_nil]
      exact .nil
  | @blank c rest tokens isBlank _ induction =>
      have apart : ∀ {mark : Char}, Text.isBlank mark = false → c ≠ mark := by
        rintro mark visible rfl
        rw [isBlank] at visible
        cases visible
      rw [piecesFrom_mark context (isMark_of_isBlank isBlank)]
      exact .blank isBlank (induction (plain.afterMark (apart (by decide)) (apart (by decide))))
  | @name name behind tokens isName ends later induction =>
      have flag : decide (Text.nextVisible? behind = some '[') =
          decide (tokens.head? = some (.mark '[')) :=
        decide_eq_decide.mpr later.nextVisible?_eq_bracket
      rw [piecesFrom_name context isName ends, plain.namePiece_eq, List.flatMap_cons, insertTokens,
        flag]
      exact (reads.lexes_occurrence isName _).append
        (substitution.endsName_flatMap_pieceText ends _) (induction (plain.afterName isName))
  | arrow _ induction =>
      have behindEquals := plain.afterMark (c := '=') (by decide) (by decide)
      rw [piecesFrom_mark context (by decide), piecesFrom_mark _ (by decide)]
      exact .arrow (induction (behindEquals.afterMark (by decide) (by decide)))
  | symbol symbol _ induction =>
      rcases symbol?_plain symbol with ⟨marks, _, _, _, noDot, noBrace⟩
      rw [piecesFrom_mark context marks, insertTokens, Token.insert_symbol symbol]
      exact .symbol symbol (induction (plain.afterMark noDot noBrace))

theorem lex_apply (reads : substitution.Reads argument) {text : String} {form : Form}
    (parses : Parses text form) (fixed : ∀ head ∈ form.heads, argument head = .name head) :
    lex (substitution.apply text).toList = some (form.insert argument false).tokens := by
  have inserted := form.insertTokens_tokens parses.1 fixed [] nofun
  rw [List.append_nil] at inserted
  have plain : Context.IsPlain {} := ⟨nofun, nofun⟩
  have lexes := reads.lexes_pieces (lexes_of_lex parses.2) plain
  rw [inserted, ← pieces, ← toList_apply] at lexes
  rw [lexes.lex_eq]
  simp [insertTokens]

end Reads

/-- A substitution means what it says if every argument binds as tight as its place needs, or is put
in parentheses there. Otherwise the text groups in another way, or not at all. -/
theorem apply_means_iff {substitution : Substitution} {argument : List Char → Form}
    (reads : substitution.Reads argument) {text : String} {form : Form}
    (parses : Parses text form) (fixed : ∀ head ∈ form.heads, argument head = .name head) :
    Means (substitution.apply text) (form.replace argument).plain ↔
      ∀ leaf ∈ form.leaves 0 false, leaf.Fits (argument leaf.name) := by
  have tokens := reads.lex_apply parses fixed
  have groups := form.wellFormed_insert reads.wellFormed parses.1 (Nat.zero_le _) false
  rw [← groups, ← form.plain_insert argument false]
  constructor
  · -- Any parse has the tokens and the meaning of the form that was inserted, and so its grouping.
    rintro ⟨⟨other, otherForm, otherTokens⟩, every⟩
    have means := every other ⟨otherForm, otherTokens⟩
    have same := Option.some.inj (otherTokens.symm.trans tokens)
    exact ⟨Form.wellFormed_of_plain otherForm means.symm same.symm, Nat.zero_le _⟩
  · rintro ⟨wellFormed, _⟩
    refine ⟨⟨_, wellFormed, tokens⟩, ?_⟩
    rintro other ⟨otherForm, otherTokens⟩
    exact Form.plain_eq_of_tokens otherForm wellFormed
      (Option.some.inj (otherTokens.symm.trans tokens))

/-! A union where it is shielded, and where it is torn apart. -/

namespace UnionArgument

def union : Substitution :=
  ⟨[("U", "A | B")]⟩

def either : Form :=
  .chain .union (.name ['A']) (.name ['B'])

def named (name : List Char) : Form :=
  if name = ['U'] then either else .name name

theorem parses_either : Parses "A | B" either :=
  ⟨by simp [either, Form.WellFormed, Form.rank, Operator.rank], by decide +kernel⟩

theorem reads_union : union.Reads named where
  unbound := by
    intro name unbound
    rw [named, if_neg]
    rintro rfl
    exact absurd unbound (by decide)
  bound := by
    intro name text bound
    rcases Prod.mk.inj (List.mem_singleton.mp (mem_of_lookup? bound)) with ⟨sameName, rfl⟩
    have isU : name = ['U'] := by
      rw [← String.toList_ofList (l := name), sameName]
      rfl
    rw [named, if_pos isU]
    exact parses_either
  keywords := by decide

def elements : Form :=
  .generic "Map".toList
    (.cons .argument (.name ['U']) (.cons .argument (.array (.name ['U'])) .nil))

theorem parses_elements : Parses "Map<U, U[]>" elements :=
  ⟨by simp [elements, Form.WellFormed, Forms.WellFormed, Form.rank], by decide +kernel⟩

theorem named_heads : ∀ head ∈ elements.heads, named head = .name head := by
  simp [elements, Form.heads, Forms.heads, Label.heads, named]

theorem apply_elements : union.apply "Map<U, U[]>" = "Map<A | B, (A | B)[]>" ∧
    Means (union.apply "Map<U, U[]>") (elements.replace named).plain :=
  ⟨by decide +kernel,
    (apply_means_iff reads_union parses_elements named_heads).mpr (by decide)⟩

/-- `keyof` and `&` bind tighter than the union that they get for an operand. -/
theorem tears_union_apart :
    (Parses "keyof U" (.keyof (.name ['U'])) ∧ union.apply "keyof U" = "keyof A | B" ∧
      ¬Means (union.apply "keyof U") ((Form.keyof (.name ['U'])).replace named).plain) ∧
    Parses "U & X" (.chain .intersection (.name ['U']) (.name ['X'])) ∧
      union.apply "U & X" = "A | B & X" ∧
      ¬Means (union.apply "U & X")
        ((Form.chain .intersection (.name ['U']) (.name ['X'])).replace named).plain := by
  have keyofText : union.apply "keyof U" = "keyof A | B" := by decide +kernel
  have chainText : union.apply "U & X" = "A | B & X" := by decide +kernel
  have keyofForm : Parses "keyof A | B" (.chain .union (.keyof (.name ['A'])) (.name ['B'])) :=
    ⟨by simp [Form.WellFormed, Form.rank, Operator.rank], by decide +kernel⟩
  have chainForm : Parses "A | B & X"
      (.chain .union (.name ['A']) (.chain .intersection (.name ['B']) (.name ['X']))) :=
    ⟨by simp [Form.WellFormed, Form.rank, Operator.rank], by decide +kernel⟩
  refine ⟨⟨⟨by simp [Form.WellFormed, Form.rank], by decide +kernel⟩, keyofText, ?_⟩,
    ⟨by simp [Form.WellFormed, Form.rank, Operator.rank], by decide +kernel⟩, chainText, ?_⟩
  · rw [keyofText]
    rintro ⟨_, every⟩
    have same := every _ keyofForm
    cases same
  · rw [chainText]
    rintro ⟨_, every⟩
    have same := every _ chainForm
    cases same

end UnionArgument

end Substitution

end MemberStubs
