import MemberStubs.Json.Printer
import MemberStubs.Json.Record
import MemberStubs.Json.Token
import MemberStubs.Proofs.Json.Lexeme
import MemberStubs.Proofs.Json.Number

/-! The tokens of a printed document. Every document has a list of tokens, which its printed form
spells with breaks between them. A numeral or a name ends where no more of its characters follow. -/

namespace MemberStubs.Json

/-- A document whose strings and numbers are spelled the way they are written. -/
inductive Written : Json → Prop where
  | null : Written .null
  | bool (value : Bool) : Written (.bool value)
  | number (value : Nat) : Written (.number (ofNatural value))
  | string (text : List Char) : Written (.string (escape text))
  | array {items : List Json} (each : ∀ item ∈ items, Written item) : Written (.array items)
  | object {fields : List (List Char × Json)}
      (keys : ∀ field ∈ fields, ∃ text, field.1 = escape text)
      (each : ∀ field ∈ fields, Written field.2) : Written (.object fields)

mutual
def tokens : Json → List Token
| .null => [.null]
| .bool value => [.bool value]
| .number lexeme => [.number lexeme]
| .string lexeme => [.string lexeme]
| .array [] => [.openArray, .closeArray]
| .array (item :: items) =>
    .openArray :: item.tokens ++ tokensOfItems items ++ [.closeArray]
| .object [] => [.openObject, .closeObject]
| .object ((key, value) :: fields) =>
    .openObject :: .string key :: .colon :: value.tokens ++ tokensOfFields fields ++
      [.closeObject]

def tokensOfItems : List Json → List Token
| [] => []
| item :: items => .comma :: item.tokens ++ tokensOfItems items

def tokensOfFields : List (List Char × Json) → List Token
| [] => []
| (key, value) :: fields =>
    .comma :: .string key :: .colon :: value.tokens ++ tokensOfFields fields
end

/-! ## One token -/

/-- No word goes on here. -/
def EndsWord (rest : List Char) : Prop :=
  ∀ c, rest.head? = some c → isWordChar c = false

theorem endsWord_cons {c : Char} {rest : List Char} (other : isWordChar c = false) :
    EndsWord (c :: rest) := by
  intro first head
  cases head
  exact other

theorem tokens?_space {c : Char} (space : isSpace c = true) (rest : List Char) :
    tokens? (c :: rest) = tokens? rest := by
  rw [tokens?, if_pos space]

theorem tokens?_lineBreak (level : Nat) (rest : List Char) :
    tokens? (lineBreak level ++ rest) = tokens? rest := by
  rw [lineBreak, List.cons_append, tokens?_space rfl]
  induction 2 * level with
  | zero => rfl
  | succ count induction =>
      rw [List.replicate_succ, List.cons_append, tokens?_space rfl, induction]

theorem tokens?_punctuation {c : Char} {token : Token} (mark : punctuation? c = some token)
    (rest : List Char) : tokens? (c :: rest) = (tokens? rest).map (token :: ·) := by
  have notSpace : ¬ isSpace c = true := by
    intro space
    simp only [isSpace, Bool.or_eq_true, decide_eq_true_eq] at space
    rcases space with ((rfl | rfl) | rfl) | rfl <;> cases mark
  rw [tokens?, if_neg notSpace, mark]

theorem tokens?_quote (text rest : List Char) :
    tokens? (quote (escape text) ++ rest) =
      (tokens? rest).map (.string (escape text) :: ·) := by
  have whole : quote (escape text) ++ rest = '\"' :: (escape text ++ '\"' :: rest) := by
    rw [quote, List.cons_append, List.cons_append, List.append_assoc, List.singleton_append]
  have mark : punctuation? '\"' = none := rfl
  rw [whole, tokens?, if_neg (by decide), mark]
  dsimp only
  rw [if_pos rfl]
  split
  · next lexeme after found =>
      cases found.symm.trans (stringLexeme?_escape text rest)
      rfl
  · next found => cases found.symm.trans (stringLexeme?_escape text rest)

theorem isWordChar_cases {c : Char} (isWord : isWordChar c = true) :
    isSpace c = false ∧ punctuation? c = none ∧ c ≠ '\"' := by
  refine ⟨?_, ?_, ?_⟩
  · rw [Bool.eq_false_iff]
    intro space
    simp only [isSpace, Bool.or_eq_true, decide_eq_true_eq] at space
    rcases space with ((rfl | rfl) | rfl) | rfl <;> cases isWord
  · unfold punctuation?
    split <;> first | rfl | cases isWord
  · rintro rfl
    cases isWord

theorem tokens?_word {word rest : List Char} {token : Token}
    (chars : ∀ c ∈ word, isWordChar c = true) (read : ofWord? word = some token)
    (ends : EndsWord rest) :
    tokens? (word ++ rest) = (tokens? rest).map (token :: ·) := by
  cases word with
  | nil => cases read
  | cons c word =>
      rcases isWordChar_cases (chars c (List.mem_cons_self ..)) with ⟨space, mark, quote⟩
      have more := fun other member => chars other (List.mem_cons_of_mem c member)
      have stops : rest.takeWhile isWordChar = [] ∧ rest.dropWhile isWordChar = rest := by
        cases rest with
        | nil => exact ⟨rfl, rfl⟩
        | cons next rest =>
            have stop := ends next rfl
            exact ⟨by rw [List.takeWhile_cons, stop]; rfl, by rw [List.dropWhile_cons, stop]; rfl⟩
      rw [List.cons_append, tokens?, if_neg (by simp [space]), mark, if_neg quote,
        List.takeWhile_append_of_pos more, List.dropWhile_append_of_pos more, stops.1, stops.2,
        List.append_nil, read]

/-- A numeral is none of the names. -/
theorem ofWord?_ofNatural (value : Nat) :
    ofWord? (ofNatural value) = some (.number (ofNatural value)) := by
  have other : ∀ word : List Char, word.head?.any Char.isDigit = false →
      ofNatural value ≠ word := by
    rintro word name rfl
    cases written : ofNatural value with
    | nil => exact Nat.toDigits_ne_nil written
    | cons c rest =>
        have member : c ∈ ofNatural value := by simp [written]
        have digit := isDigit_of_mem_ofNatural member
        simp [written, digit] at name
  rw [ofWord?, if_neg (other _ rfl), if_neg (other _ rfl), if_neg (other _ rfl),
    if_pos (by rw [numeral?_ofNatural]; rfl)]

/-! ## A whole document -/

/-- The printed form of a document spells its tokens, at every level. -/
def Spells (json : Json) : Prop :=
  ∀ level rest, EndsWord rest →
    tokens? (json.pretty level ++ rest) = (tokens? rest).map (json.tokens ++ ·)

theorem endsWord_prettyItems {level : Nat} {items : List Json} {rest : List Char}
    (ends : EndsWord rest) : EndsWord (prettyItems level items ++ rest) := by
  cases items with
  | nil => exact ends
  | cons item items => exact endsWord_cons rfl

theorem endsWord_prettyFields {level : Nat} {fields : List (List Char × Json)} {rest : List Char}
    (ends : EndsWord rest) : EndsWord (prettyFields level fields ++ rest) := by
  cases fields with
  | nil => exact ends
  | cons field fields => exact endsWord_cons rfl

theorem tokens?_prettyItems {items : List Json} (each : ∀ item ∈ items, item.Spells) (level : Nat)
    {rest : List Char} (ends : EndsWord rest) :
    tokens? (prettyItems level items ++ rest) = (tokens? rest).map (tokensOfItems items ++ ·) := by
  induction items with
  | nil => exact Option.map_id'.symm
  | cons item items induction =>
      have first := each item (List.mem_cons_self ..)
      have later := induction fun item member => each item (List.mem_cons_of_mem _ member)
      simp only [prettyItems, tokensOfItems, List.cons_append, List.append_assoc,
        tokens?_punctuation (c := ',') rfl, tokens?_lineBreak,
        first _ _ (endsWord_prettyItems ends), later, Option.map_map, Function.comp_def]

theorem tokens?_prettyFields {fields : List (List Char × Json)}
    (keys : ∀ field ∈ fields, ∃ text, field.1 = escape text)
    (each : ∀ field ∈ fields, field.2.Spells) (level : Nat) {rest : List Char}
    (ends : EndsWord rest) :
    tokens? (prettyFields level fields ++ rest) =
      (tokens? rest).map (tokensOfFields fields ++ ·) := by
  induction fields with
  | nil => exact Option.map_id'.symm
  | cons field fields induction =>
      rcases field with ⟨key, value⟩
      rcases keys _ (List.mem_cons_self ..) with ⟨text, rfl⟩
      have first : value.Spells := each _ (List.mem_cons_self ..)
      have later := induction (fun field member => keys field (List.mem_cons_of_mem _ member))
        fun field member => each field (List.mem_cons_of_mem _ member)
      simp only [prettyFields, tokensOfFields, List.cons_append, List.append_assoc, List.nil_append,
        tokens?_punctuation (c := ',') rfl, tokens?_punctuation (c := ':') rfl,
        tokens?_space (c := ' ') rfl, tokens?_lineBreak, tokens?_quote,
        first _ _ (endsWord_prettyFields ends), later, Option.map_map, Function.comp_def]

theorem Written.spells {json : Json} (written : json.Written) : json.Spells := by
  induction written with
  | null =>
      have chars : "null".toList.all isWordChar = true := by decide
      exact fun _ _ ends => tokens?_word (List.all_eq_true.mp chars) rfl ends
  | bool value =>
      have chars : "true".toList.all isWordChar = true := by decide
      have chars' : "false".toList.all isWordChar = true := by decide
      cases value with
      | true => exact fun _ _ ends => tokens?_word (List.all_eq_true.mp chars) rfl ends
      | false => exact fun _ _ ends => tokens?_word (List.all_eq_true.mp chars') rfl ends
  | number value =>
      have chars : ∀ c ∈ ofNatural value, isWordChar c = true := fun c member => by
        simp [isWordChar, Char.isAlphanum, isDigit_of_mem_ofNatural member]
      exact fun _ _ ends => tokens?_word chars (ofWord?_ofNatural value) ends
  | string text => exact fun _ rest _ => tokens?_quote text rest
  | @array items each induction =>
      intro level rest ends
      cases items with
      | nil =>
          simp only [pretty, tokens, List.cons_append, List.nil_append,
            tokens?_punctuation (c := '[') rfl, tokens?_punctuation (c := ']') rfl,
            Option.map_map, Function.comp_def]
      | cons item items =>
          have close : EndsWord (lineBreak level ++ ']' :: rest) := endsWord_cons rfl
          have first := induction item (List.mem_cons_self ..)
          have later := tokens?_prettyItems
            (fun item member => induction item (List.mem_cons_of_mem _ member)) (level + 1) close
          simp only [pretty, tokens, List.cons_append, List.append_assoc, List.nil_append,
            tokens?_punctuation (c := '[') rfl, tokens?_punctuation (c := ']') rfl,
            tokens?_lineBreak, first _ _ (endsWord_prettyItems close), later,
            Option.map_map, Function.comp_def]
  | @object fields keys each induction =>
      intro level rest ends
      cases fields with
      | nil =>
          simp only [pretty, tokens, List.cons_append, List.nil_append,
            tokens?_punctuation (c := '\x7b') rfl, tokens?_punctuation (c := '\x7d') rfl,
            Option.map_map, Function.comp_def]
      | cons field fields =>
          rcases field with ⟨key, value⟩
          rcases keys _ (List.mem_cons_self ..) with ⟨text, rfl⟩
          have close : EndsWord (lineBreak level ++ '\x7d' :: rest) := endsWord_cons rfl
          have first : value.Spells := induction _ (List.mem_cons_self ..)
          have later := tokens?_prettyFields
            (fun field member => keys field (List.mem_cons_of_mem _ member))
            (fun field member => induction field (List.mem_cons_of_mem _ member)) (level + 1) close
          simp only [pretty, tokens, List.cons_append, List.append_assoc, List.nil_append,
            tokens?_punctuation (c := '\x7b') rfl, tokens?_punctuation (c := '\x7d') rfl,
            tokens?_punctuation (c := ':') rfl, tokens?_space (c := ' ') rfl,
            tokens?_lineBreak, tokens?_quote, first _ _ (endsWord_prettyFields close), later,
            Option.map_map, Function.comp_def]

end MemberStubs.Json
