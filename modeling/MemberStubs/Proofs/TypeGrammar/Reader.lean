import Mathlib.Order.Filter.AtTopBot.Basic
import MemberStubs.Proofs.TypeGrammar.Chain

/-! Tokens determine what a well-formed form means. A reader that looks two tokens ahead and never
back finds the meaning, given fuel enough. -/

namespace MemberStubs.TypeGrammar

open Filter

/-! ## The reader -/

/-- What stands behind a parenthesis that opens parameters. -/
def startsParameters : List Token → Bool
  | .mark ')' :: _ => true
  | .name _ :: .mark ':' :: _ => true
  | _ => false

def opensParameters : List Token → Bool
  | .mark '(' :: rest => startsParameters rest
  | _ => false

def closes (tokens : List Token) : Bool :=
  tokens.head? = some (.mark ')') || tokens.head? = some (.mark '>')

def readLabel : (group : Group) → List Token → Label group × List Token
  | .arguments, tokens => (.argument, tokens)
  | .parameters, .name name :: _ :: rest => (.parameter name, rest)
  | .parameters, rest => (.parameter [], rest)

/-- The links of a chain, one after the other. -/
def readLinks (operator : Operator) (first : Form × List Token)
    (readLater : List Token → Form × List Token) : Form × List Token :=
  if first.2.head? = some (.operator operator) then
    let later := readLater first.2.tail
    (first.1.join operator later.1, later.2)
  else first

mutual
/-- Reads a form that binds at least as tight as a rank tells, without its parentheses. -/
def read : Nat → Nat → List Token → Form × List Token
  | 0, _, tokens => (.name [], tokens)
  | fuel + 1, 0, tokens =>
      if opensParameters tokens then
        let parameters := readForms fuel .parameters tokens.tail
        let result := read fuel 0 (parameters.2.drop 2)
        (.function parameters.1 result.1, result.2)
      else
        let checked := read fuel 1 tokens
        if checked.2.head? = some .extends then
          let bound := read fuel 1 checked.2.tail
          let yes := read fuel 0 bound.2.tail
          let no := read fuel 0 yes.2.tail
          (.conditional checked.1 bound.1 yes.1 no.1, no.2)
        else checked
  | fuel + 1, 1, tokens => readLinks .union (read fuel 2 tokens) (read fuel 1)
  | fuel + 1, 2, tokens => readLinks .intersection (read fuel 3 tokens) (read fuel 2)
  | fuel + 1, 3, .keyof :: rest =>
      let operand := read fuel 3 rest
      (.keyof operand.1, operand.2)
  | fuel + 1, 3, tokens => read fuel 4 tokens
  | fuel + 1, _, .mark '(' :: rest =>
      let inside := read fuel 0 rest
      readSuffixes fuel inside.1 inside.2.tail
  | fuel + 1, _, .name head :: .mark '<' :: rest =>
      let arguments := readForms fuel .arguments rest
      readSuffixes fuel (.generic head arguments.1) arguments.2.tail
  | fuel + 1, _, .name chars :: rest => readSuffixes fuel (.name chars) rest
  | _ + 1, _, tokens => (.name [], tokens)

def readSuffixes : Nat → Form → List Token → Form × List Token
  | 0, form, tokens => (form, tokens)
  | fuel + 1, form, .mark '[' :: .mark ']' :: rest => readSuffixes fuel (.array form) rest
  | fuel + 1, form, .mark '[' :: rest =>
      let key := read fuel 0 rest
      readSuffixes fuel (.index form key.1) key.2.tail
  | _ + 1, form, tokens => (form, tokens)

def readForms : Nat → (group : Group) → List Token → Forms group × List Token
  | 0, _, tokens => (.nil, tokens)
  | fuel + 1, group, tokens =>
      if closes tokens then (.nil, tokens)
      else
        let label := readLabel group tokens
        let form := read fuel 0 label.2
        if form.2.head? = some (.mark ',') then
          let later := readForms fuel group form.2.tail
          (.cons label.1 form.1 later.1, later.2)
        else (.cons label.1 form.1 .nil, form.2)
end

/-! ## Where a form ends -/

/-- Up to which rank a form goes on with a token behind it. -/
def Token.reach? : Token → Option Nat
  | .mark '[' => some 4
  | .mark '<' => some 4
  | .operator link => some link.rank
  | .extends => some 0
  | _ => none

/-- No form of a rank goes on with these tokens. -/
def Stops (rank : Nat) (rest : List Token) : Prop :=
  ∀ token ∈ rest.head?, ∀ reach ∈ token.reach?, reach < rank

theorem Stops.mono {rank higher : Nat} {rest : List Token} (stops : Stops rank rest)
    (le : rank ≤ higher) : Stops higher rest :=
  fun token head reach reaches => Nat.lt_of_lt_of_le (stops token head reach reaches) le

theorem Stops.head?_ne {rank reach : Nat} {rest : List Token} {token : Token}
    (stops : Stops rank rest) (reaches : token.reach? = some reach) (le : rank ≤ reach) :
    rest.head? ≠ some token := by
  intro head
  exact Nat.not_lt.mpr le (stops token head reach reaches)

def Token.begins : Token → Bool
  | .name _ => true
  | .keyof => true
  | .mark '(' => true
  | _ => false

theorem Form.exists_tokens : (form : Form) →
    ∃ token rest, form.tokens = token :: rest ∧ token.begins = true
  | .name _ => ⟨_, _, rfl, rfl⟩
  | .generic _ _ => ⟨_, _, rfl, rfl⟩
  | .enclosed _ => ⟨_, _, rfl, rfl⟩
  | .keyof _ => ⟨_, _, rfl, rfl⟩
  | .function _ _ => ⟨_, _, rfl, rfl⟩
  | .array element => by
      rcases element.exists_tokens with ⟨token, rest, same, begins⟩
      exact ⟨token, _, by rw [tokens, same, List.cons_append], begins⟩
  | .index object _ => by
      rcases object.exists_tokens with ⟨token, rest, same, begins⟩
      exact ⟨token, _, by rw [tokens, same, List.cons_append], begins⟩
  | .chain _ left _ => by
      rcases left.exists_tokens with ⟨token, rest, same, begins⟩
      exact ⟨token, _, by rw [tokens, same, List.cons_append], begins⟩
  | .conditional checked _ _ _ => by
      rcases checked.exists_tokens with ⟨token, rest, same, begins⟩
      exact ⟨token, _, by rw [tokens, same, List.cons_append], begins⟩

/-- No form begins like parameters do, unless a colon comes behind it. -/
theorem Form.startsParameters_tokens : (form : Form) → {rest : List Token} →
    rest.head? ≠ some (.mark ':') → startsParameters (form.tokens ++ rest) = false
  | .name _, rest, noColon => by
      cases rest with
      | nil => rfl
      | cons token rest =>
          rw [tokens, List.singleton_append, startsParameters]
          · nofun
          · rintro _ _ ⟨⟩
            exact noColon rfl
  | .generic _ _, _, _ => rfl
  | .enclosed _, _, _ => rfl
  | .keyof _, _, _ => rfl
  | .function _ _, _, _ => rfl
  | .array element, _, _ => by
      rw [tokens, List.append_assoc]
      exact element.startsParameters_tokens (by simp)
  | .index object _, _, _ => by
      rw [tokens, List.append_assoc]
      exact object.startsParameters_tokens (by simp)
  | .chain _ left _, _, _ => by
      rw [tokens, List.append_assoc]
      exact left.startsParameters_tokens (by simp)
  | .conditional checked _ _ _, _, _ => by
      rw [tokens, List.append_assoc]
      exact checked.startsParameters_tokens (by simp)

/-- Only functions begin with parameters. -/
theorem Form.opensParameters_tokens : (form : Form) → form.WellFormed → 1 ≤ form.rank →
    (rest : List Token) → opensParameters (form.tokens ++ rest) = false
  | .name _, _, _, _ => rfl
  | .generic _ _, _, _, _ => rfl
  | .enclosed inside, _, _, rest => by
      simp only [tokens, List.cons_append, List.append_assoc, opensParameters]
      exact inside.startsParameters_tokens (by simp)
  | .keyof _, _, _, _ => rfl
  | .array element, wellFormed, _, _ => by
      rw [tokens, List.append_assoc]
      exact element.opensParameters_tokens wellFormed.1 (Nat.le_trans (by decide) wellFormed.2) _
  | .index object _, wellFormed, _, _ => by
      rw [tokens, List.append_assoc]
      exact object.opensParameters_tokens wellFormed.1 (Nat.le_trans (by decide) wellFormed.2.1) _
  | .chain operator left _, wellFormed, bound, _ => by
      rw [tokens, List.append_assoc]
      exact left.opensParameters_tokens wellFormed.1.1 (Nat.le_trans bound wellFormed.1.2) _

theorem Form.head?_ne_keyof : (form : Form) → form.WellFormed → 4 ≤ form.rank →
    (rest : List Token) → (form.tokens ++ rest).head? ≠ some .keyof
  | .name _, _, _, _ => nofun
  | .generic _ _, _, _, _ => nofun
  | .enclosed _, _, _, _ => nofun
  | .array element, wellFormed, _, _ => by
      rw [tokens, List.append_assoc]
      exact element.head?_ne_keyof wellFormed.1 wellFormed.2 _
  | .index object _, wellFormed, _, _ => by
      rw [tokens, List.append_assoc]
      exact object.head?_ne_keyof wellFormed.1 wellFormed.2.1 _
  | .chain operator _ _, _, bound, _ => by
      have less : operator.rank < 4 := by cases operator <;> decide
      exact absurd bound (Nat.not_le.mpr less)

theorem Form.rank_le (form : Form) : form.rank ≤ 4 := by
  cases form with
  | chain operator left right => cases operator <;> simp [rank, Operator.rank]
  | _ => simp [rank]

/-! ## Reading -/

def Reads (rank : Nat) (tokens : List Token) (result : Form × List Token) : Prop :=
  ∀ᶠ fuel in atTop, read fuel rank tokens = result

theorem eventually_of_succ {holds : Nat → Prop} (later : ∀ᶠ fuel in atTop, holds (fuel + 1)) :
    ∀ᶠ fuel in atTop, holds fuel := by
  rwa [← map_add_atTop_eq_nat 1, eventually_map]

namespace Reads

variable {tokens rest : List Token} {form : Form}

theorem suffixed (noKeyof : tokens.head? ≠ some .keyof) {result : Form × List Token}
    (reads : Reads 4 tokens result) : Reads 3 tokens result := by
  refine eventually_of_succ ?_
  filter_upwards [reads] with fuel here
  rw [read]
  · exact here
  · rintro behind rfl
    exact noKeyof rfl

theorem link (operator : Operator) (reads : Reads (operator.rank + 1) tokens (form, rest))
    (ends : rest.head? ≠ some (.operator operator)) : Reads operator.rank tokens (form, rest) := by
  refine eventually_of_succ ?_
  filter_upwards [reads] with fuel here
  cases operator <;>
    · rw [Operator.rank] at here ⊢
      rw [read, here, readLinks, if_neg ends]

theorem unconditional (opens : opensParameters tokens = false) (reads : Reads 1 tokens (form, rest))
    (ends : rest.head? ≠ some .extends) : Reads 0 tokens (form, rest) := by
  refine eventually_of_succ ?_
  filter_upwards [reads] with fuel here
  rw [read, opens]
  simp [here, ends]

/-- What is read at one rank is read at all lower ones at which the form ends as well. -/
theorem lower (wellFormed : form.WellFormed) {rank higher : Nat} (bound : higher ≤ form.rank)
    (reads : Reads higher (form.tokens ++ rest) (form.plain, rest)) (le : rank ≤ higher)
    (stops : Stops rank rest) : Reads rank (form.tokens ++ rest) (form.plain, rest) := by
  induction higher with
  | zero =>
      cases Nat.le_zero.mp le
      exact reads
  | succ higher induction =>
      rcases Nat.lt_or_eq_of_le le with less | rfl
      · have below := Nat.le_of_lt_succ less
        refine induction (Nat.le_of_succ_le bound) ?_ below
        have stopsHere := stops.mono below
        match higher, bound, reads, stopsHere with
        | 0, bound, reads, stopsHere =>
            exact reads.unconditional (form.opensParameters_tokens wellFormed bound rest)
              (stopsHere.head?_ne rfl (Nat.le_refl _))
        | 1, bound, reads, stopsHere =>
            exact reads.link .union (stopsHere.head?_ne rfl (Nat.le_refl _))
        | 2, bound, reads, stopsHere =>
            exact reads.link .intersection (stopsHere.head?_ne rfl (Nat.le_refl _))
        | 3, bound, reads, stopsHere =>
            exact reads.suffixed (form.head?_ne_keyof wellFormed bound rest)
        | higher + 4, bound, _, _ =>
            have highest := form.rank_le
            omega
      · exact reads

end Reads

/-- A form that ends in a suffix, or could, is read up to the suffixes behind it. -/
def ReadsSuffixed (form : Form) : Prop :=
  ∀ {rest : List Token} {result : Form × List Token}, rest.head? ≠ some (.mark '<') →
    (∀ᶠ fuel in atTop, readSuffixes fuel form.plain rest = result) →
    Reads 4 (form.tokens ++ rest) result

def ReadsWhole (form : Form) : Prop :=
  ∀ rank ≤ form.rank, ∀ {rest : List Token}, Stops rank rest →
    Reads rank (form.tokens ++ rest) (form.plain, rest)

theorem eventually_readSuffixes {form : Form} {rest : List Token} (stops : Stops 4 rest) :
    ∀ᶠ fuel in atTop, readSuffixes fuel form rest = (form, rest) := by
  refine eventually_of_succ (.of_forall fun fuel => ?_)
  have noBracket : rest.head? ≠ some (.mark '[') := stops.head?_ne rfl (Nat.le_refl _)
  rw [readSuffixes]
  · rintro behind rfl
    exact noBracket rfl
  · rintro behind rfl
    exact noBracket rfl

theorem ReadsSuffixed.readsWhole {form : Form} (wellFormed : form.WellFormed)
    (highest : 4 ≤ form.rank) (reads : ReadsSuffixed form) : ReadsWhole form := by
  intro rank bound rest stops
  have stopsSuffixes := stops.mono (Nat.le_trans bound form.rank_le)
  have noAngle : rest.head? ≠ some (.mark '<') := stopsSuffixes.head?_ne rfl (Nat.le_refl _)
  have whole := reads noAngle (eventually_readSuffixes stopsSuffixes)
  exact whole.lower wellFormed highest (Nat.le_trans bound form.rank_le) stops

theorem read_name {fuel : Nat} {chars : List Char} {rest : List Token}
    (noAngle : rest.head? ≠ some (.mark '<')) :
    read (fuel + 1) 4 (.name chars :: rest) = readSuffixes fuel (.name chars) rest := by
  have other : ∀ behind, rest = .mark '<' :: behind → False := by
    rintro behind rfl
    exact noAngle rfl
  rw [read] <;> first | exact other | nofun

theorem readSuffixes_index {fuel : Nat} {form : Form} {rest : List Token}
    (noClose : rest.head? ≠ some (.mark ']')) :
    readSuffixes (fuel + 1) form (.mark '[' :: rest) =
      readSuffixes fuel (.index form (read fuel 0 rest).1) (read fuel 0 rest).2.tail := by
  rw [readSuffixes]
  rintro behind rfl
  exact noClose rfl

/-- No form begins with a token that closes something. -/
theorem Form.head?_ne_of_begins (form : Form) (token : Token) (begins : token.begins = false)
    (rest : List Token) : (form.tokens ++ rest).head? ≠ some token := by
  rcases form.exists_tokens with ⟨first, later, same, firstBegins⟩
  rw [same, List.cons_append, List.head?_cons]
  rintro ⟨⟩
  rw [begins] at firstBegins
  cases firstBegins

theorem Form.rank_lt_of_single {form : Form} {operator : Operator}
    (single : form.isChain operator = false) (bound : operator.rank ≤ form.rank) :
    operator.rank + 1 ≤ form.rank := by
  cases form with
  | chain other left right =>
      cases operator <;> cases other <;> simp_all [isChain, rank, Operator.rank]
  | _ => cases operator <;> simp_all [rank, Operator.rank]

theorem readLabel_tokens {group : Group} (label : Label group) (rest : List Token) :
    readLabel group (label.tokens ++ rest) = (label, rest) := by
  cases label <;> rfl

theorem closes_tokens {group : Group} (label : Label group) (form : Form) (rest : List Token) :
    closes (label.tokens ++ (form.tokens ++ rest)) = false := by
  cases label with
  | argument =>
      have noParenthesis := form.head?_ne_of_begins (.mark ')') rfl rest
      have noAngle := form.head?_ne_of_begins (.mark '>') rfl rest
      simp only [closes, Label.tokens, List.nil_append, noParenthesis, noAngle, decide_false,
        Bool.or_false]
  | parameter name => rfl

theorem stops_of_reach {rank : Nat} {token : Token} {rest : List Token}
    (reach : token.reach? = none) : Stops rank (token :: rest) := by
  rintro _ ⟨⟩ reached equal
  rw [reach] at equal
  cases equal

theorem stops_of_closes {rank : Nat} {rest : List Token} (isClosed : closes rest = true) :
    Stops rank rest := by
  intro token head reach reaches
  simp only [closes, Bool.or_eq_true, decide_eq_true_eq] at isClosed
  rcases isClosed with same | same
  all_goals
    rw [same] at head
    cases head
    cases reaches

mutual
theorem Form.reads : (form : Form) → form.WellFormed → form.IsChained →
    (4 ≤ form.rank → ReadsSuffixed form) ∧ ReadsWhole form
  | .name chars, wellFormed, _ => by
      have suffixed : ReadsSuffixed (.name chars) := by
        intro rest result noAngle reads
        refine eventually_of_succ ?_
        filter_upwards [reads] with fuel here
        rw [Form.tokens, List.singleton_append, read_name noAngle]
        exact here
      exact ⟨fun _ => suffixed, suffixed.readsWhole wellFormed (Nat.le_refl _)⟩
  | .generic head arguments, wellFormed, isChained => by
      have suffixed : ReadsSuffixed (.generic head arguments) := by
        intro rest result noAngle reads
        refine eventually_of_succ ?_
        filter_upwards [reads, arguments.reads wellFormed isChained (.mark '>' :: rest) rfl]
          with fuel here inside
        rw [Form.plain] at here
        simp [Form.tokens, read, inside, here]
      exact ⟨fun _ => suffixed, suffixed.readsWhole wellFormed (Nat.le_refl _)⟩
  | .enclosed inside, wellFormed, isChained => by
      have suffixed : ReadsSuffixed (.enclosed inside) := by
        intro rest result noAngle reads
        refine eventually_of_succ ?_
        have stops : Stops 0 (.mark ')' :: rest) := stops_of_reach rfl
        filter_upwards [reads, (inside.reads wellFormed isChained).2 0 (Nat.zero_le _) stops]
          with fuel here inner
        rw [Form.plain] at here
        simp [Form.tokens, read, inner, here]
      exact ⟨fun _ => suffixed, suffixed.readsWhole wellFormed (Nat.le_refl _)⟩
  | .array element, wellFormed, isChained => by
      have suffixed : ReadsSuffixed (.array element) := by
        intro rest result noAngle reads
        rw [Form.tokens, List.append_assoc]
        refine (element.reads wellFormed.1 isChained).1 wellFormed.2 (by simp)
          (eventually_of_succ ?_)
        filter_upwards [reads] with fuel here
        rw [Form.plain] at here
        simp [readSuffixes, here]
      exact ⟨fun _ => suffixed, suffixed.readsWhole wellFormed (Nat.le_refl _)⟩
  | .index object key, wellFormed, isChained => by
      have suffixed : ReadsSuffixed (.index object key) := by
        intro rest result noAngle reads
        rw [Form.tokens, List.append_assoc]
        refine (object.reads wellFormed.1 isChained.1).1 wellFormed.2.1 (by simp)
          (eventually_of_succ ?_)
        have stops : Stops 0 (.mark ']' :: rest) := stops_of_reach rfl
        filter_upwards [reads, (key.reads wellFormed.2.2 isChained.2).2 0 (Nat.zero_le _) stops]
          with fuel here inner
        rw [List.cons_append, List.append_assoc, List.singleton_append,
          readSuffixes_index (key.head?_ne_of_begins _ rfl _), inner]
        exact here
      exact ⟨fun _ => suffixed, suffixed.readsWhole wellFormed (Nat.le_refl _)⟩
  | .keyof operand, wellFormed, isChained => by
      refine ⟨fun highest => absurd highest (by simp [Form.rank]), fun rank bound rest stops => ?_⟩
      have whole : Reads 3 ((Form.keyof operand).tokens ++ rest)
          ((Form.keyof operand).plain, rest) := by
        refine eventually_of_succ ?_
        filter_upwards [(operand.reads wellFormed.1 isChained).2 3 wellFormed.2 (stops.mono bound)]
          with fuel here
        simp [Form.tokens, Form.plain, read, here]
      exact whole.lower wellFormed (Nat.le_refl _) bound stops
  | .chain operator left right, wellFormed, isChained => by
      have less : operator.rank < 4 := by cases operator <;> decide
      refine ⟨fun highest => absurd highest (Nat.not_le.mpr less), fun rank bound rest stops => ?_⟩
      -- The first link is no chain of this operator, so it is read one rank higher.
      have tighter := Form.rank_lt_of_single isChained.1 wellFormed.1.2
      have stopsHere : Stops operator.rank rest := stops.mono bound
      have stopsLink :
          Stops (operator.rank + 1) (.operator operator :: (right.tokens ++ rest)) := by
        rintro _ ⟨⟩ _ ⟨⟩
        exact Nat.lt_succ_self _
      have whole : Reads operator.rank ((Form.chain operator left right).tokens ++ rest)
          ((Form.chain operator left right).plain, rest) := by
        refine eventually_of_succ ?_
        filter_upwards [(left.reads wellFormed.1.1 isChained.2.1).2 _ tighter stopsLink,
          (right.reads wellFormed.2.1 isChained.2.2).2 _ wellFormed.2.2 stopsHere]
          with fuel first later
        rw [Form.tokens, List.append_assoc, List.cons_append, Form.plain]
        cases operator <;>
          · rw [Operator.rank] at first later ⊢
            simp [read, first, later, readLinks]
      exact whole.lower wellFormed (Nat.le_refl _) bound stops
  | .function parameters result, wellFormed, isChained => by
      refine ⟨fun highest => absurd highest (by simp [Form.rank]), fun rank bound rest stops => ?_⟩
      cases Nat.le_zero.mp bound
      refine eventually_of_succ ?_
      filter_upwards [parameters.reads wellFormed.1 isChained.1
        (.mark ')' :: .arrow :: (result.tokens ++ rest)) rfl,
        (result.reads wellFormed.2 isChained.2).2 0 (Nat.zero_le _) stops] with fuel inside here
      have opens : opensParameters ((Form.function parameters result).tokens ++ rest) = true := by
        rw [Form.tokens, List.cons_append, List.append_assoc]
        cases parameters with
        | nil => rfl
        | cons label form later => cases label; rfl
      rw [read, opens]
      simp [Form.tokens, Form.plain, inside, here]
  | .conditional checked bound yes no, wellFormed, isChained => by
      refine ⟨fun highest => absurd highest (by simp [Form.rank]), fun rank le rest stops => ?_⟩
      cases Nat.le_zero.mp le
      rcases wellFormed with ⟨⟨checkedForm, checkedRank⟩, ⟨boundForm, boundRank⟩, yesForm, noForm⟩
      rcases isChained with ⟨checkedChained, boundChained, yesChained, noChained⟩
      have behindChecked : Stops 1 (.extends :: (bound.tokens ++ .mark '?' ::
          (yes.tokens ++ .mark ':' :: (no.tokens ++ rest)))) := by
        rintro _ ⟨⟩ _ ⟨⟩
        decide
      have behindBound : Stops 1 (.mark '?' :: (yes.tokens ++ .mark ':' :: (no.tokens ++ rest))) :=
        stops_of_reach rfl
      have behindYes : Stops 0 (.mark ':' :: (no.tokens ++ rest)) := stops_of_reach rfl
      refine eventually_of_succ ?_
      filter_upwards [(checked.reads checkedForm checkedChained).2 1 checkedRank behindChecked,
        (bound.reads boundForm boundChained).2 1 boundRank behindBound,
        (yes.reads yesForm yesChained).2 0 (Nat.zero_le _) behindYes,
        (no.reads noForm noChained).2 0 (Nat.zero_le _) stops]
        with fuel atChecked atBound atYes atNo
      have opens := checked.opensParameters_tokens checkedForm checkedRank
        (.extends :: (bound.tokens ++ .mark '?' ::
          (yes.tokens ++ .mark ':' :: (no.tokens ++ rest))))
      simp only [Form.tokens, List.append_assoc, List.cons_append]
      rw [read, opens]
      simp [atChecked, atBound, atYes, atNo, Form.plain]

theorem Forms.reads {group : Group} : (forms : Forms group) → forms.WellFormed →
    forms.IsChained → (rest : List Token) → closes rest = true →
    ∀ᶠ fuel in atTop, readForms fuel group (forms.tokens ++ rest) = (forms.plain, rest)
  | .nil, _, _, rest, isClosed => by
      refine eventually_of_succ (.of_forall fun fuel => ?_)
      rw [Forms.tokens, List.nil_append, readForms, if_pos isClosed]
      rfl
  | .cons label form later, wellFormed, isChained, rest, isClosed => by
      refine eventually_of_succ ?_
      cases last : later.isNil with
      | true =>
          filter_upwards [(form.reads wellFormed.1 isChained.1).2 0 (Nat.zero_le _)
            (stops_of_closes isClosed)] with fuel here
          have noComma : rest.head? ≠ some (.mark ',') := by
            intro head
            simp [closes, head] at isClosed
          cases later with
          | cons next second more => cases last
          | nil =>
              simp only [Forms.tokens, Forms.isNil, if_true, List.append_nil, List.append_assoc]
              rw [readForms, closes_tokens, readLabel_tokens]
              simp [here, noComma, Forms.plain]
      | false =>
          have stops : Stops 0 (.mark ',' :: (later.tokens ++ rest)) := stops_of_reach rfl
          filter_upwards [(form.reads wellFormed.1 isChained.1).2 0 (Nat.zero_le _) stops,
            later.reads wellFormed.2 isChained.2 rest isClosed] with fuel here behind
          simp only [Forms.tokens, last, Bool.false_eq_true, if_false, List.append_assoc,
            List.cons_append]
          rw [readForms, closes_tokens, readLabel_tokens]
          simp [here, behind, Forms.plain]
end

/-- Tokens have one meaning. -/
theorem Form.plain_eq_of_tokens {first second : Form} (firstForm : first.WellFormed)
    (secondForm : second.WellFormed) (same : first.tokens = second.tokens) :
    first.plain = second.plain := by
  have read : ∀ form : Form, form.WellFormed → Reads 0 form.tokens (form.plain, []) := by
    intro form wellFormed
    have chainedRead := (form.chained.reads (form.wellFormed_chained.mpr wellFormed)
      form.isChained_chained).2
    have whole : Reads 0 (form.chained.tokens ++ []) (form.chained.plain, []) :=
      chainedRead 0 (Nat.zero_le _) nofun
    simpa using whole
  have firstRead := read first firstForm
  rw [same] at firstRead
  rcases (firstRead.and (read second secondForm)).exists with ⟨fuel, here, there⟩
  exact (Prod.mk.inj (here.symm.trans there)).1

end MemberStubs.TypeGrammar
