import MemberStubs.Json.Lexeme

namespace MemberStubs.Toml

/-! Quoted texts. A literal text stands as it is between apostrophes; in a basic text, between double
quotes, a backslash begins an escape. Tripled quotes let a text go over several lines. -/

/-- What stands before a delimiter, and behind it. With escapes a character behind a backslash begins
no delimiter. -/
def cutAt? (delimiter : List Char) (escapes : Bool) : List Char → Option (List Char × List Char)
  | [] => none
  | c :: rest =>
      if delimiter.isPrefixOf (c :: rest) then some ([], (c :: rest).drop delimiter.length)
      else if escapes && c = '\\' then
        match rest with
        | [] => none
        | d :: later =>
            (cutAt? delimiter escapes later).map fun (before, after) => (c :: d :: before, after)
      else (cutAt? delimiter escapes rest).map fun (before, after) => (c :: before, after)

theorem length_of_cutAt? {delimiter chars before after : List Char} {escapes : Bool}
    (cut : cutAt? delimiter escapes chars = some (before, after)) : after.length ≤ chars.length := by
  fun_induction cutAt? delimiter escapes chars generalizing before after with
  | case1 => cases cut
  | case2 c rest _ =>
      cases cut
      exact (List.drop_sublist delimiter.length (c :: rest)).length_le
  | case3 => cases cut
  | case4 c _ _ d later induction =>
      simp only [Option.map_eq_some_iff, Prod.mk.injEq, Prod.exists] at cut
      obtain ⟨front, back, found, _, rfl⟩ := cut
      have := induction found
      simp only [List.length_cons]
      omega
  | case5 c rest _ _ induction =>
      simp only [Option.map_eq_some_iff, Prod.mk.injEq, Prod.exists] at cut
      obtain ⟨front, back, found, _, rfl⟩ := cut
      have := induction found
      simp only [List.length_cons]
      omega

/-- Controls other than the tab never stand as they are. -/
def isPlain (c : Char) : Bool :=
  c = '\t' || (0x20 ≤ c.toNat && c.toNat ≠ 0x7F)

/-- Lines of a text may end with a line feed or with a carriage return before it. -/
def arePlain (multiline : Bool) : List Char → Bool
  | [] => true
  | '\n' :: rest => multiline && arePlain multiline rest
  | '\r' :: '\n' :: rest => multiline && arePlain multiline rest
  | c :: rest => isPlain c && arePlain multiline rest

def dropFirstLineEnd : List Char → List Char
  | '\n' :: rest => rest
  | '\r' :: '\n' :: rest => rest
  | chars => chars

/-! ## Escapes -/

def isScalar (code : Nat) : Bool :=
  code < 0xD800 || (0xE000 ≤ code && code < 0x110000)

def scalar? (digits : List Char) : Option Char :=
  ((Json.hexValue? digits).filter isScalar).map Char.ofNat

def simpleEscape? : Char → Option Char
  | 'b' => some '\x08'
  | 't' => some '\t'
  | 'n' => some '\n'
  | 'f' => some '\x0c'
  | 'r' => some '\r'
  | 'e' => some '\x1b'
  | '\"' => some '\"'
  | '\\' => some '\\'
  | _ => none

def hexLength? : Char → Option Nat
  | 'x' => some 2
  | 'u' => some 4
  | 'U' => some 8
  | _ => none

def isGap (c : Char) : Bool :=
  c = ' ' || c = '\t' || c = '\n' || c = '\r'

/-- Whether only blanks stand between a backslash and the end of its line. -/
def endsLine (chars : List Char) : Bool :=
  match chars.dropWhile fun c => c = ' ' || c = '\t' with
  | '\n' :: _ => true
  | '\r' :: '\n' :: _ => true
  | _ => false

/-- What a basic text means. A backslash at the end of a line takes all blanks and line ends behind
it away. -/
def unescape? (multiline : Bool) : List Char → Option (List Char)
  | [] => some []
  | '\\' :: mark :: rest =>
      if multiline && endsLine (mark :: rest) then unescape? multiline (rest.dropWhile isGap)
      else
        match hexLength? mark with
        | some length => do
            if rest.length < length then none
            let c ← scalar? (rest.take length)
            let text ← unescape? multiline (rest.drop length)
            some (c :: text)
        | none => do
            let c ← simpleEscape? mark
            let text ← unescape? multiline rest
            some (c :: text)
  | c :: rest => if c = '\\' then none else (unescape? multiline rest).map (c :: ·)
termination_by chars => chars.length
decreasing_by
  · have := (List.dropWhile_sublist (l := rest) isGap).length_le
    simp only [List.length_cons]
    omega
  · simp only [List.length_drop, List.length_cons]
    omega
  · simp only [List.length_cons]
    omega
  · simp

def basic? (multiline : Bool) (lexeme : List Char) : Option (List Char) :=
  if arePlain multiline lexeme then unescape? multiline lexeme else none

def literal? (multiline : Bool) (lexeme : List Char) : Option (List Char) :=
  if arePlain multiline lexeme then some lexeme else none

example : basic? true "a\\\n   \\x41\\u00e9".toList = some "aAé".toList := by decide +kernel

/-- A text of several lines may end with one or two of its own quotes. -/
def takeQuotes (quote : Char) : List Char → List Char × List Char
  | c :: d :: rest =>
      if c = quote then if d = quote then ([c, d], rest) else ([c], d :: rest) else ([], c :: d :: rest)
  | [c] => if c = quote then ([c], []) else ([], [c])
  | [] => ([], [])

theorem length_takeQuotes_le (quote : Char) (chars : List Char) :
    (takeQuotes quote chars).2.length ≤ chars.length := by
  fun_cases takeQuotes quote chars <;> simp
  omega

def meaning? (quote : Char) (multiline : Bool) (lexeme : List Char) : Option (List Char) :=
  if quote = '\"' then basic? multiline lexeme else literal? multiline lexeme

/-- The text behind an opening quote, whether it may span lines, and what follows it. -/
def quoted? (quote : Char) (chars : List Char) : Option (List Char × Bool × List Char) :=
  if [quote, quote].isPrefixOf chars then do
    let (lexeme, after) ← cutAt? [quote, quote, quote] (quote = '\"') (chars.drop 2)
    let text ← meaning? quote true (dropFirstLineEnd (lexeme ++ (takeQuotes quote after).1))
    some (text, true, (takeQuotes quote after).2)
  else do
    let (lexeme, after) ← cutAt? [quote] (quote = '\"') chars
    let text ← meaning? quote false lexeme
    some (text, false, after)

theorem length_of_quoted? {quote : Char} {chars text after : List Char} {multiline : Bool}
    (found : quoted? quote chars = some (text, multiline, after)) :
    after.length ≤ chars.length := by
  unfold quoted? at found
  split at found
  · simp only [Option.bind_eq_bind, Option.bind_eq_some_iff, Option.some.injEq, Prod.mk.injEq,
      Prod.exists] at found
    obtain ⟨_, back, cut, _, _, _, _, rfl⟩ := found
    have cutLength := length_of_cutAt? cut
    have quotesLength := length_takeQuotes_le quote back
    have := (List.drop_sublist 2 chars).length_le
    omega
  · simp only [Option.bind_eq_bind, Option.bind_eq_some_iff, Option.some.injEq, Prod.mk.injEq,
      Prod.exists] at found
    obtain ⟨_, back, cut, _, _, _, _, rfl⟩ := found
    exact length_of_cutAt? cut

end MemberStubs.Toml
