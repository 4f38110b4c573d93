namespace MemberStubs.Json

/-! How a text is written between the quotes of a string. Writing escapes the quote, the backslash
and the controls below the space, and nothing else. Reading knows every escape; a code unit of a
surrogate pair stands for nothing without its other half. -/

def hexEscape (c : Char) : List Char :=
  ['\\', 'u', '0', '0', Nat.digitChar (c.toNat / 16), Nat.digitChar (c.toNat % 16)]

def escapeChar (c : Char) : List Char :=
  match c with
  | '\"' => ['\\', '\"']
  | '\\' => ['\\', '\\']
  | '\n' => ['\\', 'n']
  | '\r' => ['\\', 'r']
  | '\t' => ['\\', 't']
  | '\x08' => ['\\', 'b']
  | '\x0c' => ['\\', 'f']
  | _ => if c.toNat < 0x20 then hexEscape c else [c]

def escape (text : List Char) : List Char :=
  text.flatMap escapeChar

example : escape ['a', '\"', '\x1f', 'é'] = "a\\\"\\u001fé".toList := by decide

inductive CodeUnit where
  | char (c : Char)
  | high (value : Nat)
  | low (value : Nat)
  deriving DecidableEq, Repr

def hexDigit? (c : Char) : Option Nat :=
  if c.isDigit then some (c.toNat - '0'.toNat)
  else if 'a' ≤ c ∧ c ≤ 'f' then some (c.toNat - 'a'.toNat + 10)
  else if 'A' ≤ c ∧ c ≤ 'F' then some (c.toNat - 'A'.toNat + 10)
  else none

def hexValue? (digits : List Char) : Option Nat :=
  digits.foldlM (fun value digit => (hexDigit? digit).map (16 * value + ·)) 0

def codeUnit (value : Nat) : CodeUnit :=
  if 0xD800 ≤ value ∧ value < 0xDC00 then .high value
  else if 0xDC00 ≤ value ∧ value < 0xE000 then .low value
  else .char (Char.ofNat value)

def simpleEscape? : Char → Option Char
  | '\"' => some '\"'
  | '\\' => some '\\'
  | '/' => some '/'
  | 'b' => some '\x08'
  | 'f' => some '\x0c'
  | 'n' => some '\n'
  | 'r' => some '\r'
  | 't' => some '\t'
  | _ => none

def codeUnits? : List Char → Option (List CodeUnit)
  | [] => some []
  | '\\' :: 'u' :: a :: b :: c :: d :: rest => do
      let value ← hexValue? [a, b, c, d]
      let units ← codeUnits? rest
      some (codeUnit value :: units)
  | '\\' :: c :: rest => do
      let plain ← simpleEscape? c
      let units ← codeUnits? rest
      some (.char plain :: units)
  | c :: rest => do
      let units ← codeUnits? rest
      some (.char c :: units)

def joinSurrogates? : List CodeUnit → Option (List Char)
  | [] => some []
  | .char c :: rest => (joinSurrogates? rest).map (c :: ·)
  | .high high :: .low low :: rest =>
      let code := 0x10000 + (high - 0xD800) * 0x400 + (low - 0xDC00)
      (joinSurrogates? rest).map (Char.ofNat code :: ·)
  | _ => none

def unescape? (lexeme : List Char) : Option (List Char) :=
  (codeUnits? lexeme).bind joinSurrogates?

example : unescape? "\\ud83d\\ude00\\/".toList = some ['😀', '/'] := by decide

example : unescape? "\\ud83d".toList = none := by decide

/-- The lexeme that follows an opening quote, and what stands behind its closing quote. Controls
must be escaped, and every backslash must begin an escape. -/
def stringLexeme? : List Char → Option (List Char × List Char)
  | [] => none
  | '\"' :: rest => some ([], rest)
  | '\\' :: 'u' :: a :: b :: c :: d :: rest => do
      let _ ← hexValue? [a, b, c, d]
      let (lexeme, after) ← stringLexeme? rest
      some ('\\' :: 'u' :: a :: b :: c :: d :: lexeme, after)
  | '\\' :: c :: rest => do
      let _ ← simpleEscape? c
      let (lexeme, after) ← stringLexeme? rest
      some ('\\' :: c :: lexeme, after)
  | c :: rest =>
      if c.toNat < 0x20 then none
      else do
        let (lexeme, after) ← stringLexeme? rest
        some (c :: lexeme, after)

theorem length_of_stringLexeme? {chars lexeme after : List Char}
    (found : stringLexeme? chars = some (lexeme, after)) : after.length < chars.length := by
  fun_induction stringLexeme? chars generalizing lexeme after with
  | case1 => cases found
  | case2 rest => cases found; simp
  | case3 a b c d rest induction =>
      simp only [Option.bind_eq_bind, Option.bind_eq_some_iff, Option.some.injEq, Prod.mk.injEq,
        Prod.exists] at found
      obtain ⟨_, _, _, back, inner, _, rfl⟩ := found
      have := induction inner
      simp
      omega
  | case4 c rest _ induction =>
      simp only [Option.bind_eq_bind, Option.bind_eq_some_iff, Option.some.injEq, Prod.mk.injEq,
        Prod.exists] at found
      obtain ⟨_, _, _, back, inner, _, rfl⟩ := found
      have := induction inner
      simp
      omega
  | case5 c rest _ _ _ _ => cases found
  | case6 c rest _ _ _ _ induction =>
      simp only [Option.bind_eq_bind, Option.bind_eq_some_iff, Option.some.injEq, Prod.mk.injEq,
        Prod.exists] at found
      obtain ⟨_, back, inner, _, rfl⟩ := found
      have := induction inner
      simp
      omega

end MemberStubs.Json
