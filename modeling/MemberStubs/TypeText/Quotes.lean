import MemberStubs.Text.Numeric

namespace MemberStubs.TypeText

/-! Quoted parts of a type's text. A backslash takes the character behind it along, and a quote that
is never closed reaches to the end. Each function splits its text in two and loses nothing. -/

def backquote : Char := '\x60'

def isQuote (c : Char) : Bool :=
  c = '\"' || c = '\x27' || c = backquote

/-- What follows an opening quote, up to and with the closing one. -/
def splitQuoted (quote : Char) : List Char → List Char × List Char
  | [] => ([], [])
  | '\\' :: c :: rest =>
      let (quoted, after) := splitQuoted quote rest
      ('\\' :: c :: quoted, after)
  | ['\\'] => (['\\'], [])
  | c :: rest =>
      if c = quote then ([c], rest)
      else
        let (quoted, after) := splitQuoted quote rest
        (c :: quoted, after)

theorem splitQuoted_append (quote : Char) (chars : List Char) :
    (splitQuoted quote chars).1 ++ (splitQuoted quote chars).2 = chars := by
  fun_induction splitQuoted quote chars <;> simp_all

theorem length_splitQuoted_le (quote : Char) (chars : List Char) :
    (splitQuoted quote chars).2.length ≤ chars.length := by
  have joined := congrArg List.length (splitQuoted_append quote chars)
  simp only [List.length_append] at joined
  omega

/-! A hole of a template reaches up to the brace that closes it. Inside, every kind of quote hides
the braces behind it. -/

def splitHole (depth : Nat) : List Char → List Char × List Char
  | [] => ([], [])
  | c :: rest =>
      if isQuote c then
        let (hole, outside) := splitHole depth (splitQuoted c rest).2
        (c :: (splitQuoted c rest).1 ++ hole, outside)
      else if c = '\x7d' ∧ depth = 0 then ([], c :: rest)
      else
        let inner := if c = '\x7b' then depth + 1 else if c = '\x7d' then depth - 1 else depth
        let (hole, outside) := splitHole inner rest
        (c :: hole, outside)
termination_by chars => chars.length
decreasing_by
  · have := length_splitQuoted_le c rest
    simp only [List.length_cons]
    omega
  · simp

theorem splitHole_append (depth : Nat) (chars : List Char) :
    (splitHole depth chars).1 ++ (splitHole depth chars).2 = chars := by
  fun_induction splitHole depth chars with
  | case1 => rfl
  | case2 depth c rest _ hole outside split induction =>
      have := splitQuoted_append c rest
      simp_all
  | case3 => rfl
  | case4 depth c rest _ _ inner hole outside split induction => simp_all

theorem length_splitHole (depth : Nat) (chars : List Char) :
    (splitHole depth chars).1.length + (splitHole depth chars).2.length = chars.length := by
  have joined := congrArg List.length (splitHole_append depth chars)
  simpa using joined

/-! A template consists of text that stays as it is, delimiters included, and of holes. -/

inductive TemplatePart where
  | text (chars : List Char)
  | hole (chars : List Char)
  deriving DecidableEq, Repr

def TemplatePart.chars : TemplatePart → List Char
  | .text chars => chars
  | .hole chars => chars

/-- What follows an opening backquote, up to and with the closing one. -/
def splitTemplate : List Char → List TemplatePart × List Char
  | [] => ([], [])
  | '\\' :: c :: rest =>
      let (parts, after) := splitTemplate rest
      (.text ['\\', c] :: parts, after)
  | '$' :: '\x7b' :: rest =>
      match _outside : splitHole 0 rest with
      | (hole, []) => ([.text ['$', '\x7b'], .hole hole], [])
      | (hole, close :: later) =>
          let (parts, after) := splitTemplate later
          (.text ['$', '\x7b'] :: .hole hole :: .text [close] :: parts, after)
  | c :: rest =>
      if c = backquote then ([.text [c]], rest)
      else
        let (parts, after) := splitTemplate rest
        (.text [c] :: parts, after)
termination_by chars => chars.length
decreasing_by
  · simp only [List.length_cons]
    omega
  · have := length_splitHole 0 rest
    simp only [_outside, List.length_cons] at this ⊢
    omega
  · simp

theorem splitTemplate_append (chars : List Char) :
    (splitTemplate chars).1.flatMap TemplatePart.chars ++ (splitTemplate chars).2 = chars := by
  fun_induction splitTemplate chars with
  | case1 => rfl
  | case2 c rest parts after split induction => simp_all [TemplatePart.chars]
  | case3 rest hole split =>
      have := splitHole_append 0 rest
      simp_all [TemplatePart.chars]
  | case4 rest hole close later outside parts after split induction =>
      have joined := splitHole_append 0 rest
      simp_all [TemplatePart.chars]
  | case5 => simp_all [TemplatePart.chars]
  | case6 => simp_all [TemplatePart.chars]

end MemberStubs.TypeText
