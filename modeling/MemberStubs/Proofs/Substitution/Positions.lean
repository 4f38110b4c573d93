import MemberStubs.Proofs.TypeText.Positions
import MemberStubs.Substitution

/-! A substitution by positions. A hole of a template is cut out and scanned as a text of its own,
which a check allows only if it is shorter than the text around it. The scan runs into no fault,
whatever the text, and it writes what the pieces of the text become. -/

namespace MemberStubs.Substitution

open TypeText TypeText.Positions

variable {chars : Array Char} {position : Nat} {rest : List Char} {substitution : Substitution}
  {call : Array Char → Checked (List Char)}

/-! ## Templates -/

def templateTurn (chars : Array Char) (call : Array Char → Checked (List Char))
    (position : Nat) (out : List Char) : Checked (Turn (List Char) (Nat × List Char)) := do
  let c ← charAt chars position
  if c = '\\' then
    let escaped ← slice chars position (min (position + 2) chars.size)
    return .onward (min (position + 2) chars.size) (out ++ escaped.toList)
  else if c = backquote then return .leave (position + 1, out ++ [backquote])
  else if c = '$' ∧ chars[position + 1]? = some '\x7b' then
    let close ← holeEnd chars (position + 2)
    let inside ← call (← slice chars (position + 2) close)
    return .onward (close + 1)
      (out ++ ('$' :: '\x7b' :: inside ++ if close < chars.size then ['\x7d'] else []))
  else return .onward (position + 1) (out ++ [c])

/-- Copies the template that starts at a position, with its holes scanned, and gives the position
behind it. -/
def copyTemplate (chars : Array Char) (call : Array Char → Checked (List Char))
    (start : Nat) (out : List Char) : Checked (Nat × List Char) :=
  loop chars.size (templateTurn chars call) (fun _ out => (chars.size, out)) (start + 1)
    (out ++ [backquote])

/-- What the parts of a template become. -/
def partsText (substitution : Substitution) (parts : List TemplatePart) : List Char :=
  (parts.flatMap TemplatePart.pieces).flatMap substitution.pieceText

private theorem partsText_nil : substitution.partsText [] = [] := rfl

private theorem partsText_text (chars : List Char) (parts : List TemplatePart) :
    substitution.partsText (.text chars :: parts) = chars ++ substitution.partsText parts := by
  simp [partsText, TemplatePart.pieces, pieceText]

private theorem partsText_hole (chars : List Char) (parts : List TemplatePart) :
    substitution.partsText (.hole chars :: parts) =
      (piecesFrom {} chars).flatMap substitution.pieceText ++ substitution.partsText parts := by
  simp [partsText, TemplatePart.pieces]

private theorem templateTurn_hole (faces : Faces chars position ('$' :: '\x7b' :: rest))
    {text : List Char} (scans : call (splitHole 0 rest).1.toArray = .ok text) (out : List Char) :
    ∃ close, position < close ∧ Faces chars close (splitHole 0 rest).2 ∧
      templateTurn chars call position out = .ok (.onward (close + 1)
        (out ++ ('$' :: '\x7b' :: text ++ if close < chars.size then ['\x7d'] else []))) := by
  rcases exists_holeEnd faces.tail.tail with ⟨close, closes, ends⟩
  have whole := splitHole_append 0 rest
  have ahead := faces.tail.tail.le_of_append whole ends
  have inside := faces.tail.tail
  rw [← whole] at inside
  refine ⟨close, by omega, ends, ?_⟩
  rw [templateTurn, faces.charAt, ok_bind, if_neg (by decide), if_neg (by decide),
    if_pos ⟨rfl, faces.tail.getElem?⟩, closes, ok_bind, inside.slice _ ends, ok_bind, scans]
  rfl

private theorem templateTurn_other {c : Char} (faces : Faces chars position (c :: rest))
    (escapes : ∀ d later, c = '\\' → rest = d :: later → False)
    (opens : ∀ later, c = '$' → rest = '\x7b' :: later → False) (other : c ≠ backquote)
    (out : List Char) :
    templateTurn chars call position out = .ok (.onward (position + 1) (out ++ [c])) := by
  rw [templateTurn, faces.charAt, ok_bind]
  by_cases backslash : c = '\\'
  · -- A backslash that nothing follows.
    cases rest with
    | cons d later => exact (escapes d later backslash rfl).elim
    | nil =>
        have last := faces.tail.eq_size
        rw [if_pos backslash, Nat.min_eq_right (by omega), ← last, faces.slice [c] faces.tail]
        rfl
  · have plain : ¬ (c = '$' ∧ chars[position + 1]? = some '\x7b') := by
      rintro ⟨dollar, brace⟩
      rw [faces.tail.getElem?] at brace
      rcases List.head?_eq_some_iff.mp brace with ⟨later, same⟩
      exact opens later dollar same
    rw [if_neg backslash, if_neg other, if_neg plain]
    rfl

private theorem loop_templateTurn (faces : Faces chars position rest)
    (scans : ∀ hole, .hole hole ∈ (splitTemplate rest).1 →
      call hole.toArray = .ok ((piecesFrom {} hole).flatMap substitution.pieceText))
    (out : List Char) :
    ∃ stop, loop chars.size (templateTurn chars call) (fun _ out => (chars.size, out))
        position out = .ok (stop, out ++ substitution.partsText (splitTemplate rest).1) ∧
      Faces chars stop (splitTemplate rest).2 := by
  fun_induction splitTemplate rest generalizing position out with
  | case1 =>
      rw [loop_of_end faces.eq_size.ge]
      exact ⟨_, by simp [partsText], faces.eq_size ▸ faces⟩
  | case2 c rest parts after split induction =>
      have room := faces.tail.lt_size
      have went : templateTurn chars call position out =
          .ok (.onward (position + 2) (out ++ ['\\', c])) := by
        rw [templateTurn, faces.charAt, ok_bind, if_pos rfl, Nat.min_eq_left (by omega),
          faces.slice ['\\', c] faces.tail.tail]
        rfl
      rw [loop_of_onward faces.lt_size went (by omega)]
      simp only [split] at induction
      simpa [partsText_text] using induction faces.tail.tail
        (fun hole member => scans hole (by simp [member])) (out ++ ['\\', c])
  | case3 rest hole split =>
      have text := scans hole (by simp)
      rcases templateTurn_hole faces (by rwa [split]) out with ⟨close, ahead, ends, went⟩
      rw [split] at ends
      have last := ends.eq_size
      rw [loop_of_onward faces.lt_size went (by omega), loop_of_end (by omega), if_neg (by omega)]
      exact ⟨_, by simp [partsText_text, partsText_hole, partsText_nil], ends.eq_size ▸ ends⟩
  | case4 rest hole close later outside parts after split induction =>
      have text := scans hole (by simp)
      rcases templateTurn_hole faces (by rwa [outside]) out with ⟨stop, ahead, ends, went⟩
      rw [outside] at ends
      have closing : close = '\x7d' := by
        rcases splitHole_cases 0 rest with ⟨whole, _⟩ | ⟨_, _, found, _⟩
        · rw [outside] at whole
          cases whole
        · rw [outside] at found
          cases found
          rfl
      rw [loop_of_onward faces.lt_size went (by omega), if_pos ends.lt_size]
      simp only [split] at induction
      simpa [partsText_text, partsText_hole, closing] using induction ends.tail
        (fun hole member => scans hole (by simp [member]))
        (out ++ ('$' :: '\x7b' :: (piecesFrom {} hole).flatMap substitution.pieceText ++ ['\x7d']))
  | case5 rest escapes opens =>
      refine ⟨_, loop_of_leave faces.lt_size ?_, faces.tail⟩
      rw [templateTurn, faces.charAt, ok_bind, if_neg (by decide), if_pos rfl, partsText_text,
        partsText_nil]
      rfl
  | case6 c rest escapes opens other parts after split induction =>
      rw [loop_of_onward faces.lt_size (templateTurn_other faces escapes opens other out) (by omega)]
      simp only [split] at induction
      simpa [partsText_text] using induction faces.tail
        (fun hole member => scans hole (by simp [member])) (out ++ [c])

/-! ## Names -/

def replacementAt (replacement : String) (beforeBracket : Bool) : Checked (List Char) :=
  if beforeBracket then do
    let weak ← Positions.needsParentheses replacement.toList.toArray
    return if weak then '(' :: replacement.toList ++ [')'] else replacement.toList
  else return replacement.toList

def isKey (chars : Array Char) (context : Context) (stop : Nat) : Checked Bool :=
  if context.isKeyPosition then isAscribed chars stop else return false

/-- What a name becomes that ends at a position. -/
def nameText (substitution : Substitution) (chars : Array Char) (context : Context)
    (name : List Char) (stop : Nat) : Checked (List Char) := do
  let next ← visibleChar? chars stop
  let keyed ← isKey chars context stop
  match substitution.lookup? (String.ofList name) with
  | some replacement =>
      if context.isQualified || keyed then return name
      else replacementAt replacement (next = some '[')
  | none => return name

theorem replacementAt_eq (replacement : String) (beforeBracket : Bool) :
    replacementAt replacement beforeBracket = .ok (replacementText replacement beforeBracket) := by
  cases beforeBracket with
  | false => rfl
  | true =>
      rw [replacementAt, if_pos rfl, needsParentheses_eq]
      rfl

theorem isKey_eq (context : Context) (faces : Faces chars position rest) :
    isKey chars context position =
      .ok (context.isKeyPosition && startsAscription rest) := by
  rw [isKey]
  cases context.isKeyPosition with
  | false => rfl
  | true => exact isAscribed_eq faces

theorem nameText_eq (context : Context) (name : List Char) (faces : Faces chars position rest) :
    substitution.nameText chars context name position =
      .ok (substitution.pieceText (namePiece context name rest)) := by
  rw [nameText, visibleChar?_eq faces, ok_bind, isKey_eq context faces, ok_bind, namePiece]
  by_cases kept : (context.isQualified ||
      (context.isKeyPosition && startsAscription rest)) = true
  · simp only [if_pos kept]
    cases substitution.lookup? (String.ofList name) <;> rfl
  · simp only [if_neg kept, pieceText]
    cases substitution.lookup? (String.ofList name) with
    | none => rfl
    | some replacement => exact replacementAt_eq ..

/-! ## Texts -/

structure ScanState where
  context : Context := {}
  out : List Char := []

def scanTurn (substitution : Substitution) (chars : Array Char)
    (call : Array Char → Checked (List Char)) (position : Nat) (state : ScanState) :
    Checked (Turn ScanState (List Char)) := do
  let c ← charAt chars position
  if c = backquote then
    let (stop, out) ← copyTemplate chars call position state.out
    return .onward stop ⟨state.context.after c, out⟩
  else if isQuote c then
    let stop ← skipQuoted chars position
    let quoted ← slice chars position stop
    return .onward stop ⟨state.context.after c, state.out ++ quoted.toList⟩
  else if isNameStart c then
    let stop ← nameEnd chars (position + 1)
    let name ← slice chars position stop
    let text ← substitution.nameText chars state.context name.toList stop
    let last ← charAt chars (stop - 1)
    return .onward stop ⟨state.context.after last, state.out ++ text⟩
  else return .onward (position + 1) ⟨state.context.afterMark c, state.out ++ [c]⟩

/-- The text is scanned from its start, and so is each hole that is cut out of it. -/
def scan (substitution : Substitution) (chars : Array Char) : Checked (List Char) :=
  let call := fun hole : Array Char =>
    if _shorter : hole.size < chars.size then substitution.scan hole
    else .error (.notShorter hole.size)
  loop chars.size (substitution.scanTurn chars call) (fun _ state => state.out) 0 {}
termination_by chars.size

/-- How the scan of a text scans a hole that is cut out of it. -/
def scanHole (substitution : Substitution) (chars hole : Array Char) : Checked (List Char) :=
  if hole.size < chars.size then substitution.scan hole else .error (.notShorter hole.size)

theorem scanHole_of_shorter {hole : Array Char} (shorter : hole.size < chars.size) :
    substitution.scanHole chars hole = substitution.scan hole :=
  if_pos shorter

theorem scan_eq_loop (substitution : Substitution) (chars : Array Char) :
    substitution.scan chars =
      loop chars.size (substitution.scanTurn chars (substitution.scanHole chars))
        (fun _ state => state.out) 0 {} := by
  rw [scan]
  rfl

def applyByPosition (substitution : Substitution) (text : String) : Checked String :=
  if substitution.isEmpty then return text
  else return String.ofList (← substitution.scan text.toList.toArray)

theorem exists_copyTemplate {c : Char} (faces : Faces chars position (c :: rest))
    (scans : ∀ hole : List Char, hole.length < chars.size →
      call hole.toArray = .ok ((piecesFrom {} hole).flatMap substitution.pieceText))
    (out : List Char) :
    ∃ stop, copyTemplate chars call position out =
        .ok (stop, out ++ backquote :: substitution.partsText (splitTemplate rest).1) ∧
      Faces chars stop (splitTemplate rest).2 := by
  have shorter : ∀ hole, .hole hole ∈ (splitTemplate rest).1 → hole.length < chars.size := by
    intro hole member
    have inside := length_hole_le member
    have size := faces.tail.size_eq
    omega
  rcases loop_templateTurn faces.tail (fun hole member => scans hole (shorter hole member))
    (out ++ [backquote]) with ⟨stop, runs, ends⟩
  exact ⟨stop, by rw [copyTemplate, runs, List.append_assoc]; rfl, ends⟩

/-! A turn by what the position faces. -/

private theorem scanTurn_template
    (faces : Faces chars position (backquote :: rest))
    (scans : ∀ hole : List Char, hole.length < chars.size →
      call hole.toArray = .ok ((piecesFrom {} hole).flatMap substitution.pieceText))
    (context : Context) (out : List Char) :
    ∃ stop, position < stop ∧ Faces chars stop (splitTemplate rest).2 ∧
      substitution.scanTurn chars call position ⟨context, out⟩ =
        .ok (.onward stop ⟨context.after backquote,
          out ++ backquote :: substitution.partsText (splitTemplate rest).1⟩) := by
  rcases exists_copyTemplate faces scans out with ⟨stop, copies, ends⟩
  refine ⟨stop, faces.tail.le_of_append (splitTemplate_append rest) ends, ends, ?_⟩
  rw [scanTurn, faces.charAt, ok_bind, if_pos rfl, copies]
  rfl

private theorem scanTurn_quoted {quote : Char} (faces : Faces chars position (quote :: rest))
    (quotes : isQuote quote = true) (plain : quote ≠ backquote) (context : Context)
    (out : List Char) :
    ∃ stop, position < stop ∧ Faces chars stop (splitQuoted quote rest).2 ∧
      substitution.scanTurn chars call position ⟨context, out⟩ =
        .ok (.onward stop ⟨context.after quote, out ++ quote :: (splitQuoted quote rest).1⟩) := by
  rcases exists_skipQuoted faces with ⟨stop, skips, ends⟩
  refine ⟨stop, faces.tail.le_of_append (splitQuoted_append quote rest) ends, ends, ?_⟩
  have whole := faces
  rw [← splitQuoted_append quote rest] at whole
  rw [scanTurn, faces.charAt, ok_bind, if_neg plain, if_pos quotes, skips, ok_bind,
    whole.slice (quote :: (splitQuoted quote rest).1) ends]
  rfl

private theorem scanTurn_name {name behind : List Char}
    (faces : Faces chars position (name ++ behind)) (isName : IsName name)
    (ends : EndsName behind) (context : Context) (out : List Char) :
    ∃ stop, position < stop ∧ Faces chars stop behind ∧
      substitution.scanTurn chars call position ⟨context, out⟩ =
        .ok (.onward stop ⟨context.after (name.getLastD '_'),
          out ++ substitution.pieceText (namePiece context name behind)⟩) := by
  cases name with
  | nil => exact isName.elim
  | cons c others =>
      rw [List.cons_append] at faces
      rcases exists_nameEnd faces.tail with ⟨stop, found, reached⟩
      rw [dropWhile_append_of_endsName isName.2 ends] at reached
      refine ⟨stop, faces.tail.le_of_append rfl reached, reached, ?_⟩
      have part := isNamePart_of_isNameStart isName.1
      rw [scanTurn, faces.charAt, ok_bind, if_neg (ne_of_isNamePart part (by decide)),
        if_neg (by simp [isQuote_of_isNamePart part]), if_pos isName.1, found, ok_bind,
        faces.slice (c :: others) reached, ok_bind, nameText_eq context (c :: others) reached,
        ok_bind, faces.charAt_last (c :: others) reached (by simp) '_']
      rfl

private theorem scanTurn_mark {mark : Char} (faces : Faces chars position (mark :: rest))
    (marks : isMark mark = true) (context : Context) (out : List Char) :
    substitution.scanTurn chars call position ⟨context, out⟩ =
      .ok (.onward (position + 1) ⟨context.afterMark mark, out ++ [mark]⟩) := by
  have unquoted : ¬ isQuote mark = true := by simp [isQuote_of_isMark marks]
  have unnamed : ¬ isNameStart mark = true := by simp [isNameStart_of_isMark marks]
  rw [scanTurn, faces.charAt, ok_bind, if_neg (ne_backquote_of_isMark marks), if_neg unquoted,
    if_neg unnamed]
  rfl

/-- The scan of a text from a position on, its holes being scanned as they should be. -/
theorem loop_scanTurn
    (scans : ∀ hole : List Char, hole.length < chars.size →
      call hole.toArray = .ok ((piecesFrom {} hole).flatMap substitution.pieceText))
    (context : Context) (faces : Faces chars position rest) (out : List Char) :
    loop chars.size (substitution.scanTurn chars call) (fun _ state => state.out) position
        ⟨context, out⟩ =
      .ok (out ++ (piecesFrom context rest).flatMap substitution.pieceText) := by
  induction context, rest using scan_induction generalizing position out with
  | nil =>
      rw [loop_of_end faces.eq_size.ge, piecesFrom_nil, List.flatMap_nil, List.append_nil]
  | template context rest holes induction =>
      rcases scanTurn_template faces scans context out with ⟨stop, ahead, ends, went⟩
      rw [loop_of_onward faces.lt_size went ahead, induction ends, piecesFrom_template]
      simp [pieceText, partsText]
  | quoted context quote rest quotes plain induction =>
      rcases scanTurn_quoted faces quotes plain context out with ⟨stop, ahead, ends, went⟩
      rw [loop_of_onward faces.lt_size went ahead, induction ends,
        piecesFrom_quoted context quotes plain]
      simp [pieceText]
  | name context name behind isName ends induction =>
      rcases scanTurn_name faces isName ends context out with ⟨stop, ahead, reached, went⟩
      have inside : position < chars.size := ahead.trans_le reached.1
      rw [loop_of_onward inside went ahead, induction reached, piecesFrom_name context isName ends,
        List.flatMap_cons, List.append_assoc]
  | mark context mark rest marks induction =>
      rw [loop_of_onward faces.lt_size (scanTurn_mark faces marks context out) (by omega),
        induction faces.tail, piecesFrom_mark context marks]
      simp [pieceText]

theorem scan_eq (substitution : Substitution) (chars : Array Char) :
    substitution.scan chars =
      .ok ((piecesFrom {} chars.toList).flatMap substitution.pieceText) := by
  rw [scan_eq_loop]
  -- The holes are shorter, which is what the recursion is on.
  refine loop_scanTurn (fun hole shorter => ?_) {} (Faces.start chars) []
  exact (scanHole_of_shorter shorter).trans (scan_eq substitution hole.toArray)
termination_by chars.size

theorem applyByPosition_eq (substitution : Substitution) (text : String) :
    substitution.applyByPosition text = .ok (substitution.apply text) := by
  rw [applyByPosition, apply]
  split
  · rfl
  · rw [scan_eq]
    rfl

/-! ## Freedom of faults -/

/-- Every part of the scan, begun wherever in a text it can begin, runs into no fault. It stops
inside of the text, ahead of where it began, and what is left behind it is what the text is split
into there. -/
structure StaysInside (substitution : Substitution) (chars : Array Char) : Prop where
  skipsQuoted : ∀ start quote, chars[start]? = some quote →
    ∃ stop, skipQuoted chars start = .ok stop ∧ start < stop ∧
      Faces chars stop (splitQuoted quote (chars.toList.drop (start + 1))).2
  closesHole : ∀ first, first ≤ chars.size →
    ∃ stop, holeEnd chars first = .ok stop ∧ first ≤ stop ∧
      Faces chars stop (splitHole 0 (chars.toList.drop first)).2
  /-- Also from a position behind the end. -/
  seesAscription : ∀ position,
    isAscribed chars position = .ok (startsAscription (chars.toList.drop position))
  copiesTemplate : ∀ start, start < chars.size → ∀ out,
    ∃ stop, copyTemplate chars (substitution.scanHole chars) start out =
        .ok (stop, out ++
          backquote :: substitution.partsText (splitTemplate (chars.toList.drop (start + 1))).1) ∧
      start < stop ∧ Faces chars stop (splitTemplate (chars.toList.drop (start + 1))).2
  scans : substitution.scan chars =
    .ok ((piecesFrom {} chars.toList).flatMap substitution.pieceText)

/-- A substitution is applied to every text without a fault: no character is read and no slice is
cut out that is not inside of the text, each turn of each loop gets ahead, and each hole is shorter
than the text it is cut from. Nothing is assumed of the text, so its quotes, templates and holes may
lack their ends and its brackets may be unbalanced. -/
theorem applyByPosition_total (substitution : Substitution) :
    (∀ chars, substitution.StaysInside chars) ∧
      ∀ text, substitution.applyByPosition text = .ok (substitution.apply text) := by
  refine ⟨fun chars => ?_, substitution.applyByPosition_eq⟩
  refine ⟨fun start quote found => ?_, fun first inside => ?_, fun position => ?_,
    fun start inside out => ?_, substitution.scan_eq chars⟩
  · have faces := Faces.of_getElem? found
    rcases exists_skipQuoted faces with ⟨stop, skips, ends⟩
    exact ⟨stop, skips, faces.tail.le_of_append (splitQuoted_append quote _) ends, ends⟩
  · have faces := Faces.of_le inside
    rcases exists_holeEnd faces with ⟨stop, closes, ends⟩
    exact ⟨stop, closes, faces.le_of_append (splitHole_append 0 _) ends, ends⟩
  · exact isAscribed_drop chars position
  · have faces := Faces.of_getElem? (Array.getElem?_eq_getElem inside)
    have scans (hole : List Char) (shorter : hole.length < chars.size) :
        substitution.scanHole chars hole.toArray =
          .ok ((piecesFrom {} hole).flatMap substitution.pieceText) :=
      (scanHole_of_shorter shorter).trans (substitution.scan_eq hole.toArray)
    rcases exists_copyTemplate faces scans out with ⟨stop, copies, ends⟩
    exact ⟨stop, copies, faces.tail.le_of_append (splitTemplate_append _) ends, ends⟩

example : applyByPosition ⟨[("T", "U")]⟩ "T[ | `$\x7b\"T | `$\x7bT\\" =
    .ok "U[ | `$\x7b\"T | `$\x7bT\\" := by
  rw [applyByPosition_eq]
  decide +kernel

end MemberStubs.Substitution
