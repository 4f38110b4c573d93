import MemberStubs.Proofs.TypeText.Rescan
import MemberStubs.Proofs.TypeText.Scan
import MemberStubs.TypeText.Operators

/-! The scan of a text by positions. A text is an array of characters, and each loop goes through it
from a position to its end. Nothing keeps the loops in order but a check wherever one could go
wrong: what is read or cut out must lie inside of the text, and each turn must get ahead of where it
began. A loop that runs into no fault therefore ends, and it would run in the same way without the
checks. The main statements say that every loop is free of faults and stops where the text is split
that it faces. -/

namespace MemberStubs.TypeText.Positions

inductive Fault where
  | noCharacter (position : Nat)
  | noSlice (first stop : Nat)
  /-- A turn leads to a position that is not ahead of its own. -/
  | noAdvance (position : Nat)
  /-- A part to be scanned is not shorter than the text it was cut from. -/
  | notShorter (size : Nat)
  deriving DecidableEq, Repr

abbrev Checked := Except Fault

theorem ok_bind (value : α) (next : α → Checked β) : (Except.ok value >>= next) = next value := rfl

def charAt (chars : Array Char) (position : Nat) : Checked Char :=
  match chars[position]? with
  | some c => .ok c
  | none => .error (.noCharacter position)

def slice (chars : Array Char) (first stop : Nat) : Checked (Array Char) :=
  if first ≤ stop ∧ stop ≤ chars.size then .ok (chars.extract first stop)
  else .error (.noSlice first stop)

/-! ## Loops -/

inductive Turn (State Result : Type) where
  | onward (position : Nat) (state : State)
  | leave (result : Result)

section

variable {State Result : Type}

/-- Takes turns as long as the position is inside. -/
def loop (size : Nat) (turn : Nat → State → Checked (Turn State Result))
    (atEnd : Nat → State → Result) (position : Nat) (state : State) : Checked Result :=
  if position < size then
    match turn position state with
    | .error fault => .error fault
    | .ok (.leave result) => .ok result
    | .ok (.onward next state) =>
        if position < next then loop size turn atEnd next state
        else .error (.noAdvance position)
  else .ok (atEnd position state)
termination_by size - position

variable {size position next : Nat} {turn : Nat → State → Checked (Turn State Result)}
  {atEnd : Nat → State → Result} {state state' : State} {result : Result}

theorem loop_of_end (outside : size ≤ position) :
    loop size turn atEnd position state = .ok (atEnd position state) := by
  rw [loop, if_neg (Nat.not_lt.mpr outside)]

theorem loop_of_leave (inside : position < size)
    (left : turn position state = .ok (.leave result)) :
    loop size turn atEnd position state = .ok result := by
  rw [loop, if_pos inside, left]

theorem loop_of_onward (inside : position < size)
    (went : turn position state = .ok (.onward next state')) (ahead : position < next) :
    loop size turn atEnd position state = loop size turn atEnd next state' := by
  rw [loop, if_pos inside, went]
  exact if_pos ahead

end

/-! ## What a position faces -/

/-- What follows a position up to the end of the text. -/
def Faces (chars : Array Char) (position : Nat) (rest : List Char) : Prop :=
  position ≤ chars.size ∧ chars.toList.drop position = rest

namespace Faces

variable {chars : Array Char} {position first stop : Nat} {c : Char} {rest : List Char}

theorem start (chars : Array Char) : Faces chars 0 chars.toList :=
  ⟨Nat.zero_le _, rfl⟩

theorem of_le (inside : position ≤ chars.size) :
    Faces chars position (chars.toList.drop position) :=
  ⟨inside, rfl⟩

theorem of_getElem? (found : chars[position]? = some c) :
    Faces chars position (c :: chars.toList.drop (position + 1)) := by
  rcases Array.getElem?_eq_some_iff.mp found with ⟨inside, rfl⟩
  refine ⟨inside.le, ?_⟩
  rw [List.drop_eq_getElem_cons (by simpa using inside), Array.getElem_toList]

theorem size_eq (faces : Faces chars position rest) : position + rest.length = chars.size := by
  have inside := faces.1
  rw [← faces.2, List.length_drop, Array.length_toList]
  omega

theorem append (passed : List Char) (faces : Faces chars position (passed ++ rest)) :
    Faces chars (position + passed.length) rest := by
  have size := faces.size_eq
  rw [List.length_append] at size
  refine ⟨by omega, ?_⟩
  rw [← List.drop_drop, faces.2, List.drop_left]

theorem tail (faces : Faces chars position (c :: rest)) : Faces chars (position + 1) rest :=
  append [c] faces

theorem lt_size (faces : Faces chars position (c :: rest)) : position < chars.size := by
  have size := faces.size_eq
  rw [List.length_cons] at size
  omega

theorem eq_size (faces : Faces chars position []) : position = chars.size :=
  faces.size_eq

theorem getElem? (faces : Faces chars position rest) : chars[position]? = rest.head? := by
  rw [← Array.getElem?_toList, ← List.head?_drop, faces.2]

theorem charAt (faces : Faces chars position (c :: rest)) : charAt chars position = .ok c := by
  rw [Positions.charAt, faces.getElem?]
  rfl

theorem slice (passed : List Char) (faces : Faces chars first (passed ++ rest))
    (ends : Faces chars stop rest) :
    slice chars first stop = .ok passed.toArray := by
  have size := faces.size_eq
  have size' := ends.size_eq
  rw [List.length_append] at size
  have length : stop - first = passed.length := by omega
  rw [Positions.slice, if_pos ⟨by omega, ends.1⟩]
  congr 1
  apply Array.toList_inj.mp
  rw [Array.toList_extract, List.extract_eq_take_drop, faces.2, length, List.take_left]

theorem le_of_append {passed later : List Char} (faces : Faces chars first rest)
    (whole : passed ++ later = rest) (ends : Faces chars stop later) : first ≤ stop := by
  have size := faces.size_eq
  have size' := ends.size_eq
  rw [← whole, List.length_append] at size
  omega

/-- What stands in front of a position is the last character that was passed on the way there. -/
theorem charAt_last (passed : List Char) (faces : Faces chars first (passed ++ rest))
    (ends : Faces chars stop rest) (nonempty : passed ≠ []) (default : Char) :
    Positions.charAt chars (stop - 1) = .ok (passed.getLastD default) := by
  have size := faces.size_eq
  have size' := ends.size_eq
  rcases List.eq_nil_or_concat passed with empty | ⟨front, last, rfl⟩
  · exact absurd empty nonempty
  · rw [List.concat_eq_append, List.append_assoc] at faces
    have place : stop - 1 = first + front.length := by
      simp only [List.concat_eq_append, List.length_append, List.length_singleton] at size
      omega
    rw [place, List.concat_eq_append, List.getLastD_concat]
    exact (faces.append front).charAt

end Faces

variable {chars : Array Char} {position : Nat} {c : Char} {rest : List Char}

/-! ## Quotes -/

/-- A backslash takes the next character along, which may lead past the end. -/
def quotedTurn (chars : Array Char) (quote : Char) (position : Nat) (_ : Unit) :
    Checked (Turn Unit Nat) := do
  let c ← charAt chars position
  return if c = '\\' then .onward (position + 2) ()
    else if c = quote then .leave (position + 1)
    else .onward (position + 1) ()

/-- The position behind the quote that closes the one at the start, or the end. -/
def skipQuoted (chars : Array Char) (start : Nat) : Checked Nat := do
  let quote ← charAt chars start
  loop chars.size (quotedTurn chars quote) (fun _ _ => chars.size) (start + 1) ()

theorem quotedTurn_eq (faces : Faces chars position (c :: rest)) (quote : Char) :
    quotedTurn chars quote position () =
      .ok (if c = '\\' then .onward (position + 2) ()
        else if c = quote then .leave (position + 1)
        else .onward (position + 1) ()) := by
  rw [quotedTurn, faces.charAt]
  rfl

private theorem loop_quotedTurn (faces : Faces chars position rest) (quote : Char) :
    ∃ stop, loop chars.size (quotedTurn chars quote) (fun _ _ => chars.size) position () =
        .ok stop ∧
      Faces chars stop (splitQuoted quote rest).2 := by
  fun_induction splitQuoted quote rest generalizing position with
  | case1 =>
      rw [loop_of_end faces.eq_size.ge]
      exact ⟨_, rfl, faces.eq_size ▸ faces⟩
  | case2 c rest inner after split induction =>
      have went := (quotedTurn_eq faces quote).trans (by rw [if_pos rfl])
      rw [loop_of_onward faces.lt_size went (by omega)]
      simpa [split] using induction faces.tail.tail
  | case3 =>
      -- The character that the backslash takes along is behind the end.
      have went := (quotedTurn_eq faces quote).trans (by rw [if_pos rfl])
      have last := faces.tail.eq_size
      rw [loop_of_onward faces.lt_size went (by omega), loop_of_end (by omega)]
      exact ⟨_, rfl, last ▸ faces.tail⟩
  | case4 rest escapes alone =>
      have plain := ne_backslash_of_unescaped escapes alone
      refine ⟨_, loop_of_leave faces.lt_size ?_, faces.tail⟩
      rw [quotedTurn_eq faces, if_neg plain, if_pos rfl]
  | case5 c rest escapes alone other inner after split induction =>
      have plain := ne_backslash_of_unescaped escapes alone
      have went := (quotedTurn_eq faces quote).trans (by rw [if_neg plain, if_neg other])
      rw [loop_of_onward faces.lt_size went (by omega)]
      simpa [split] using induction faces.tail

theorem exists_skipQuoted {quote : Char} (faces : Faces chars position (quote :: rest)) :
    ∃ stop, skipQuoted chars position = .ok stop ∧ Faces chars stop (splitQuoted quote rest).2 := by
  rw [skipQuoted, faces.charAt, ok_bind]
  exact loop_quotedTurn faces.tail quote

/-! ## Holes -/

def holeTurn (chars : Array Char) (position depth : Nat) : Checked (Turn Nat Nat) := do
  let c ← charAt chars position
  if isQuote c then return .onward (← skipQuoted chars position) depth
  else if c = '\x7d' ∧ depth = 0 then return .leave position
  else
    return .onward (position + 1)
      (if c = '\x7b' then depth + 1 else if c = '\x7d' then depth - 1 else depth)

/-- The position of the brace that closes the hole, or the end. -/
def holeEnd (chars : Array Char) (first : Nat) : Checked Nat :=
  loop chars.size (holeTurn chars) (fun _ _ => chars.size) first 0

private theorem loop_holeTurn (faces : Faces chars position rest) (depth : Nat) :
    ∃ stop, loop chars.size (holeTurn chars) (fun _ _ => chars.size) position depth = .ok stop ∧
      Faces chars stop (splitHole depth rest).2 := by
  fun_induction splitHole depth rest generalizing position with
  | case1 =>
      rw [loop_of_end faces.eq_size.ge]
      exact ⟨_, rfl, faces.eq_size ▸ faces⟩
  | case2 depth c rest quotes hole outside split induction =>
      rcases exists_skipQuoted faces with ⟨behind, skips, ends⟩
      have went : holeTurn chars position depth = .ok (.onward behind depth) := by
        rw [holeTurn, faces.charAt, ok_bind, if_pos quotes, skips]
        rfl
      have ahead : position < behind := faces.tail.le_of_append (splitQuoted_append c rest) ends
      rw [loop_of_onward faces.lt_size went ahead]
      simpa [split] using induction ends
  | case3 depth c rest quotes closes =>
      refine ⟨_, loop_of_leave faces.lt_size ?_, faces⟩
      rw [holeTurn, faces.charAt, ok_bind, if_neg quotes, if_pos closes]
      rfl
  | case4 depth c rest quotes stays inner hole outside split =>
      rename_i induction
      have went : holeTurn chars position depth = .ok (.onward (position + 1) inner) := by
        rw [holeTurn, faces.charAt, ok_bind, if_neg quotes, if_neg stays]
        rfl
      rw [loop_of_onward faces.lt_size went (by omega)]
      simpa [split] using induction faces.tail

theorem exists_holeEnd (faces : Faces chars position rest) :
    ∃ stop, holeEnd chars position = .ok stop ∧ Faces chars stop (splitHole 0 rest).2 :=
  loop_holeTurn faces 0

/-! ## Ascriptions -/

def blankTurn (chars : Array Char) (position : Nat) (_ : Unit) :
    Checked (Turn Unit (Option Nat)) := do
  let c ← charAt chars position
  return if Text.isBlank c then .onward (position + 1) () else .leave (some position)

/-- The position of the first character that is not blank. -/
def nextVisible? (chars : Array Char) (position : Nat) : Checked (Option Nat) :=
  loop chars.size (blankTurn chars) (fun _ _ => none) position ()

def visibleChar? (chars : Array Char) (position : Nat) : Checked (Option Char) := do
  match ← nextVisible? chars position with
  | none => return none
  | some place => return some (← charAt chars place)

def isAscribed (chars : Array Char) (position : Nat) : Checked Bool := do
  match ← nextVisible? chars position with
  | none => return false
  | some place =>
      let c ← charAt chars place
      if c = ':' then return true
      else if c = '?' then return (← visibleChar? chars (place + 1)) = some ':'
      else return false

theorem nextVisible?_cases (faces : Faces chars position rest) :
    nextVisible? chars position = .ok none ∧ Text.trimStart rest = [] ∨
      ∃ place c later, nextVisible? chars position = .ok (some place) ∧
        Text.trimStart rest = c :: later ∧ Faces chars place (c :: later) := by
  induction rest generalizing position with
  | nil => exact .inl ⟨loop_of_end faces.eq_size.ge, rfl⟩
  | cons c rest induction =>
      have turn : blankTurn chars position () =
          .ok (if Text.isBlank c then .onward (position + 1) () else .leave (some position)) := by
        rw [blankTurn, faces.charAt]
        rfl
      rw [nextVisible?, Text.trimStart, List.dropWhile_cons]
      by_cases blank : Text.isBlank c = true
      · rw [if_pos blank] at turn
        rw [loop_of_onward faces.lt_size turn (by omega), if_pos blank]
        exact induction faces.tail
      · rw [if_neg blank] at turn
        rw [loop_of_leave faces.lt_size turn, if_neg blank]
        exact .inr ⟨position, c, rest, rfl, rfl, faces⟩

theorem visibleChar?_eq (faces : Faces chars position rest) :
    visibleChar? chars position = .ok (Text.nextVisible? rest) := by
  rw [visibleChar?, Text.nextVisible?]
  rcases nextVisible?_cases faces with ⟨found, blank⟩ | ⟨place, c, later, found, visible, ends⟩
  · rw [found, blank]
    rfl
  · rw [found, visible, ok_bind]
    show (charAt chars place >>= fun c => pure (some c)) = _
    rw [ends.charAt]
    rfl

theorem isAscribed_eq (faces : Faces chars position rest) :
    isAscribed chars position = .ok (startsAscription rest) := by
  rw [isAscribed, startsAscription]
  rcases nextVisible?_cases faces with ⟨found, blank⟩ | ⟨place, c, later, found, visible, ends⟩
  · rw [found, blank]
    rfl
  · rw [found, visible, ok_bind]
    show (charAt chars place >>= fun c => _) = _
    rw [ends.charAt, ok_bind]
    by_cases colon : c = ':'
    · subst colon
      rfl
    · by_cases optional : c = '?'
      · subst optional
        rw [if_neg colon, if_pos rfl, visibleChar?_eq ends.tail]
        rfl
      · rw [if_neg colon, if_neg optional]
        split
        · next same => exact absurd (List.cons.inj same).1 colon
        · next same => exact absurd (List.cons.inj same).1 optional
        · rfl

theorem isAscribed_drop (chars : Array Char) (position : Nat) :
    isAscribed chars position = .ok (startsAscription (chars.toList.drop position)) := by
  by_cases inside : position ≤ chars.size
  · exact isAscribed_eq (Faces.of_le inside)
  · have outside : chars.size ≤ position := by omega
    rw [isAscribed, nextVisible?, loop_of_end outside, List.drop_eq_nil_of_le (by simpa)]
    rfl

/-! ## Names -/

def nameTurn (chars : Array Char) (position : Nat) (_ : Unit) : Checked (Turn Unit Nat) := do
  let c ← charAt chars position
  return if isNamePart c then .onward (position + 1) () else .leave position

/-- The position behind a name that the position is in. -/
def nameEnd (chars : Array Char) (position : Nat) : Checked Nat :=
  loop chars.size (nameTurn chars) (fun position _ => position) position ()

theorem exists_nameEnd (faces : Faces chars position rest) :
    ∃ stop, nameEnd chars position = .ok stop ∧ Faces chars stop (rest.dropWhile isNamePart) := by
  induction rest generalizing position with
  | nil => exact ⟨position, loop_of_end faces.eq_size.ge, faces⟩
  | cons c rest induction =>
      have turn : nameTurn chars position () =
          .ok (if isNamePart c then .onward (position + 1) () else .leave position) := by
        rw [nameTurn, faces.charAt]
        rfl
      rw [nameEnd, List.dropWhile_cons]
      by_cases part : isNamePart c = true
      · rw [if_pos part] at turn
        rw [loop_of_onward faces.lt_size turn (by omega), if_pos part]
        exact induction faces.tail
      · rw [if_neg part] at turn
        rw [if_neg part]
        exact ⟨position, loop_of_leave faces.lt_size turn, faces⟩

/-! ## Operators -/

def charBefore? (chars : Array Char) : Nat → Checked (Option Char)
  | 0 => return none
  | before + 1 => return some (← charAt chars before)

/-- An equals sign makes an arrow of the angle behind it. -/
def isArrow (chars : Array Char) (position : Nat) (c : Char) : Checked Bool := do
  if c = '>' then return (← charBefore? chars position) = some '='
  else return false

def operatorTurn (chars : Array Char) (position : Nat) (depth : Int) :
    Checked (Turn Int Bool) := do
  let c ← charAt chars position
  let place : Place := ⟨c, depth, ← isArrow chars position c⟩
  return if place.isTopArrow || place.isTop && ['|', '&', '?'].contains place.char then .leave true
    else .onward (position + 1) (depthAfter place)

def needsParentheses (chars : Array Char) : Checked Bool :=
  loop chars.size (operatorTurn chars) (fun _ _ => false) 0 0

theorem isArrow_eq {previous : Option Char} (before : charBefore? chars position = .ok previous)
    (c : Char) : isArrow chars position c = .ok (c = '>' && previous = some '=') := by
  rw [isArrow]
  by_cases angle : c = '>'
  · rw [if_pos angle, before, decide_eq_true angle]
    rfl
  · rw [if_neg angle, decide_eq_false angle]
    rfl

private theorem loop_operatorTurn (faces : Faces chars position rest) (depth : Int)
    {previous : Option Char} (before : charBefore? chars position = .ok previous) :
    loop chars.size (operatorTurn chars) (fun _ _ => false) position depth =
      .ok ((placesFrom depth previous rest).any fun place =>
        place.isTopArrow || place.isTop && ['|', '&', '?'].contains place.char) := by
  induction rest generalizing position depth previous with
  | nil => exact loop_of_end faces.eq_size.ge
  | cons c rest induction =>
      let place : Place := ⟨c, depth, c = '>' && previous = some '='⟩
      have turn : operatorTurn chars position depth =
          .ok (if place.isTopArrow || place.isTop && ['|', '&', '?'].contains place.char then
            .leave true else .onward (position + 1) (depthAfter place)) := by
        rw [operatorTurn, faces.charAt, ok_bind, isArrow_eq before]
        rfl
      rw [placesFrom, List.any_cons]
      by_cases weak :
          (place.isTopArrow || place.isTop && ['|', '&', '?'].contains place.char) = true
      · rw [if_pos weak] at turn
        rw [loop_of_leave faces.lt_size turn, weak, Bool.true_or]
      · rw [if_neg weak] at turn
        have behind : charBefore? chars (position + 1) = .ok (some c) := by
          rw [charBefore?, faces.charAt]
          rfl
        rw [loop_of_onward faces.lt_size turn (by omega), induction faces.tail _ behind,
          Bool.eq_false_iff.mpr weak, Bool.false_or]

theorem needsParentheses_eq (chars : List Char) :
    needsParentheses chars.toArray = .ok (TypeText.needsParentheses chars) :=
  loop_operatorTurn (Faces.start chars.toArray) 0 rfl

end MemberStubs.TypeText.Positions
