import MemberStubs.Path
import Mathlib.Data.List.Basic

/-! The normal form of a path. Behind its beginning a path has steps: names, and steps to the parent.
A normal path starts at the root and goes through names, or first goes up and then through names. Its
text reads back as the same components, so two paths name one file if and only if their normal forms
have the same text. -/

namespace MemberStubs.Path

/-! ## Steps -/

namespace Component

def IsName (text : List Char) : Prop :=
  text ≠ [] ∧ '/' ∉ text ∧ text ≠ ['.'] ∧ text ≠ ['.', '.']

inductive IsStep : Component → Prop
  | parent : IsStep .parent
  | name {text : List Char} (valid : IsName text) : IsStep (.name text)

theorem IsStep.text_ne_nil {step : Component} (valid : step.IsStep) : step.text ≠ [] := by
  cases valid with
  | parent => simp [text]
  | name valid => exact valid.1

theorem IsStep.slash_not_mem {step : Component} (valid : step.IsStep) : '/' ∉ step.text := by
  cases valid with
  | parent => simp [text]
  | name valid => exact valid.2.1

theorem IsStep.getLast?_ne_slash {step : Component} (valid : step.IsStep) :
    step.text.getLast? ≠ some '/' := fun slash =>
  valid.slash_not_mem (List.mem_of_getLast? slash)

theorem IsStep.text_ne_dot {step : Component} (valid : step.IsStep) : step.text ≠ ['.'] := by
  cases valid with
  | parent => simp [text]
  | name valid => exact valid.2.2.1

theorem IsStep.ofPiece?_text {step : Component} (valid : step.IsStep) :
    ofPiece? step.text = some step := by
  cases valid with
  | parent => rfl
  | name valid =>
      rcases valid with ⟨nonempty, _, notDot, notParent⟩
      simp [ofPiece?, text, nonempty, notDot, notParent]

theorem isStep_of_ofPiece? {piece : List Char} {step : Component} (whole : '/' ∉ piece)
    (read : ofPiece? piece = some step) : step.IsStep := by
  rw [ofPiece?] at read
  split at read
  · cases read
  · next present =>
      rw [not_or] at present
      split at read
      · cases read
        exact .parent
      · next notParent =>
          cases read
          exact .name ⟨present.1, whole, present.2, notParent⟩

end Component

/-! ## Pieces -/

theorem pieces_cons_of_ne {c : Char} (notSlash : c ≠ '/') (rest : List Char) :
    ∃ piece later, pieces rest = piece :: later ∧ pieces (c :: rest) = (c :: piece) :: later := by
  have nonempty : pieces rest ≠ [] := by
    cases rest with
    | nil => simp [pieces]
    | cons d rest =>
        rw [pieces]
        split
        · simp
        · split <;> simp
  rcases List.exists_cons_of_ne_nil nonempty with ⟨piece, later, found⟩
  exact ⟨piece, later, found, by simp [pieces, notSlash, found]⟩

theorem pieces_append_slash (first second : List Char) :
    pieces (first ++ '/' :: second) = pieces first ++ pieces second := by
  induction first with
  | nil => simp [pieces]
  | cons c first induction =>
      rw [List.cons_append]
      by_cases slash : c = '/'
      · subst slash
        simp [pieces, induction]
      · rcases pieces_cons_of_ne slash first with ⟨piece, later, found, extended⟩
        rcases pieces_cons_of_ne slash (first ++ '/' :: second) with
          ⟨wholePiece, wholeLater, wholeFound, wholeExtended⟩
        rw [induction, found, List.cons_append] at wholeFound
        cases wholeFound
        rw [wholeExtended, extended, List.cons_append]

theorem pieces_of_slash_not_mem {piece : List Char} (whole : '/' ∉ piece) :
    pieces piece = [piece] := by
  induction piece with
  | nil => rfl
  | cons c piece induction =>
      rw [List.mem_cons, not_or] at whole
      have rest := induction whole.2
      simp [pieces, Ne.symm whole.1, rest]

theorem slash_not_mem_of_mem_pieces {chars piece : List Char} (member : piece ∈ pieces chars) :
    '/' ∉ piece := by
  induction chars generalizing piece with
  | nil => simp_all [pieces]
  | cons c chars induction =>
      by_cases slash : c = '/'
      · subst slash
        rcases List.mem_cons.mp (by simpa [pieces] using member) with rfl | member
        · simp
        · exact induction member
      · rcases pieces_cons_of_ne slash chars with ⟨head, later, found, extended⟩
        rw [extended] at member
        rw [found] at induction
        rcases List.mem_cons.mp member with rfl | member
        · rw [List.mem_cons, not_or]
          exact ⟨Ne.symm slash, induction (List.mem_cons_self ..)⟩
        · exact induction (List.mem_cons_of_mem _ member)

/-- The components of a path: perhaps a beginning, then steps. -/
theorem components_eq (path : Path) :
    ∃ first steps, path.components = first ++ steps ∧
      (first = [.root] ∨ first = [.here] ∨ first = []) ∧ ∀ step ∈ steps, step.IsStep := by
  refine ⟨_, _, rfl, ?_, fun step member => ?_⟩
  · split
    · exact Or.inl rfl
    · split
      · exact Or.inr (Or.inl rfl)
      · exact Or.inr (Or.inr rfl)
  · rcases List.mem_filterMap.mp member with ⟨piece, found, read⟩
    exact Component.isStep_of_ofPiece? (slash_not_mem_of_mem_pieces found) read

/-! ## Text of steps -/

def slashed (steps : List Component) : List Char :=
  steps.flatMap fun step => '/' :: step.text

theorem foldl_pushText {text : List Char} (something : text ≠ [])
    (inside : text.getLast? ≠ some '/') {steps : List Component}
    (valid : ∀ step ∈ steps, step.IsStep) :
    steps.foldl (fun text step => pushText text step.text) text = text ++ slashed steps := by
  induction steps generalizing text with
  | nil => simp [slashed]
  | cons step steps induction =>
      have stepValid := valid step (List.mem_cons_self ..)
      have pushed : pushText text step.text = text ++ ['/'] ++ step.text := by
        rw [pushText, if_neg (not_or.mpr ⟨something, inside⟩), List.append_assoc]
        rfl
      have insideStep : (text ++ ['/'] ++ step.text).getLast? ≠ some '/' := by
        rw [List.getLast?_append_of_ne_nil _ stepValid.text_ne_nil]
        exact stepValid.getLast?_ne_slash
      rw [List.foldl_cons, pushed, induction (by simp) insideStep fun other member =>
        valid other (List.mem_cons_of_mem _ member)]
      simp [slashed]

/-- Nothing goes between an open beginning and the first step. -/
theorem foldl_pushText_cons {start : List Char} (isOpen : start = [] ∨ start.getLast? = some '/')
    {step : Component} {steps : List Component} (valid : ∀ other ∈ step :: steps, other.IsStep) :
    (step :: steps).foldl (fun text step => pushText text step.text) start =
      start ++ (step.text ++ slashed steps) := by
  have stepValid := valid step (List.mem_cons_self ..)
  have insideStep : (start ++ step.text).getLast? ≠ some '/' := by
    rw [List.getLast?_append_of_ne_nil _ stepValid.text_ne_nil]
    exact stepValid.getLast?_ne_slash
  rw [List.foldl_cons, pushText, if_pos isOpen,
    foldl_pushText (by simp [stepValid.text_ne_nil]) insideStep fun other member =>
      valid other (List.mem_cons_of_mem _ member), List.append_assoc]

theorem pieces_slashed {step : Component} {steps : List Component}
    (valid : ∀ other ∈ step :: steps, other.IsStep) :
    pieces (step.text ++ slashed steps) = step.text :: steps.map Component.text := by
  have whole := pieces_of_slash_not_mem (valid step (List.mem_cons_self ..)).slash_not_mem
  induction steps generalizing step with
  | nil => simpa [slashed] using whole
  | cons next steps induction =>
      have later := fun other member => valid other (List.mem_cons_of_mem _ member)
      have onward := induction later
        (pieces_of_slash_not_mem (later next (List.mem_cons_self ..)).slash_not_mem)
      show pieces (step.text ++ '/' :: (next.text ++ slashed steps)) = _
      rw [pieces_append_slash, whole, onward]
      rfl

theorem filterMap_ofPiece?_text {steps : List Component} (valid : ∀ step ∈ steps, step.IsStep) :
    (steps.map Component.text).filterMap Component.ofPiece? = steps := by
  rw [List.filterMap_map]
  calc steps.filterMap (Component.ofPiece? ∘ Component.text)
      = steps.filterMap some :=
        List.filterMap_congr fun step member => (valid step member).ofPiece?_text
    _ = steps := List.filterMap_some

/-! Steps read back from their text, with and without a root in front. -/

theorem text_ofComponents_root {steps : List Component} (valid : ∀ step ∈ steps, step.IsStep) :
    (ofComponents (.root :: steps)).text.toList = '/' :: (ofComponents steps).text.toList := by
  rw [ofComponents, ofComponents, String.toList_ofList, String.toList_ofList, List.foldl_cons]
  cases steps with
  | nil => rfl
  | cons step steps =>
      rw [foldl_pushText_cons (Or.inl rfl) valid]
      exact foldl_pushText_cons (Or.inr rfl) valid

theorem text_ofComponents_cons {step : Component} {steps : List Component}
    (valid : ∀ other ∈ step :: steps, other.IsStep) :
    (ofComponents (step :: steps)).text.toList = step.text ++ slashed steps := by
  rw [ofComponents, String.toList_ofList, foldl_pushText_cons (Or.inl rfl) valid,
    List.nil_append]

/-- The steps in the text of steps. -/
theorem filterMap_pieces_steps {steps : List Component} (valid : ∀ step ∈ steps, step.IsStep) :
    (pieces (ofComponents steps).text.toList).filterMap Component.ofPiece? = steps := by
  cases steps with
  | nil => rfl
  | cons step steps =>
      rw [text_ofComponents_cons valid, pieces_slashed valid, ← List.map_cons]
      exact filterMap_ofPiece?_text valid

theorem components_ofComponents_root {steps : List Component}
    (valid : ∀ step ∈ steps, step.IsStep) :
    (ofComponents (.root :: steps)).components = .root :: steps := by
  have text := text_ofComponents_root valid
  have absolute : (ofComponents (.root :: steps)).isAbsolute = true := by
    rw [isAbsolute, text]
    rfl
  have found : (pieces (ofComponents (.root :: steps)).text.toList).filterMap
      Component.ofPiece? = steps := by
    rw [text]
    show (pieces ([] ++ '/' :: _)).filterMap _ = steps
    rw [pieces_append_slash, List.filterMap_append, filterMap_pieces_steps valid]
    rfl
  simp only [components, absolute, if_true, found]
  rfl

theorem components_ofComponents_steps {steps : List Component}
    (valid : ∀ step ∈ steps, step.IsStep) : (ofComponents steps).components = steps := by
  cases steps with
  | nil => rfl
  | cons step steps =>
      have stepValid := valid step (List.mem_cons_self ..)
      have text := text_ofComponents_cons valid
      have relative : (ofComponents (step :: steps)).isAbsolute = false := by
        rw [isAbsolute, text, decide_eq_false_iff_not]
        rcases List.exists_cons_of_ne_nil stepValid.text_ne_nil with ⟨c, rest, same⟩
        have whole := stepValid.slash_not_mem
        rw [same, List.mem_cons, not_or] at whole
        simpa [same] using Ne.symm whole.1
      have begins : (pieces (ofComponents (step :: steps)).text.toList).head? ≠ some ['.'] := by
        rw [text, pieces_slashed valid]
        simpa using stepValid.text_ne_dot
      have found := filterMap_pieces_steps valid
      simp only [components, relative, begins, found, Bool.false_eq_true, if_false,
        List.nil_append]

/-! ## Normal components

What the stack of the normal form can hold: the root or some steps to the parent, and names on top. -/

inductive Stacked : List Component → Prop
  | root : Stacked [.root]
  | parents (count : Nat) : Stacked (List.replicate count .parent)
  | name {text : List Char} {stack : List Component} (valid : Component.IsName text)
      (below : Stacked stack) : Stacked (.name text :: stack)

namespace Stacked

theorem pushNormal {stack : List Component} (stacked : Stacked stack) {step : Component}
    (valid : step.IsStep) : Stacked (pushNormal stack step) := by
  cases valid with
  | name valid => exact .name valid stacked
  | parent =>
      cases stacked with
      | root => exact .root
      | parents count =>
          cases count with
          | zero => exact .parents 1
          | succ count => exact .parents (count + 2)
      | name _ below => exact below

theorem foldl_pushNormal {stack : List Component} (stacked : Stacked stack)
    {steps : List Component} (valid : ∀ step ∈ steps, step.IsStep) :
    Stacked (steps.foldl Path.pushNormal stack) := by
  induction steps generalizing stack with
  | nil => exact stacked
  | cons step steps induction =>
      exact induction (stacked.pushNormal (valid step (List.mem_cons_self ..))) fun other member =>
        valid other (List.mem_cons_of_mem _ member)

/-- A stack is its own normal form. -/
theorem foldl_pushNormal_reverse {stack : List Component} (stacked : Stacked stack) :
    stack.reverse.foldl Path.pushNormal [] = stack := by
  induction stacked with
  | root => rfl
  | parents count =>
      rw [List.reverse_replicate]
      induction count with
      | zero => rfl
      | succ count induction =>
          rw [List.replicate_succ', List.foldl_append, induction, ← List.replicate_succ',
            List.replicate_succ]
          cases count <;> rfl
  | name _ _ induction =>
      rw [List.reverse_cons, List.foldl_append, induction]
      rfl

theorem reverse_eq {stack : List Component} (stacked : Stacked stack) :
    ∃ steps, (∀ step ∈ steps, step.IsStep) ∧
      (stack.reverse = steps ∨ stack.reverse = .root :: steps) := by
  induction stacked with
  | root => exact ⟨[], by simp, Or.inr rfl⟩
  | parents count =>
      refine ⟨_, fun step member => ?_, Or.inl rfl⟩
      rw [List.reverse_replicate] at member
      rw [List.eq_of_mem_replicate member]
      exact .parent
  | @name text stack valid _ induction =>
      rcases induction with ⟨steps, stepsValid, shape⟩
      refine ⟨steps ++ [.name text], ?_, ?_⟩
      · intro step member
        rcases List.mem_append.mp member with member | member
        · exact stepsValid step member
        · rw [List.mem_singleton.mp member]
          exact .name valid
      · rw [List.reverse_cons]
        rcases shape with shape | shape
        · exact Or.inl (by rw [shape])
        · exact Or.inr (by rw [shape, List.cons_append])

theorem components_ofComponents_reverse {stack : List Component} (stacked : Stacked stack) :
    (ofComponents stack.reverse).components = stack.reverse := by
  rcases stacked.reverse_eq with ⟨steps, valid, shape | shape⟩
  · rw [shape, components_ofComponents_steps valid]
  · rw [shape, components_ofComponents_root valid]

end Stacked

theorem stacked_of_path (path : Path) : Stacked (path.components.foldl pushNormal []) := by
  rcases components_eq path with ⟨first, steps, whole, begins, valid⟩
  rw [whole, List.foldl_append]
  rcases begins with rfl | rfl | rfl
  · exact Stacked.root.foldl_pushNormal valid
  · exact (Stacked.parents 0).foldl_pushNormal valid
  · exact (Stacked.parents 0).foldl_pushNormal valid

/-! ## Normal paths -/

/-- The text of a normal form reads back as its components. -/
theorem components_normalize (path : Path) :
    path.normalize.components = normalComponents path.components :=
  (stacked_of_path path).components_ofComponents_reverse

theorem normalComponents_components_normalize (path : Path) :
    normalComponents path.normalize.components = normalComponents path.components := by
  rw [components_normalize]
  exact congrArg List.reverse (stacked_of_path path).foldl_pushNormal_reverse

@[simp] theorem normalize_normalize (path : Path) : path.normalize.normalize = path.normalize := by
  rw [normalize, normalComponents_components_normalize]
  rfl

theorem normalize_eq_of_components_eq {first second : Path}
    (same : first.components = second.components) : first.normalize = second.normalize := by
  rw [normalize, normalize, same]

/-- Normal forms with the same components have the same text. -/
theorem normalize_eq_iff {first second : Path} :
    first.normalize = second.normalize ↔
      first.normalize.components = second.normalize.components := by
  constructor
  · intro same
    rw [same]
  · intro same
    simpa using normalize_eq_of_components_eq same

theorem sameFile_iff {first second : Path} :
    first.sameFile second = true ↔ first.normalize = second.normalize := by
  simp only [sameFile, sameComponents, Bool.or_eq_true, decide_eq_true_eq]
  constructor
  · rintro (same | same)
    · exact normalize_eq_of_components_eq same
    · exact normalize_eq_iff.mpr same
  · intro same
    exact Or.inr (normalize_eq_iff.mp same)

end MemberStubs.Path
