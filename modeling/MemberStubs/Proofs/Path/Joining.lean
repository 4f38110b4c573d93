import Mathlib.Data.List.Induction
import MemberStubs.Proofs.Path.NormalForm

/-! Paths behind each other. Behind its beginning a path is the list of its steps, and a join has the
steps of both of its parts. The stack of the normal form takes a list of steps and the reduced form of
that list to the same place, so parts may be put into normal form before they are joined. -/

namespace MemberStubs.Path

/-! ## Steps of a join -/

/-- The steps in a text, without the beginning of a path. -/
def stepsOf (text : List Char) : List Component :=
  (pieces text).filterMap Component.ofPiece?

theorem isStep_of_mem_stepsOf {text : List Char} {step : Component} (member : step ∈ stepsOf text) :
    step.IsStep := by
  rcases List.mem_filterMap.mp member with ⟨piece, found, read⟩
  exact Component.isStep_of_ofPiece? (slash_not_mem_of_mem_pieces found) read

theorem stepsOf_pushText (first second : List Char) :
    stepsOf (pushText first second) = stepsOf first ++ stepsOf second := by
  rw [pushText]
  split
  · next isOpen =>
      rcases isOpen with rfl | slash
      · rfl
      · rcases List.getLast?_eq_some_iff.mp slash with ⟨front, rfl⟩
        have before : stepsOf (front ++ ['/']) = stepsOf front := by
          rw [stepsOf, pieces_append_slash, List.filterMap_append]
          exact List.append_nil _
        rw [before, List.append_assoc, List.singleton_append, stepsOf, pieces_append_slash,
          List.filterMap_append]
        rfl
  · rw [stepsOf, pieces_append_slash, List.filterMap_append]
    rfl

/-- What a path begins with shows in its components, and so do its steps. -/
theorem root_mem_components_iff {path : Path} :
    Component.root ∈ path.components ↔ path.isAbsolute = true := by
  have notStep : Component.root ∉ stepsOf path.text.toList := by
    intro member
    cases isStep_of_mem_stepsOf member
  rw [components, List.mem_append, ← stepsOf, or_iff_left notStep]
  cases path.isAbsolute with
  | true => simp
  | false =>
      rw [if_neg Bool.false_ne_true]
      split <;> simp

theorem filter_components (path : Path) :
    path.components.filter (fun component => component ≠ .root ∧ component ≠ .here) =
      stepsOf path.text.toList := by
  have steps : (stepsOf path.text.toList).filter
      (fun component => component ≠ .root ∧ component ≠ .here) = stepsOf path.text.toList := by
    apply List.filter_eq_self.mpr
    intro step member
    cases isStep_of_mem_stepsOf member <;> rfl
  rw [components, List.filter_append]
  show _ ++ (stepsOf path.text.toList).filter _ = _
  rw [steps]
  split
  · rfl
  · split <;> rfl

theorem isAbsolute_join {root path : Path} (relative : path.isAbsolute = false) :
    (root.join path).isAbsolute = root.isAbsolute := by
  rw [join, if_neg (by simp [relative]), isAbsolute, isAbsolute, String.toList_ofList, pushText]
  cases whole : root.text.toList with
  | nil => simpa [isAbsolute] using relative
  | cons c rest => split <;> rfl

theorem stepsOf_join {root path : Path} (relative : path.isAbsolute = false) :
    stepsOf (root.join path).text.toList =
      stepsOf root.text.toList ++ stepsOf path.text.toList := by
  rw [join, if_neg (by simp [relative]), String.toList_ofList, stepsOf_pushText]

/-! ## Reduced steps -/

theorem root_mem_pushNormal {stack : List Component} {step : Component} (valid : step.IsStep) :
    Component.root ∈ pushNormal stack step ↔ Component.root ∈ stack := by
  cases valid with
  | name _ => simp [pushNormal]
  | parent =>
      cases stack with
      | nil => simp [pushNormal]
      | cons top below => cases top <;> simp [pushNormal]

theorem root_mem_foldl_pushNormal {stack steps : List Component}
    (valid : ∀ step ∈ steps, step.IsStep) :
    Component.root ∈ steps.foldl pushNormal stack ↔ Component.root ∈ stack := by
  induction steps generalizing stack with
  | nil => exact Iff.rfl
  | cons step steps induction =>
      rw [List.foldl_cons, induction fun other member => valid other (List.mem_cons_of_mem _ member)]
      exact root_mem_pushNormal (valid step (List.mem_cons_self ..))

/-- On top of any stack, one more step on reduced steps is one more step behind them. -/
theorem foldl_reverse_pushNormal (stack : List Component) {reduced : List Component}
    (relative : Component.root ∉ reduced) {step : Component} (valid : step.IsStep) :
    (pushNormal reduced step).reverse.foldl pushNormal stack =
      pushNormal (reduced.reverse.foldl pushNormal stack) step := by
  have onTop : ∀ below : List Component, (step :: below).reverse.foldl pushNormal stack =
      pushNormal (below.reverse.foldl pushNormal stack) step := fun below => by
    rw [List.reverse_cons, List.foldl_append]
    rfl
  cases valid with
  | name _ => exact onTop reduced
  | parent =>
      cases reduced with
      | nil => exact onTop []
      | cons top below =>
          cases top with
          | root => exact absurd (List.mem_cons_self ..) relative
          | here => exact onTop (.here :: below)
          | parent => exact onTop (.parent :: below)
          | name text =>
              -- The step takes the name back on either side.
              rw [List.reverse_cons, List.foldl_append]
              rfl

theorem foldl_reduced {steps : List Component} (valid : ∀ step ∈ steps, step.IsStep)
    (stack : List Component) :
    (steps.foldl pushNormal []).reverse.foldl pushNormal stack = steps.foldl pushNormal stack := by
  induction steps using List.reverseRecOn with
  | nil => rfl
  | append_singleton steps step induction =>
      have before : ∀ other ∈ steps, other.IsStep := fun other member =>
        valid other (List.mem_append_left _ member)
      have relative : Component.root ∉ steps.foldl pushNormal [] := by
        rw [root_mem_foldl_pushNormal before]
        exact List.not_mem_nil
      have last : step.IsStep := valid step (List.mem_append_right _ (List.mem_singleton.mpr rfl))
      rw [List.foldl_append, List.foldl_append, List.foldl_cons, List.foldl_nil, List.foldl_cons,
        List.foldl_nil, foldl_reverse_pushNormal stack relative last, induction before]

/-! ## Joins in normal form -/

/-- The stack before the first step. -/
def beginning (path : Path) : List Component :=
  if path.isAbsolute then [.root] else []

theorem foldl_components (path : Path) :
    path.components.foldl pushNormal [] =
      (stepsOf path.text.toList).foldl pushNormal path.beginning := by
  rw [components, List.foldl_append, beginning, stepsOf]
  congr 1
  split
  · rfl
  · split <;> rfl

theorem normalize_eq_of_foldl_eq {first second : Path}
    (same : first.components.foldl pushNormal [] = second.components.foldl pushNormal []) :
    first.normalize = second.normalize := by
  rw [normalize, normalize, normalComponents, normalComponents, same]

theorem isAbsolute_normalize (path : Path) : path.normalize.isAbsolute = path.isAbsolute := by
  rw [Bool.eq_iff_iff, ← root_mem_components_iff, components_normalize, normalComponents,
    List.mem_reverse, foldl_components,
    root_mem_foldl_pushNormal fun _ => isStep_of_mem_stepsOf, beginning]
  cases path.isAbsolute <;> simp

/-- A relative path in normal form has the reduced steps and nothing else. -/
theorem stepsOf_normalize {path : Path} (relative : path.isAbsolute = false) :
    stepsOf path.normalize.text.toList =
      ((stepsOf path.text.toList).foldl pushNormal []).reverse := by
  have whole : path.normalize.components =
      ((stepsOf path.text.toList).foldl pushNormal []).reverse := by
    rw [components_normalize, normalComponents, foldl_components, beginning, relative]
    rfl
  have steps : ∀ step ∈ stepsOf path.text.toList, step.IsStep := fun _ => isStep_of_mem_stepsOf
  have noRoot : Component.root ∉ ((stepsOf path.text.toList).foldl pushNormal []).reverse := by
    rw [List.mem_reverse, root_mem_foldl_pushNormal steps]
    exact List.not_mem_nil
  rw [← filter_components, whole]
  rcases ((Stacked.parents 0).foldl_pushNormal steps).reverse_eq with ⟨_, valid, shape | shape⟩
  · rw [List.replicate_zero] at shape
    rw [shape]
    apply List.filter_eq_self.mpr
    intro step member
    cases valid step member <;> rfl
  · rw [List.replicate_zero] at shape
    rw [shape] at noRoot
    exact absurd (List.mem_cons_self ..) noRoot

theorem normalize_join (first second : Path) :
    (first.join second).normalize = (first.normalize.join second.normalize).normalize := by
  cases absolute : second.isAbsolute with
  | true =>
      have whole : first.join second = second := if_pos absolute
      have whole' : first.normalize.join second.normalize = second.normalize :=
        if_pos ((isAbsolute_normalize second).trans absolute)
      rw [whole, whole', normalize_normalize]
  | false =>
      have absolute' := (isAbsolute_normalize second).trans absolute
      have beginnings : (first.normalize.join second.normalize).beginning =
          first.normalize.beginning := by
        rw [beginning, beginning, isAbsolute_join absolute']
      apply normalize_eq_of_foldl_eq
      rw [foldl_components, foldl_components, stepsOf_join absolute, stepsOf_join absolute',
        List.foldl_append, List.foldl_append, beginnings, ← foldl_components, stepsOf_normalize absolute,
        foldl_reduced fun _ => isStep_of_mem_stepsOf, components_normalize, normalComponents,
        (stacked_of_path first).foldl_pushNormal_reverse, foldl_components, beginning, beginning,
        isAbsolute_join absolute]

theorem join_sameFile {first first' second second' : Path}
    (same : first.sameFile first' = true) (same' : second.sameFile second' = true) :
    (first.join second).sameFile (first'.join second') = true := by
  rw [sameFile_iff] at same same' ⊢
  rw [normalize_join, same, same', ← normalize_join]

theorem sameFile_equivalence : Equivalence fun first second : Path => first.sameFile second = true where
  refl _ := sameFile_iff.mpr rfl
  symm same := sameFile_iff.mpr (sameFile_iff.mp same).symm
  trans same same' := sameFile_iff.mpr ((sameFile_iff.mp same).trans (sameFile_iff.mp same'))

/-! ## The canonical form -/

/-- A path in normal form is names, behind the root or behind steps to the parent. -/
def IsNormal (path : Path) : Prop :=
  ∃ (upward : Nat) (names : List (List Char)), path.components =
    (if path.isAbsolute then [.root] else List.replicate upward .parent) ++ names.map .name

theorem Stacked.exists_names {stack : List Component} (stacked : Stacked stack) :
    ∃ (upward : Nat) (names : List (List Char)),
      stack.reverse = (if Component.root ∈ stack then [.root] else List.replicate upward .parent) ++
        names.map .name := by
  induction stacked with
  | root => exact ⟨0, [], rfl⟩
  | parents count => exact ⟨count, [], by simp [List.mem_replicate]⟩
  | @name text stack _ _ induction =>
      rcases induction with ⟨upward, names, shape⟩
      refine ⟨upward, names ++ [text], ?_⟩
      rw [List.reverse_cons, shape, List.map_append, List.append_assoc]
      simp

theorem isNormal_normalize (path : Path) : path.normalize.IsNormal := by
  rcases (stacked_of_path path).exists_names with ⟨upward, names, shape⟩
  refine ⟨upward, names, ?_⟩
  have absolute : Component.root ∈ path.components.foldl pushNormal [] ↔
      path.normalize.isAbsolute = true := by
    rw [← root_mem_components_iff, components_normalize, normalComponents, List.mem_reverse]
  rw [components_normalize, normalComponents, shape]
  simp only [absolute]

/-- A form of paths that one path has however it is spelled: no dots, steps to the parent only where
nothing is left to take back, and the beginning that the path had. Joining respects it, and so being
one file is an equivalence that joining respects on both sides. -/
structure IsCanonical (canonical : Path → Path) : Prop where
  isNormal : ∀ path, (canonical path).IsNormal
  isAbsolute_eq : ∀ path, (canonical path).isAbsolute = path.isAbsolute
  again : ∀ path, (canonical (canonical path)).text = (canonical path).text
  text_eq : ∀ first second : Path, first.components = second.components →
    (canonical first).text = (canonical second).text
  join : ∀ first second,
    canonical (first.join second) = canonical ((canonical first).join (canonical second))
  sameFile_iff : ∀ first second : Path,
    first.sameFile second = true ↔ canonical first = canonical second
  equivalence : Equivalence fun first second : Path => first.sameFile second = true
  joinSame : ∀ first first' second second' : Path, first.sameFile first' = true →
    second.sameFile second' = true → (first.join second).sameFile (first'.join second') = true

theorem normalize_isCanonical : IsCanonical normalize where
  isNormal := isNormal_normalize
  isAbsolute_eq := isAbsolute_normalize
  again path := by rw [normalize_normalize]
  text_eq _ _ same := by rw [normalize_eq_of_components_eq same]
  join := normalize_join
  sameFile_iff _ _ := sameFile_iff
  equivalence := sameFile_equivalence
  joinSame _ _ _ _ := join_sameFile

end MemberStubs.Path
