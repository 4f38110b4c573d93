import Mathlib.Data.List.TakeWhile
import MemberStubs.Proofs.TypeText.Names

/-! The words of a text: the names in it wherever they stand, also in quotes and behind dots. Texts
that are joined where no name goes on have the words of both. -/

namespace MemberStubs.TypeText

/-- The longest runs of name parts, each without the digits in front of it. -/
def words : List Char → List (List Char)
  | [] => []
  | c :: rest =>
      if isNameStart c then
        (c :: rest.takeWhile isNamePart) :: words (rest.dropWhile isNamePart)
      else words rest
termination_by chars => chars.length
decreasing_by
  · have := length_dropWhile_le isNamePart rest
    simp only [List.length_cons]
    omega
  · simp

@[simp] theorem words_nil : words [] = [] := by
  rw [words]

theorem words_cons_of_not_start {c : Char} (starts : isNameStart c = false) (rest : List Char) :
    words (c :: rest) = words rest := by
  rw [words, if_neg (by simp [starts])]

theorem words_name {name behind : List Char} (isName : IsName name) (ends : EndsName behind) :
    words (name ++ behind) = name :: words behind := by
  cases name with
  | nil => exact isName.elim
  | cons c rest =>
      rw [List.cons_append, words, if_pos isName.1, takeWhile_append_of_endsName isName.2 ends,
        dropWhile_append_of_endsName isName.2 ends]

theorem words_of_isName {name : List Char} (isName : IsName name) : words name = [name] := by
  have ends : EndsName [] := nofun
  have whole := words_name isName ends
  rwa [List.append_nil, words_nil] at whole

/-- A text from which no name goes on has all its words to itself. -/
theorem words_append (first : List Char) {second : List Char} (ends : EndsName second) :
    words (first ++ second) = words first ++ words second := by
  fun_induction words first with
  | case1 => rfl
  | case2 c rest starts induction =>
      have split := List.takeWhile_append_dropWhile (p := isNamePart) (l := rest)
      have isName : IsName (c :: rest.takeWhile isNamePart) :=
        ⟨starts, fun _ => List.mem_takeWhile_imp⟩
      have joined : EndsName (rest.dropWhile isNamePart ++ second) := by
        cases behind : rest.dropWhile isNamePart with
        | nil => exact ends
        | cons d later =>
            have stopped := endsName_dropWhile rest
            rw [behind] at stopped
            exact stopped
      have whole := words_name isName joined
      rw [List.cons_append, ← List.append_assoc, split] at whole
      rw [List.cons_append, whole, induction, List.cons_append]
  | case3 c rest starts induction =>
      rw [List.cons_append, words_cons_of_not_start (by simpa using starts), induction]

/-! ## Blanks at the ends -/

theorem words_of_blank {chars : List Char} (blank : ∀ c ∈ chars, Text.isBlank c = true) :
    words chars = [] := by
  induction chars with
  | nil => exact words_nil
  | cons c rest induction =>
      have here := isNameStart_of_not_part
        (isNamePart_of_isBlank (blank c (List.mem_cons_self ..)))
      rw [words_cons_of_not_start here]
      exact induction fun d member => blank d (List.mem_cons_of_mem _ member)

theorem words_trimStart (chars : List Char) : words (Text.trimStart chars) = words chars := by
  induction chars with
  | nil => rfl
  | cons c rest induction =>
      rw [Text.trimStart, List.dropWhile_cons]
      split
      · next blank =>
          rw [words_cons_of_not_start (isNameStart_of_not_part (isNamePart_of_isBlank blank))]
          exact induction
      · rfl

theorem words_trim (chars : List Char) : words (Text.trim chars) = words chars := by
  have blank : ∀ c ∈ ((Text.trimStart chars).reverse.takeWhile Text.isBlank).reverse,
      Text.isBlank c = true := by
    intro c member
    exact List.mem_takeWhile_imp (List.mem_reverse.mp member)
  have ends : EndsName ((Text.trimStart chars).reverse.takeWhile Text.isBlank).reverse := by
    intro c head
    exact isNamePart_of_isBlank (blank c (List.mem_of_mem_head? head))
  have split : Text.trim chars ++
      ((Text.trimStart chars).reverse.takeWhile Text.isBlank).reverse = Text.trimStart chars := by
    rw [Text.trim, Text.trimStart, ← List.reverse_append, List.takeWhile_append_dropWhile,
      List.reverse_reverse]
  have whole := words_append (Text.trim chars) ends
  rw [split, words_of_blank blank, List.append_nil] at whole
  rw [← whole, words_trimStart]

end MemberStubs.TypeText
