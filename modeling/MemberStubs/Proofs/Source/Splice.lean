import MemberStubs.Proofs.Source.Requests
import MemberStubs.Proofs.Text.Bytes

/-! The text of a buffer, made in one pass over its source, is what comes of putting the blocks in
one by one from the last to the first, so that no block moves the place of another. Taking them out
again from the first to the last leaves the source. -/

namespace MemberStubs.SourceBuffer

/-! ## Anchors and bytes -/

/-- The offset lies in the bytes of a text, right behind an opening brace. -/
def FollowsBrace (text : String) (offset : Nat) : Prop :=
  0 < offset ∧ offset ≤ (Text.utf8Bytes text).length ∧
    (Text.utf8Bytes text)[offset - 1]? = some 0x7b

theorem isSome_splitBehindBrace?_iff {source : List Char} {position : UInt64} :
    (splitBehindBrace? source position).isSome = true ↔
      ∃ before after, before ++ '\x7b' :: after = source ∧
        Text.byteLength before + 1 = position.toNat := by
  simp only [splitBehindBrace?, Option.isSome_iff_exists, Option.filter_eq_some_iff,
    decide_eq_true_eq, Prod.exists, Text.splitAtByte?_eq_some_iff]
  constructor
  · rintro ⟨before, after, ⟨rfl, length⟩, brace⟩
    rcases List.getLast?_eq_some_iff.mp brace with ⟨front, rfl⟩
    refine ⟨front, after, by simp, ?_⟩
    rw [← length, Text.byteLength_append]
    rfl
  · rintro ⟨before, after, rfl, length⟩
    refine ⟨before ++ ['\x7b'], after, ⟨by simp, ?_⟩, by simp⟩
    rw [Text.byteLength_append, ← length]
    rfl

/-- The byte before a position tells that the position lies between characters. -/
theorem isSome_insertion?_iff {text : String} {request : InsertRequest} :
    (request.insertion? text.toList).isSome = true ↔
      FollowsBrace text request.anchor.position.toNat := by
  have brace := @Text.getElem?_utf8Bytes_eq_some_iff text.toList '\x7b' (by decide)
    (request.anchor.position.toNat - 1)
  rw [String.ofList_toList] at brace
  rw [InsertRequest.insertion?, Option.isSome_map, isSome_splitBehindBrace?_iff, FollowsBrace]
  constructor
  · rintro ⟨before, after, whole, length⟩
    have found := brace.mpr ⟨before, after, whole, by omega⟩
    have inside := (List.getElem?_eq_some_iff.mp found).1
    exact ⟨by omega, by omega, found⟩
  · rintro ⟨positive, _, found⟩
    rcases brace.mp found with ⟨before, after, whole, length⟩
    exact ⟨before, after, whole, by omega⟩

/-! ## Insertions along a source -/

/-- Every insertion stands behind a brace of the rest of a source, each one in what the one before
it leaves. The rest begins at the offset `passed`. -/
inductive Fits : Nat → List Char → List Insertion → Prop
  | nil {passed : Nat} {rest : List Char} : Fits passed rest []
  | cons {passed : Nat} {before after : List Char} {insertion : Insertion}
      {later : List Insertion}
      (place : passed + Text.byteLength before + 1 = insertion.position.toNat)
      (fits : Fits insertion.position.toNat after later) :
      Fits passed (before ++ '\x7b' :: after) (insertion :: later)

theorem splitAtByte?_behind {front : List Char} {offset : Nat}
    (length : Text.byteLength front = offset) (after : List Char) :
    Text.splitAtByte? offset (front ++ after) = some (front, after) :=
  Text.splitAtByte?_eq_some_iff.mpr ⟨rfl, length⟩

theorem byteLength_brace (before : List Char) :
    Text.byteLength (before ++ ['\x7b']) = Text.byteLength before + 1 := by
  rw [Text.byteLength_append]
  rfl

theorem byteLength_cons_brace (after : List Char) :
    Text.byteLength ('\x7b' :: after) = 1 + Text.byteLength after :=
  rfl

theorem renderFrom_cons {passed : Nat} {before after : List Char} {insertion : Insertion}
    (place : passed + Text.byteLength before + 1 = insertion.position.toNat)
    (later : List Insertion) :
    renderFrom passed (before ++ '\x7b' :: after) (insertion :: later) =
      before ++ '\x7b' :: (insertion.block ++
        renderFrom insertion.position.toNat after later) := by
  have split : Text.splitAtByte? (insertion.position.toNat - passed)
      ((before ++ ['\x7b']) ++ after) = some (before ++ ['\x7b'], after) :=
    splitAtByte?_behind (by rw [byteLength_brace]; omega) after
  rw [List.append_assoc, List.singleton_append] at split
  rw [renderFrom, split]
  simp

/-- Text in front of a fitting rest stays in front. -/
theorem Fits.renderFrom_append {passed : Nat} {rest : List Char} {insertions : List Insertion}
    (front : List Char) (fits : Fits (passed + Text.byteLength front) rest insertions) :
    renderFrom passed (front ++ rest) insertions =
      front ++ renderFrom (passed + Text.byteLength front) rest insertions := by
  cases fits with
  | nil => rfl
  | @cons _ before after insertion later place fits =>
      rw [renderFrom_cons place, ← List.append_assoc, renderFrom_cons, List.append_assoc]
      rw [Text.byteLength_append]
      omega

theorem exists_eq_append_of_byteLength_le {first second third fourth : List Char}
    (same : first ++ second = third ++ fourth)
    (length : Text.byteLength first ≤ Text.byteLength third) :
    ∃ between, third = first ++ between ∧ second = between ++ fourth := by
  induction first generalizing third with
  | nil => exact ⟨third, rfl, same⟩
  | cons c first induction =>
      cases third with
      | nil =>
          have := c.utf8Size_pos
          rw [Text.byteLength_cons, Text.byteLength_nil] at length
          omega
      | cons d third =>
          rw [List.cons_append, List.cons_append, List.cons.injEq] at same
          rcases same with ⟨rfl, same⟩
          rw [Text.byteLength_cons, Text.byteLength_cons] at length
          rcases induction same (by omega) with ⟨between, rfl, rest⟩
          exact ⟨between, rfl, rest⟩

theorem fits_of_increasing {source front rest : List Char} (whole : front ++ rest = source)
    {insertions : List Insertion} (increasing : insertions.Pairwise (·.position < ·.position))
    (behind : ∀ insertion ∈ insertions, Text.byteLength front < insertion.position.toNat)
    (fits : ∀ insertion ∈ insertions,
      (splitBehindBrace? source insertion.position).isSome = true) :
    Fits (Text.byteLength front) rest insertions := by
  induction insertions generalizing front rest with
  | nil => exact .nil
  | cons insertion later induction =>
      rcases List.pairwise_cons.mp increasing with ⟨below, laterIncreasing⟩
      have inside := behind insertion (List.mem_cons_self ..)
      rcases isSome_splitBehindBrace?_iff.mp (fits insertion (List.mem_cons_self ..)) with
        ⟨head, after, split, length⟩
      rcases exists_eq_append_of_byteLength_le (whole.trans split.symm) (by omega) with
        ⟨before, rfl, rfl⟩
      rw [Text.byteLength_append] at length
      refine .cons length ?_
      have place : Text.byteLength (front ++ before ++ ['\x7b']) = insertion.position.toNat := by
        rw [byteLength_brace, Text.byteLength_append, length]
      rw [← place]
      apply induction (by rw [← split]; simp) laterIncreasing
      · intro other member
        rw [place]
        exact UInt64.lt_iff_toNat_lt.mp (below other member)
      · exact fun other member => fits other (List.mem_cons_of_mem _ member)

theorem Orderly.fits_source {buffer : SourceBuffer} (orderly : buffer.Orderly) :
    Fits 0 buffer.source buffer.insertions := by
  have behind : ∀ insertion ∈ buffer.insertions,
      Text.byteLength [] < insertion.position.toNat := by
    intro insertion member
    rcases isSome_splitBehindBrace?_iff.mp (orderly.fits insertion member) with ⟨_, _, _, length⟩
    rw [Text.byteLength_nil]
    omega
  exact fits_of_increasing (List.nil_append _) orderly.increasing behind orderly.fits

/-- An insertion cuts a rest in two behind its brace, and the others fit in what they are on. -/
theorem Fits.cut {passed : Nat} {rest : List Char} {earlier later : List Insertion}
    {insertion : Insertion} (fits : Fits passed rest (earlier ++ insertion :: later)) :
    ∃ before after, before ++ '\x7b' :: after = rest ∧
      passed + Text.byteLength before + 1 = insertion.position.toNat ∧
      Fits passed before earlier ∧ Fits insertion.position.toNat after later ∧
      renderFrom passed rest (earlier ++ insertion :: later) =
        renderFrom passed before earlier ++ '\x7b' :: (insertion.block ++
          renderFrom insertion.position.toNat after later) := by
  induction earlier generalizing passed rest with
  | nil =>
      cases fits with
      | cons place fits => exact ⟨_, _, rfl, place, .nil, fits, renderFrom_cons place later⟩
  | cons first earlier induction =>
      cases fits with
      | @cons _ before after _ _ place fits =>
          rcases induction fits with ⟨between, last, rfl, length, betweenFits, lastFits, render⟩
          refine ⟨before ++ '\x7b' :: between, last, by simp, ?_, .cons place betweenFits,
            lastFits, ?_⟩
          · rw [Text.byteLength_append, byteLength_cons_brace, ← length, ← place]
            omega
          · rw [List.cons_append, renderFrom_cons place, render, renderFrom_cons place]
            simp

/-! ## Three ways to the same text -/

/-- The part of a source between two offsets, if both lie between characters and the first one does
not come after the second. -/
def slice? (source : List Char) (start stop : Nat) : Option (List Char) := do
  let (front, _) ← Text.splitAtByte? stop source
  let (_, part) ← Text.splitAtByte? start front
  some part

/-- One pass over the insertions that takes every part of the source by its offsets. -/
def renderSlices? (source : List Char) (passed : Nat) : List Insertion → Option (List Char)
  | [] => slice? source passed (Text.byteLength source)
  | insertion :: later => do
      let part ← slice? source passed insertion.position.toNat
      let rest ← renderSlices? source insertion.position.toNat later
      some (part ++ insertion.block ++ rest)

/-- Puts one block in. -/
def splice? (text : List Char) (insertion : Insertion) : Option (List Char) := do
  let (before, after) ← Text.splitAtByte? insertion.position.toNat text
  some (before ++ insertion.block ++ after)

/-- Takes one block out, if it is there. -/
def remove? (text : List Char) (insertion : Insertion) : Option (List Char) := do
  let (before, after) ← Text.splitAtByte? insertion.position.toNat text
  if insertion.block <+: after then some (before ++ after.drop insertion.block.length) else none

theorem slice?_between (first second third : List Char) :
    slice? (first ++ second ++ third) (Text.byteLength first)
      (Text.byteLength first + Text.byteLength second) = some second := by
  rw [slice?, splitAtByte?_behind (Text.byteLength_append ..)]
  show (Text.splitAtByte? _ (first ++ second)).bind _ = _
  rw [splitAtByte?_behind rfl]
  rfl

section

variable {passed : Nat} {front rest : List Char} {insertions : List Insertion}

/-- What stands in front of a rest and the brace that an insertion follows make the new front. -/
theorem byteLength_front (length : Text.byteLength front = passed) {before : List Char}
    {position : Nat} (place : passed + Text.byteLength before + 1 = position) :
    Text.byteLength (front ++ before ++ ['\x7b']) = position := by
  rw [byteLength_brace, Text.byteLength_append, length, place]

theorem Fits.renderSlices? (fits : Fits passed rest insertions)
    (length : Text.byteLength front = passed) :
    renderSlices? (front ++ rest) passed insertions =
      some (renderFrom passed rest insertions) := by
  induction fits generalizing front with
  | @nil passed rest =>
      have slice := slice?_between front rest []
      rw [List.append_nil, ← Text.byteLength_append, length] at slice
      exact slice
  | @cons passed before after insertion later place _ induction =>
      have slice := slice?_between front (before ++ ['\x7b']) after
      have rest := induction (byteLength_front length place)
      simp only [byteLength_brace, List.append_assoc, List.singleton_append,
        ← Nat.add_assoc, length, place] at slice rest
      rw [renderFrom_cons place, SourceBuffer.renderSlices?, slice, rest]
      simp

theorem Fits.splice? (fits : Fits passed rest insertions)
    (length : Text.byteLength front = passed) :
    insertions.reverse.foldlM splice? (front ++ rest) =
      some (front ++ renderFrom passed rest insertions) := by
  induction fits generalizing front with
  | nil => rfl
  | @cons passed before after insertion later place _ induction =>
      have last := induction (byteLength_front length place)
      have split := splitAtByte?_behind (byteLength_front length place)
        (renderFrom insertion.position.toNat after later)
      simp only [List.append_assoc, List.singleton_append] at last split
      rw [List.reverse_cons, List.foldlM_append, last, renderFrom_cons place]
      simp [SourceBuffer.splice?, split]

theorem Fits.remove? (fits : Fits passed rest insertions)
    (length : Text.byteLength front = passed) :
    insertions.foldlM remove? (front ++ renderFrom passed rest insertions) =
      some (front ++ rest) := by
  induction fits generalizing front with
  | nil => rfl
  | @cons passed before after insertion later place _ induction =>
      have rest := induction (byteLength_front length place)
      have split := splitAtByte?_behind (byteLength_front length place)
        (insertion.block ++ renderFrom insertion.position.toNat after later)
      simp only [List.append_assoc, List.singleton_append] at rest split
      rw [renderFrom_cons place, List.foldlM_cons, SourceBuffer.remove?, split]
      simpa using rest

end

/-! ## All requests together -/

/-- What comes of requests on a text, one after another. -/
structure InsertsOnly (text : String) (requests : List InsertRequest) : Prop where
  answer_ok_iff : ∀ request,
    (∃ next, ((ofText text).run requests).answer request = .ok next) ↔
      FollowsBrace text request.anchor.position.toNat ∧
        ∀ earlier ∈ (ofText text).granted requests,
          earlier.anchor.position ≠ request.anchor.position
  run_of_error : ∀ request fault, ((ofText text).run requests).answer request = .error fault →
    (ofText text).run (requests ++ [request]) = (ofText text).run requests
  held : (((ofText text).run requests).insertions.map some).Perm
    (((ofText text).granted requests).map (·.insertion? text.toList))
  increasing : ((ofText text).run requests).insertions.Pairwise (·.position < ·.position)
  sliced : renderSlices? text.toList 0 ((ofText text).run requests).insertions =
    some ((ofText text).run requests).render
  spliced : ((ofText text).run requests).insertions.reverse.foldlM splice? text.toList =
    some ((ofText text).run requests).render
  /-- What stands before the brace has the earlier blocks in it, and what follows the block the
  later ones. -/
  behindBrace : ∀ earlier insertion later,
    ((ofText text).run requests).insertions = earlier ++ insertion :: later →
      ∃ before after tail, before ++ '\x7b' :: after = text.toList ∧
        Text.byteLength before + 1 = insertion.position.toNat ∧
        (⟨text.toList, later⟩ : SourceBuffer).render = before ++ '\x7b' :: tail ∧
        ((ofText text).run requests).render =
          (⟨before, earlier⟩ : SourceBuffer).render ++ '\x7b' :: (insertion.block ++ tail)
  removed : ((ofText text).run requests).insertions.foldlM remove?
    ((ofText text).run requests).render = some text.toList
  reordered : ∀ requests', requests'.Perm ((ofText text).granted requests) →
    (ofText text).granted requests' = requests' ∧
      ((ofText text).run requests').text = ((ofText text).run requests).text

theorem Orderly.exists_behindBrace {buffer : SourceBuffer} (orderly : buffer.Orderly)
    {earlier later : List Insertion} {insertion : Insertion}
    (parts : buffer.insertions = earlier ++ insertion :: later) :
    ∃ before after tail, before ++ '\x7b' :: after = buffer.source ∧
      Text.byteLength before + 1 = insertion.position.toNat ∧
      (⟨buffer.source, later⟩ : SourceBuffer).render = before ++ '\x7b' :: tail ∧
      buffer.render =
        (⟨before, earlier⟩ : SourceBuffer).render ++ '\x7b' :: (insertion.block ++ tail) := by
  have fits := orderly.fits_source
  rw [parts] at fits
  rcases fits.cut with ⟨before, after, whole, place, _, laterFits, render⟩
  refine ⟨before, after, _, whole, by omega, ?_, by rw [SourceBuffer.render, parts, render]; rfl⟩
  have front : 0 + Text.byteLength (before ++ ['\x7b']) = insertion.position.toNat := by
    rw [byteLength_brace]
    omega
  have moved := @Fits.renderFrom_append 0 after later (before ++ ['\x7b']) (front ▸ laterFits)
  rw [front] at moved
  rw [← whole, SourceBuffer.render]
  simpa using moved

theorem run_insertsOnly (text : String) (requests : List InsertRequest) :
    InsertsOnly text requests := by
  have orderly := (orderly_ofText text).run requests
  have source : ((ofText text).run requests).source = text.toList := source_run ..
  have fits := orderly.fits_source
  rw [source] at fits
  have render : ((ofText text).run requests).render =
      renderFrom 0 text.toList ((ofText text).run requests).insertions := by
    rw [SourceBuffer.render, source]
  constructor
  · intro request
    rw [exists_answer_iff, source, isSome_insertion?_iff, isTaken_run_eq_false_iff]
  · intro request fault fails
    rw [run, List.foldl_append]
    show grant ((ofText text).run requests) request = _
    rw [grant, fails]
  · exact perm_insertions_run_ofText text requests
  · exact orderly.increasing
  · rw [render]
    exact fits.renderSlices? Text.byteLength_nil
  · rw [render]
    exact fits.splice? Text.byteLength_nil
  · intro earlier insertion later parts
    rw [← source]
    exact orderly.exists_behindBrace parts
  · rw [render]
    exact fits.remove? Text.byteLength_nil
  · intro requests' same
    rcases run_of_perm same with ⟨all, left⟩
    exact ⟨all, congrArg SourceBuffer.text left⟩

end MemberStubs.SourceBuffer
