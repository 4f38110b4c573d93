import MemberStubs.Source.Buffer
import Mathlib.Data.List.Perm.Basic

/-! Requests for insertions, one after another. A buffer holds what the requests that succeeded ask
for, ordered by position; every insertion stands behind a brace of the source and no two share a
position. Which of the requests came first leaves no trace. -/

namespace MemberStubs

structure InsertRequest where
  anchor : Anchor
  text : List Char
  layout : Layout

/-- What a request puts into a source, if its anchor fits there. -/
def InsertRequest.insertion? (request : InsertRequest) (source : List Char) : Option Insertion :=
  (SourceBuffer.splitBehindBrace? source request.anchor.position).map fun (before, after) =>
    ⟨request.anchor.position, request.layout.placedBlock before after request.text⟩

namespace SourceBuffer

def answer (buffer : SourceBuffer) (request : InsertRequest) : Except AnchorFault SourceBuffer :=
  buffer.insert request.anchor request.text request.layout

/-- The buffer behind a request. One that fails has no buffer to offer, and the old one stays. -/
def grant (buffer : SourceBuffer) (request : InsertRequest) : SourceBuffer :=
  match buffer.answer request with
  | .ok next => next
  | .error _ => buffer

def run (buffer : SourceBuffer) (requests : List InsertRequest) : SourceBuffer :=
  requests.foldl grant buffer

/-- The requests that succeed when all are made in turn. -/
def granted (buffer : SourceBuffer) : List InsertRequest → List InsertRequest
  | [] => []
  | request :: later =>
      match buffer.answer request with
      | .ok next => request :: next.granted later
      | .error _ => buffer.granted later

/-! ## One request -/

theorem position_of_insertion? {request : InsertRequest} {source : List Char}
    {insertion : Insertion} (asked : request.insertion? source = some insertion) :
    insertion.position = request.anchor.position := by
  rcases Option.map_eq_some_iff.mp asked with ⟨parts, _, rfl⟩
  rfl

theorem isTaken_eq_false_iff {buffer : SourceBuffer} {position : UInt64} :
    buffer.isTaken position = false ↔
      ∀ insertion ∈ buffer.insertions, insertion.position ≠ position := by
  simp [isTaken]

theorem answer_eq_ok_iff {buffer next : SourceBuffer} {request : InsertRequest} :
    buffer.answer request = .ok next ↔
      ∃ insertion, request.insertion? buffer.source = some insertion ∧
        buffer.isTaken insertion.position = false ∧
        next = { buffer with insertions := addInsertion insertion buffer.insertions } := by
  rw [answer, insert, InsertRequest.insertion?]
  cases splitBehindBrace? buffer.source request.anchor.position with
  | none => simp
  | some parts =>
      cases taken : buffer.isTaken request.anchor.position with
      | true => simp [taken]
      | false => simp [taken, eq_comm (a := next)]

/-- A request succeeds if its anchor fits and its position is free. -/
theorem exists_answer_iff {buffer : SourceBuffer} {request : InsertRequest} :
    (∃ next, buffer.answer request = .ok next) ↔
      (request.insertion? buffer.source).isSome = true ∧
        buffer.isTaken request.anchor.position = false := by
  simp only [answer_eq_ok_iff, Option.isSome_iff_exists]
  constructor
  · rintro ⟨_, insertion, asked, free, _⟩
    exact ⟨⟨insertion, asked⟩, position_of_insertion? asked ▸ free⟩
  · rintro ⟨⟨insertion, asked⟩, free⟩
    exact ⟨_, insertion, asked, (position_of_insertion? asked).symm ▸ free, rfl⟩

theorem perm_addInsertion (insertion : Insertion) (insertions : List Insertion) :
    (addInsertion insertion insertions).Perm (insertion :: insertions) := by
  induction insertions with
  | nil => exact .refl _
  | cons first later induction =>
      rw [addInsertion]
      split
      · exact .refl _
      · exact (induction.cons first).trans (.swap ..)

theorem increasing_addInsertion {insertion : Insertion} {insertions : List Insertion}
    (increasing : insertions.Pairwise (·.position < ·.position))
    (free : ∀ other ∈ insertions, other.position ≠ insertion.position) :
    (addInsertion insertion insertions).Pairwise (·.position < ·.position) := by
  induction insertions with
  | nil => exact List.pairwise_singleton ..
  | cons first later induction =>
      rcases List.pairwise_cons.mp increasing with ⟨below, rest⟩
      rw [addInsertion]
      split
      · next before =>
          refine List.pairwise_cons.mpr ⟨fun other member => ?_, increasing⟩
          rcases List.mem_cons.mp member with rfl | member
          · exact before
          · exact UInt64.lt_trans before (below other member)
      · next notBefore =>
          have after : first.position < insertion.position :=
            UInt64.lt_of_le_of_ne (UInt64.not_lt.mp notBefore) (free first (List.mem_cons_self ..))
          refine List.pairwise_cons.mpr ⟨fun other member => ?_,
            induction rest fun other member => free other (List.mem_cons_of_mem _ member)⟩
          rcases List.mem_cons.mp ((perm_addInsertion ..).mem_iff.mp member) with rfl | member
          · exact after
          · exact below other member

/-! ## Requests in turn -/

/-- What every buffer keeps: its insertions are in order, and each was asked for. -/
structure Orderly (buffer : SourceBuffer) : Prop where
  increasing : buffer.insertions.Pairwise (·.position < ·.position)
  fits : ∀ insertion ∈ buffer.insertions,
    (splitBehindBrace? buffer.source insertion.position).isSome = true

theorem orderly_ofText (text : String) : (ofText text).Orderly :=
  ⟨.nil, by simp [ofText]⟩

theorem Orderly.answer {buffer next : SourceBuffer} {request : InsertRequest}
    (orderly : buffer.Orderly) (succeeds : buffer.answer request = .ok next) : next.Orderly := by
  rcases answer_eq_ok_iff.mp succeeds with ⟨insertion, asked, free, rfl⟩
  refine ⟨increasing_addInsertion orderly.increasing (isTaken_eq_false_iff.mp free), ?_⟩
  intro other member
  rcases List.mem_cons.mp ((perm_addInsertion ..).mem_iff.mp member) with rfl | member
  · rw [position_of_insertion? asked]
    simpa [InsertRequest.insertion?] using congrArg Option.isSome asked
  · exact orderly.fits other member

@[simp] theorem source_run (buffer : SourceBuffer) (requests : List InsertRequest) :
    (buffer.run requests).source = buffer.source := by
  induction requests generalizing buffer with
  | nil => rfl
  | cons request later induction =>
      rw [run, List.foldl_cons, ← run, induction, grant]
      split
      · next succeeds =>
          rcases answer_eq_ok_iff.mp succeeds with ⟨_, _, _, rfl⟩
          rfl
      · rfl

theorem Orderly.run {buffer : SourceBuffer} (orderly : buffer.Orderly)
    (requests : List InsertRequest) : (buffer.run requests).Orderly := by
  induction requests generalizing buffer with
  | nil => exact orderly
  | cons request later induction =>
      apply induction
      rw [grant]
      split
      · next succeeds => exact orderly.answer succeeds
      · exact orderly

/-- A buffer holds what it held, and what the requests that succeeded ask for. -/
theorem perm_insertions_run (buffer : SourceBuffer) (requests : List InsertRequest) :
    ((buffer.run requests).insertions.map some).Perm
      (buffer.insertions.map some ++
        (buffer.granted requests).map (·.insertion? buffer.source)) := by
  induction requests generalizing buffer with
  | nil => simp [run, granted]
  | cons request later induction =>
      rw [run, List.foldl_cons, ← run, granted, grant]
      split
      · next succeeds =>
          rcases answer_eq_ok_iff.mp succeeds with ⟨insertion, asked, _, rfl⟩
          refine (induction _).trans ?_
          rw [List.map_cons, asked]
          refine (((perm_addInsertion ..).map some).append_right _).trans ?_
          exact List.perm_middle.symm
      · exact induction buffer

theorem perm_insertions_run_ofText (text : String) (requests : List InsertRequest) :
    (((ofText text).run requests).insertions.map some).Perm
      (((ofText text).granted requests).map (·.insertion? text.toList)) :=
  perm_insertions_run (ofText text) requests

section

variable {text : String} {requests : List InsertRequest}

theorem isSome_insertion?_of_granted {request : InsertRequest}
    (succeeded : request ∈ (ofText text).granted requests) :
    (request.insertion? text.toList).isSome = true := by
  have asked := (perm_insertions_run_ofText text requests).mem_iff.mpr
    (List.mem_map_of_mem (f := (·.insertion? text.toList)) succeeded)
  rcases List.mem_map.mp asked with ⟨insertion, _, same⟩
  rw [← same]
  rfl

/-- The positions that are taken are those of the requests that succeeded. -/
theorem perm_positions_run (text : String) (requests : List InsertRequest) :
    (((ofText text).run requests).insertions.map Insertion.position).Perm
      (((ofText text).granted requests).map (·.anchor.position)) := by
  have held := (perm_insertions_run_ofText text requests).map (Option.map Insertion.position)
  rw [List.map_map, List.map_map] at held
  have asked : ((ofText text).granted requests).map
      (Option.map Insertion.position ∘ (·.insertion? text.toList)) =
      (((ofText text).granted requests).map (·.anchor.position)).map some := by
    rw [List.map_map]
    apply List.map_congr_left
    intro request succeeded
    rcases Option.isSome_iff_exists.mp (isSome_insertion?_of_granted succeeded) with
      ⟨insertion, found⟩
    simp [found, position_of_insertion? found]
  rw [asked] at held
  simpa [List.filterMap_map] using held.filterMap id

theorem isTaken_run_eq_false_iff {position : UInt64} :
    ((ofText text).run requests).isTaken position = false ↔
      ∀ request ∈ (ofText text).granted requests, request.anchor.position ≠ position := by
  have positions := (perm_positions_run text requests).mem_iff (a := position)
  rw [isTaken_eq_false_iff]
  simp only [List.mem_map] at positions
  constructor
  · intro free request succeeded same
    rcases positions.mpr ⟨request, succeeded, same⟩ with ⟨insertion, held, at'⟩
    exact free insertion held at'
  · intro free insertion held at'
    rcases positions.mp ⟨insertion, held, at'⟩ with ⟨request, succeeded, same⟩
    exact free request succeeded same

theorem nodup_positions_granted (text : String) (requests : List InsertRequest) :
    (((ofText text).granted requests).map (·.anchor.position)).Nodup := by
  rw [← (perm_positions_run text requests).nodup_iff]
  refine List.pairwise_map.mpr (((orderly_ofText text).run requests).increasing.imp ?_)
  intro first second before
  exact UInt64.ne_of_lt before

end

/-! ## Requests in another order -/

/-- Requests with anchors that fit, at positions that are free and apart, all succeed. -/
theorem granted_of_apart {buffer : SourceBuffer} {requests : List InsertRequest}
    (fit : ∀ request ∈ requests, (request.insertion? buffer.source).isSome = true)
    (free : ∀ request ∈ requests, buffer.isTaken request.anchor.position = false)
    (apart : (requests.map (·.anchor.position)).Nodup) : buffer.granted requests = requests := by
  induction requests generalizing buffer with
  | nil => rfl
  | cons request later induction =>
      rcases List.nodup_cons.mp apart with ⟨other, rest⟩
      rcases exists_answer_iff.mpr ⟨fit request (List.mem_cons_self ..),
        free request (List.mem_cons_self ..)⟩ with ⟨next, succeeds⟩
      rw [granted, succeeds]
      rcases answer_eq_ok_iff.mp succeeds with ⟨insertion, asked, _, rfl⟩
      refine congrArg (request :: ·) (induction
        (fun next member => fit next (List.mem_cons_of_mem _ member)) (fun next member => ?_) rest)
      have before := isTaken_eq_false_iff.mp (free next (List.mem_cons_of_mem _ member))
      rw [isTaken_eq_false_iff]
      intro held stored
      rcases List.mem_cons.mp ((perm_addInsertion ..).mem_iff.mp stored) with rfl | stored
      · rw [position_of_insertion? asked]
        exact fun same => other (List.mem_map.mpr ⟨next, member, same.symm⟩)
      · exact before held stored

theorem eq_of_increasing {first second : List Insertion}
    (increasing : first.Pairwise (·.position < ·.position))
    (increasing' : second.Pairwise (·.position < ·.position)) (same : first.Perm second) :
    first = second := by
  refine same.eq_of_pairwise ?_ increasing increasing'
  intro insertion other _ _ before after
  exact absurd (UInt64.lt_trans before after) (UInt64.lt_irrefl _)

/-- The requests that succeeded succeed in every order and leave the same buffer. -/
theorem run_of_perm {text : String} {requests reordered : List InsertRequest}
    (same : reordered.Perm ((ofText text).granted requests)) :
    (ofText text).granted reordered = reordered ∧
      (ofText text).run reordered = (ofText text).run requests := by
  have all : (ofText text).granted reordered = reordered := by
    apply granted_of_apart
    · intro request member
      exact isSome_insertion?_of_granted (same.mem_iff.mp member)
    · intro request member
      rfl
    · exact (same.map _).nodup_iff.mpr (nodup_positions_granted text requests)
  refine ⟨all, ?_⟩
  have held : (((ofText text).run reordered).insertions.map some).Perm
      (((ofText text).run requests).insertions.map some) := by
    refine (perm_insertions_run_ofText text reordered).trans ?_
    rw [all]
    exact (same.map _).trans (perm_insertions_run_ofText text requests).symm
  have insertions := eq_of_increasing ((orderly_ofText text).run reordered).increasing
    ((orderly_ofText text).run requests).increasing
    (by simpa [List.filterMap_map] using held.filterMap id)
  have source : ((ofText text).run reordered).source = ((ofText text).run requests).source := by
    simp
  cases first : (ofText text).run reordered
  cases second : (ofText text).run requests
  simp_all

end SourceBuffer

end MemberStubs
