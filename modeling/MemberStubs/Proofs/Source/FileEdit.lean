import Mathlib.Data.List.Nodup
import MemberStubs.Proofs.Source.Splice
import MemberStubs.Source.PolicyBlock

/-! The class edits of a file as requests for insertions. They are rendered if all of them succeed,
which depends on the anchors alone. -/

namespace MemberStubs

open SourceBuffer

def ClassEdit.request (layout : Layout) (edited : ClassEdit) : InsertRequest :=
  ⟨edited.anchor, edited.block.toList, layout⟩

/-- Every anchor follows a brace of the text, and no two are the same. -/
structure AnchorsFit (contents : String) (classes : List ClassEdit) : Prop where
  followBraces : ∀ edited ∈ classes, FollowsBrace contents edited.anchor.position.toNat
  nodup : (classes.map ClassEdit.anchor).Nodup

theorem AnchorsFit.perm {contents : String} {classes order : List ClassEdit}
    (fit : AnchorsFit contents classes) (same : order.Perm classes) :
    AnchorsFit contents order :=
  ⟨fun edited member => fit.followBraces edited (same.mem_iff.mp member),
    (same.map ClassEdit.anchor).nodup_iff.mpr fit.nodup⟩

theorem SourceBuffer.length_granted_le (buffer : SourceBuffer) (requests : List InsertRequest) :
    (buffer.granted requests).length ≤ requests.length := by
  fun_induction granted buffer requests with
  | case1 => exact Nat.le_refl _
  | case2 buffer request later next succeeds induction => exact Nat.succ_le_succ induction
  | case3 buffer request later fault fails induction => exact Nat.le_succ_of_le induction

/-- A text that is cut behind the anchor of a class. -/
structure CutAt (contents : String) (anchor : Anchor) (before after : List Char) : Prop where
  whole : before ++ '\x7b' :: after = contents.toList
  place : Text.byteLength before + 1 = anchor.position.toNat

namespace CutAt

variable {contents : String} {anchor : Anchor} {before after : List Char}

theorem splitAtByte?_eq (cut : CutAt contents anchor before after) :
    Text.splitAtByte? anchor.position.toNat contents.toList =
      some (before ++ ['\x7b'], after) :=
  Text.splitAtByte?_eq_some_iff.mpr
    ⟨by rw [← cut.whole]; simp, by rw [byteLength_brace, cut.place]⟩

theorem insertion?_eq (cut : CutAt contents anchor before after) {request : InsertRequest}
    (same : request.anchor = anchor) :
    request.insertion? contents.toList = some ⟨anchor.position,
      request.layout.placedBlock (before ++ ['\x7b']) after request.text⟩ := by
  rw [InsertRequest.insertion?, same, splitBehindBrace?, cut.splitAtByte?_eq]
  simp

end CutAt

theorem exists_cutAt {contents : String} {anchor : Anchor}
    (follows : FollowsBrace contents anchor.position.toNat) :
    ∃ before after, CutAt contents anchor before after := by
  have fits := (@isSome_insertion?_iff contents ⟨anchor, [], {}⟩).mpr follows
  rw [InsertRequest.insertion?, Option.isSome_map] at fits
  rcases isSome_splitBehindBrace?_iff.mp fits with ⟨before, after, whole, place⟩
  exact ⟨before, after, whole, place⟩

namespace FileEdit

section

variable {edit : FileEdit} {layout : Layout}

theorem insertClass_eq_ok_iff {buffer next : SourceBuffer} {edited : ClassEdit} :
    edit.insertClass layout buffer edited = .ok next ↔
      buffer.answer (edited.request layout) = .ok next := by
  rw [insertClass, SourceBuffer.answer, ClassEdit.request]
  cases buffer.insert edited.anchor edited.block.toList layout with
  | error fault => simp
  | ok other => simp

theorem foldlM_insertClass_eq_ok_iff {classes : List ClassEdit} {buffer last : SourceBuffer} :
    classes.foldlM (edit.insertClass layout) buffer = .ok last ↔
      buffer.granted (classes.map (ClassEdit.request layout)) =
          classes.map (ClassEdit.request layout) ∧
        last = buffer.run (classes.map (ClassEdit.request layout)) := by
  induction classes generalizing buffer with
  | nil => simp [granted, run, pure, Except.pure, eq_comm]
  | cons edited classes induction =>
      rw [List.foldlM_cons, List.map_cons, granted, run, List.foldl_cons, ← run, grant]
      cases answer : buffer.answer (edited.request layout) with
      | ok next =>
          rw [insertClass_eq_ok_iff.mpr answer]
          simpa [bind, Except.bind] using induction
      | error fault =>
          cases fails : edit.insertClass layout buffer edited with
          | ok next =>
              rw [insertClass_eq_ok_iff.mp fails] at answer
              cases answer
          | error misfit =>
              simp only [bind, Except.bind, reduceCtorEq, false_iff, not_and]
              intro all
              have impossible := length_granted_le buffer (classes.map (ClassEdit.request layout))
              rw [all, List.length_cons] at impossible
              omega

theorem granted_eq_iff (layout : Layout) {contents : String} {classes : List ClassEdit} :
    (ofText contents).granted (classes.map (ClassEdit.request layout)) =
        classes.map (ClassEdit.request layout) ↔ AnchorsFit contents classes := by
  have anchors : (classes.map (ClassEdit.request layout)).map (·.anchor.position) =
      (classes.map ClassEdit.anchor).map Anchor.position := by
    simp [ClassEdit.request]
  have injective : Function.Injective Anchor.position := by
    rintro ⟨first⟩ ⟨second⟩ same
    exact congrArg Anchor.mk same
  constructor
  · intro all
    have nodup := nodup_positions_granted contents (classes.map (ClassEdit.request layout))
    rw [all, anchors] at nodup
    refine ⟨fun edited member => ?_, List.Nodup.of_map _ nodup⟩
    have succeeds : edited.request layout ∈
        (ofText contents).granted (classes.map (ClassEdit.request layout)) := by
      rw [all]
      exact List.mem_map_of_mem member
    exact isSome_insertion?_iff.mp (isSome_insertion?_of_granted succeeds)
  · rintro ⟨followBraces, nodup⟩
    apply granted_of_apart
    · rintro request asked
      rcases List.mem_map.mp asked with ⟨edited, member, rfl⟩
      exact isSome_insertion?_iff.mpr (followBraces edited member)
    · exact fun request member => rfl
    · rw [anchors]
      exact List.Nodup.map injective nodup

/-- A file is rendered if all its anchors fit, and then with all its blocks. -/
theorem render_eq_ok_iff {contents text : String} :
    edit.render contents layout = .ok text ↔ AnchorsFit contents edit.classes ∧
      ((ofText contents).run (edit.classes.map (ClassEdit.request layout))).text = text := by
  rw [render, buffer, ← granted_eq_iff layout]
  have whole := @foldlM_insertClass_eq_ok_iff edit layout edit.classes (ofText contents)
  cases all : edit.classes.foldlM (edit.insertClass layout) (ofText contents) with
  | error misfit =>
      simp only [Except.map, reduceCtorEq, false_iff, not_and]
      intro granted
      rw [whole.mpr ⟨granted, rfl⟩] at all
      cases all
  | ok last =>
      rcases whole.mp all with ⟨granted, rfl⟩
      simp [Except.map, granted]

theorem exists_of_foldlM_error {classes : List ClassEdit} {buffer : SourceBuffer} {misfit : Misfit}
    (fails : classes.foldlM (edit.insertClass layout) buffer = .error misfit) :
    ∃ edited ∈ classes, ∃ fault, misfit = ⟨edit.path, edited.displayName, fault⟩ := by
  induction classes generalizing buffer with
  | nil => cases fails
  | cons edited classes induction =>
      rw [List.foldlM_cons, insertClass] at fails
      cases answer : buffer.insert edited.anchor edited.block.toList layout with
      | error fault =>
          rw [answer] at fails
          cases fails
          exact ⟨edited, List.mem_cons_self .., fault, rfl⟩
      | ok next =>
          rw [answer] at fails
          rcases induction fails with ⟨other, member, fault, same⟩
          exact ⟨other, List.mem_cons_of_mem _ member, fault, same⟩

/-- A file that is not rendered is refused for the sake of one of its classes. -/
theorem exists_misfit {contents : String} (misfits : ¬AnchorsFit contents edit.classes) :
    ∃ edited ∈ edit.classes, ∃ fault,
      edit.render contents layout = .error ⟨edit.path, edited.displayName, fault⟩ := by
  cases rendered : edit.render contents layout with
  | ok text => exact absurd (render_eq_ok_iff.mp rendered).1 misfits
  | error misfit =>
      rw [render, buffer] at rendered
      cases all : edit.classes.foldlM (edit.insertClass layout) (ofText contents) with
      | ok last =>
          rw [all] at rendered
          cases rendered
      | error other =>
          rw [all] at rendered
          cases rendered
          rcases exists_of_foldlM_error all with ⟨edited, member, fault, rfl⟩
          exact ⟨edited, member, fault, rfl⟩

/-- The order of the classes makes no difference. -/
theorem render_of_perm {contents text : String} {order : List ClassEdit}
    (rendered : edit.render contents layout = .ok text) (same : order.Perm edit.classes) :
    { edit with classes := order }.render contents layout = .ok text := by
  rcases render_eq_ok_iff.mp rendered with ⟨fit, rfl⟩
  refine render_eq_ok_iff.mpr ⟨fit.perm same, congrArg SourceBuffer.text ?_⟩
  have granted := (granted_eq_iff layout).mpr fit
  refine (run_of_perm ?_).2
  rw [granted]
  exact same.map _

/-- A file that is rendered has the insertion that each of its classes asks for. -/
theorem exists_insertions {contents : String} (fit : AnchorsFit contents edit.classes)
    (layout : Layout) :
    ∃ insertions : List Insertion, insertions.Pairwise (·.position < ·.position) ∧
      Fits 0 contents.toList insertions ∧
      (insertions.map some).Perm (edit.classes.map fun edited =>
        (edited.request layout).insertion? contents.toList) ∧
      edit.render contents layout =
        .ok (String.ofList (renderFrom 0 contents.toList insertions)) := by
  have orderly := (orderly_ofText contents).run (edit.classes.map (ClassEdit.request layout))
  have held := perm_insertions_run_ofText contents (edit.classes.map (ClassEdit.request layout))
  rw [(granted_eq_iff layout).mpr fit, List.map_map] at held
  have fits := orderly.fits_source
  rw [source_run] at fits
  refine ⟨_, orderly.increasing, fits, held, render_eq_ok_iff.mpr ⟨fit, ?_⟩⟩
  rw [SourceBuffer.text, SourceBuffer.render, source_run]
  rfl

/-- The text of a file whose insertions are known. -/
theorem render_eq_of_perm (edit : FileEdit) (layout : Layout) {contents : String}
    {insertions : List Insertion}
    (fit : AnchorsFit contents edit.classes)
    (increasing : insertions.Pairwise (·.position < ·.position))
    (asked : (insertions.map some).Perm (edit.classes.map fun edited =>
      (edited.request layout).insertion? contents.toList)) :
    edit.render contents layout =
      .ok (String.ofList (renderFrom 0 contents.toList insertions)) := by
  rcases exists_insertions fit layout with ⟨held, heldIncreasing, _, heldAsked, render⟩
  have same := (heldAsked.trans asked.symm).filterMap id
  rw [List.filterMap_map, List.filterMap_map] at same
  have insertions := eq_of_increasing heldIncreasing increasing (by simpa using same)
  rw [render, insertions]

end

end FileEdit

end MemberStubs
