import Mathlib.Logic.Relation
import MemberStubs.Proofs.Json.Tagged

/-! Changes of a document that its reader does not see. A view says what a reader knows of a
document: which names the fields of an object may have, and what is read under each of them. A step
puts the fields of an object into another order, adds a field whose name is not known there, or
replaces a kind that is not known by another one. It may be taken anywhere in the document. -/

namespace MemberStubs.Json

inductive View where
  /-- Nobody looks at the value. -/
  | ignored
  /-- A value without parts. If it is an object, then one that can have no other field. -/
  | single
  | list (item : View)
  | record (parts : List (String × View))
  /-- The kind under the tag says what the other parts are. A kind that is not listed has none. -/
  | tagged (room : Nat) (tag : String) (kinds : List (String × List (String × View)))

/-- The kind that stands under a tag. -/
def kind? (tag : String) : Json → Option String
  | .object fields =>
      match fields.filter fun field => unescape? field.1 = some tag.toList with
      | [(_, name)] => name.string?
      | _ => none
  | .array (name :: _) => name.string?
  | _ => none

namespace View

/-- The parts that are known in a document, in order. -/
def parts (view : View) (json : Json) : List (String × View) :=
  match view with
  | .record parts => parts
  | .tagged _ tag kinds =>
      (tag, .single) :: ((json.kind? tag).bind fun kind => kinds.lookup kind).getD []
  | _ => []

def names (view : View) (json : Json) : List String :=
  (view.parts json).map Prod.fst

def field (view : View) (json : Json) (name : String) : View :=
  ((view.parts json).lookup name).getD .ignored

def item (view : View) (json : Json) (position : Nat) : View :=
  match view with
  | .list item => item
  | _ => ((view.parts json)[position]?.map Prod.snd).getD .ignored

/-- Whether fields may be added to an object. -/
def isOpen : View → Bool
  | .single => false
  | _ => true

theorem mem_of_field {view : View} {json : Json} {name : String}
    (known : name ∈ view.names json) :
    (name, view.field json name) ∈ view.parts json := by
  rw [field]
  rw [names] at known
  generalize view.parts json = parts at known
  induction parts with
  | nil => cases known
  | cons part parts induction =>
      rcases part with ⟨other, inner⟩
      rw [List.lookup_cons]
      by_cases same : name = other
      · subst same
        simp
      · have later : name ∈ parts.map Prod.fst := by simpa [same] using known
        rw [beq_false_of_ne same]
        exact List.mem_cons_of_mem _ (induction later)

theorem mem_of_item {parts : List (String × View)} {json : Json} {name : String}
    {position : Nat} (known : (parts.map Prod.fst)[position]? = some name) :
    (name, (record parts).item json position) ∈ parts := by
  rw [List.getElem?_map] at known
  rcases Option.map_eq_some_iff.mp known with ⟨part, found, rfl⟩
  have inner : (record parts).item json position = part.2 := by
    show ((parts[position]?).map Prod.snd).getD .ignored = part.2
    rw [found]
    rfl
  rw [inner]
  exact List.mem_of_getElem? found

/-! A tagged record has room of its own, and no more than what is left around it. A value that is
not inside a tagged record has as much room as it needs. -/

def roomAt (view : View) (around : Option Nat) : Option Nat :=
  match view with
  | .tagged room _ _ => some (around.elim room (min room))
  | _ => around

def roomIn (view : View) (around : Option Nat) : Option Nat :=
  (view.roomAt around).map (· - 1)

/-- Inside a tagged record there is less room than around it. -/
theorem exists_roomAt_roomIn {view : View} {around : Option Nat} {free : Nat}
    (here : view.roomAt around = some free) (inner : View) :
    ∃ free', inner.roomAt (view.roomIn around) = some free' ∧ free' ≤ free - 1 := by
  rw [roomIn, here]
  cases inner with
  | tagged room tag kinds => exact ⟨_, rfl, Nat.min_le_right room (free - 1)⟩
  | _ => exact ⟨_, rfl, Nat.le_refl _⟩

end View

def Admits (room : Option Nat) (json : Json) : Prop :=
  ∀ free, room = some free → json.Fits free

inductive Step : Option Nat → View → Json → Json → Prop
  | reorder {around : Option Nat} {view : View} {fields fields' : List (List Char × Json)}
      (perm : fields.Perm fields') :
      Step around view (.object fields) (.object fields')
  | add {around : Option Nat} {view : View} {front back : List (List Char × Json)}
      {key name : List Char} {value : Json} (isOpen : view.isOpen = true)
      (named : unescape? key = some name)
      (unknown : String.ofList name ∉ view.names (.object (front ++ back)))
      (admitted : Admits (view.roomIn around) value) :
      Step around view (.object (front ++ back)) (.object (front ++ (key, value) :: back))
  | field {around : Option Nat} {view : View} {front back : List (List Char × Json)}
      {key name : List Char} {value value' : Json} (named : unescape? key = some name)
      (inner : Step (view.roomIn around)
        (view.field (.object (front ++ (key, value) :: back)) (String.ofList name)) value value') :
      Step around view (.object (front ++ (key, value) :: back))
        (.object (front ++ (key, value') :: back))
  | item {around : Option Nat} {view : View} {front back : List Json} {value value' : Json}
      (inner : Step (view.roomIn around)
        (view.item (.array (front ++ value :: back)) front.length) value value') :
      Step around view (.array (front ++ value :: back)) (.array (front ++ value' :: back))
  | kindField {around : Option Nat} {room : Nat} {tag : String}
      {kinds : List (String × List (String × View))} {front back : List (List Char × Json)}
      {key old new : List Char} {kind kind' : String} (named : unescape? key = some tag.toList)
      (isKind : (Json.string old).string? = some kind) (unknown : kinds.lookup kind = none)
      (isKind' : (Json.string new).string? = some kind') (unknown' : kinds.lookup kind' = none) :
      Step around (.tagged room tag kinds) (.object (front ++ (key, .string old) :: back))
        (.object (front ++ (key, .string new) :: back))
  | kindItem {around : Option Nat} {room : Nat} {tag : String}
      {kinds : List (String × List (String × View))} {items : List Json}
      {old new : List Char} {kind kind' : String}
      (isKind : (Json.string old).string? = some kind) (unknown : kinds.lookup kind = none)
      (isKind' : (Json.string new).string? = some kind') (unknown' : kinds.lookup kind' = none) :
      Step around (.tagged room tag kinds) (.array (.string old :: items))
        (.array (.string new :: items))

theorem fits_of_string? {lexeme : List Char} {text : String}
    (read : (Json.string lexeme).string? = some text) (room : Nat) :
    (Json.string lexeme).Fits room := by
  rcases Option.map_eq_some_iff.mp read with ⟨chars, meant, _⟩
  exact ⟨Option.isSome_of_eq_some meant, Nat.zero_le room⟩

theorem Fits.replaceField {room : Nat} {front back : List (List Char × Json)} {key : List Char}
    {value value' : Json} (before : (Json.object (front ++ (key, value) :: back)).Fits room)
    (after : value.Fits (room - 1) → value'.Fits (room - 1)) :
    (Json.object (front ++ (key, value') :: back)).Fits room := by
  rw [fits_object_iff, List.forall_mem_append, List.forall_mem_cons] at before ⊢
  rcases before with ⟨pos, first, ⟨named, held⟩, later⟩
  exact ⟨pos, first, ⟨named, after held⟩, later⟩

theorem Fits.replaceItem {room : Nat} {front back : List Json} {value value' : Json}
    (before : (Json.array (front ++ value :: back)).Fits room)
    (after : value.Fits (room - 1) → value'.Fits (room - 1)) :
    (Json.array (front ++ value' :: back)).Fits room := by
  rw [fits_array_iff, List.forall_mem_append, List.forall_mem_cons] at before ⊢
  rcases before with ⟨pos, first, held, later⟩
  exact ⟨pos, first, after held, later⟩

inductive IsContainer : Json → Prop
  | array (items : List Json) : IsContainer (.array items)
  | object (fields : List (List Char × Json)) : IsContainer (.object fields)

namespace Step

variable {around : Option Nat} {view : View} {json json' : Json}

theorem isContainer (step : Step around view json json') :
    json.IsContainer ∧ json'.IsContainer := by
  cases step with
  | item | kindItem => exact ⟨.array _, .array _⟩
  | _ => exact ⟨.object _, .object _⟩

/-- A value that changes inside a tagged record stays as high as there is room for. -/
theorem fits (step : Step around view json json') {free room : Nat}
    (here : view.roomAt around = some free) (enough : free ≤ room) (before : json.Fits room) :
    json'.Fits room := by
  induction step generalizing free room with
  | reorder perm =>
      rw [fits_object_iff] at before ⊢
      exact ⟨before.1, fun field member => before.2 field (perm.mem_iff.mpr member)⟩
  | @add around view front back key name value isOpen named unknown admitted =>
      have inside : view.roomIn around = some (free - 1) := by rw [View.roomIn, here]; rfl
      rw [fits_object_iff, List.forall_mem_append] at before ⊢
      rcases before with ⟨pos, first, later⟩
      refine ⟨pos, first, List.forall_mem_cons.mpr ⟨⟨Option.isSome_of_eq_some named, ?_⟩, later⟩⟩
      exact (admitted _ inside).mono (Nat.sub_le_sub_right enough 1)
  | @field around view front back key name value value' named inner induction =>
      rcases View.exists_roomAt_roomIn here _ with ⟨_, inside, atMost⟩
      exact before.replaceField (induction inside (atMost.trans (Nat.sub_le_sub_right enough 1)))
  | @item around view front back value value' inner induction =>
      rcases View.exists_roomAt_roomIn here _ with ⟨_, inside, atMost⟩
      exact before.replaceItem (induction inside (atMost.trans (Nat.sub_le_sub_right enough 1)))
  | kindField _ _ _ isKind' _ => exact before.replaceField fun _ => fits_of_string? isKind' _
  | @kindItem _ _ _ _ items _ _ _ _ _ _ isKind' _ =>
      exact @Fits.replaceItem room [] items _ _ before fun _ => fits_of_string? isKind' _

end Step

end MemberStubs.Json
