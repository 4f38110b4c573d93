import Mathlib.Data.List.Nodup
import Mathlib.Data.List.Perm.Basic
import Mathlib.Data.Option.Basic
import MemberStubs.Document.Diagnostic
import MemberStubs.Proofs.Json.View

/-! Readers that do not see the steps of a view. A reader of a record looks its fields up by their
names, so it is enough that each part is read in this way. -/

namespace MemberStubs.Json

/-- What is read stays the same over every step. -/
def Tolerates (read : Json → Option α) (view : View) : Prop :=
  ∀ around json json' value, Step around view json json' → read json = some value →
    read json' = some value

theorem Tolerates.bind {read : Json → Option α} {view : View}
    (tolerates : Tolerates read view) (onward : α → Option β) :
    Tolerates (fun json => (read json).bind onward) view := by
  intro around json json' value step reads
  rcases Option.bind_eq_some_iff.mp reads with ⟨first, found, rest⟩
  exact Option.bind_eq_some_iff.mpr ⟨first, tolerates around json json' first step found, rest⟩

/-! ## Single values -/

theorem Tolerates.leaf {read : Json → Option α} (array : ∀ items, read (.array items) = none)
    (object : ∀ fields, read (.object fields) = none) : Tolerates read .single := by
  intro around json json' value step reads
  cases step.isContainer.1 with
  | array items => cases (array items).symm.trans reads
  | object fields => cases (object fields).symm.trans reads

theorem tolerates_string : Tolerates string? .single :=
  .leaf (fun _ => rfl) fun _ => rfl

theorem tolerates_path : Tolerates path? .single :=
  .leaf (fun _ => rfl) fun _ => rfl

theorem tolerates_bool : Tolerates bool? .single :=
  .leaf (fun _ => rfl) fun _ => rfl

theorem tolerates_uint64 : Tolerates uint64? .single :=
  .leaf (fun _ => rfl) fun _ => rfl

theorem tolerates_uint32 : Tolerates uint32? .single :=
  .leaf (fun _ => rfl) fun _ => rfl

/-- Nothing can be done to the object that maps a name to null. -/
theorem Step.eq_of_name {around : Option Nat} {key : List Char} {json json' : Json}
    (step : Step around .single json json') (name : json = .object [(key, .null)]) :
    json' = json := by
  cases step with
  | reorder perm =>
      cases name
      rw [List.singleton_perm.mp perm]
  | add isOpen => cases isOpen
  | @field _ _ front back other _ value _ _ inner =>
      have held : (other, value) ∈ [(key, Json.null)] :=
        Json.object.inj name ▸ List.mem_append_right front (List.mem_cons_self ..)
      cases List.mem_singleton.mp held
      cases inner.isContainer.1
  | item inner => cases name

theorem tolerates_choice : Tolerates choice? .single := by
  intro around json json' value step reads
  have name : ∃ key, json = .object [(key, .null)] := by
    cases step.isContainer.1 with
    | array items => cases reads
    | object fields =>
        rcases fields with _ | ⟨⟨key, _ | _⟩, _ | _⟩ <;> first | cases reads | exact ⟨_, rfl⟩
  rcases name with ⟨key, name⟩
  rw [step.eq_of_name name, reads]

/-! ## Lists and values that may be null -/

section

variable {read : Json → Option α} {view : View}

theorem Tolerates.list (tolerates : Tolerates read view) :
    Tolerates (list? read) (.list view) := by
  intro around json json' values step reads
  cases step with
  | reorder | add | field => cases reads
  | @item _ _ front back value value' inner =>
      simp only [list?, List.mapM_append, List.mapM_cons] at reads ⊢
      cases found : read value with
      | none => simp [found] at reads
      | some first => rwa [tolerates _ _ _ _ inner found, ← found]

theorem Tolerates.nullable (tolerates : Tolerates read view) :
    Tolerates (nullable? read) view := by
  have notNull : ∀ json : Json, json.IsContainer → nullable? read json = (read json).map some := by
    rintro _ (_ | _) <;> rfl
  intro around json json' value step reads
  rw [notNull json step.isContainer.1] at reads
  rw [notNull json' step.isContainer.2]
  rcases Option.map_eq_some_iff.mp reads with ⟨inner, found, rfl⟩
  rw [tolerates around json json' inner step found, Option.map_some]

end

/-! ## Fields of a record -/

/-- The fields of a record after a step: each known part is there as before, or one step further. -/
def Fields.Follow (around : Option Nat) (parts : List (String × View))
    (fields fields' : Fields) : Prop :=
  ∀ part ∈ parts, Option.Rel (Relation.ReflGen (Step around part.2)) (fields.lookup part.1)
    (fields'.lookup part.1)

namespace Fields.Follow

variable {around : Option Nat} {parts : List (String × View)} {fields fields' : Fields}

theorem of_lookup_eq (same : ∀ name, fields.lookup name = fields'.lookup name) :
    Follow around parts fields fields' := by
  intro part _
  rw [same]
  cases fields'.lookup part.1 with
  | none => exact .none
  | some value => exact .some .refl

/-- Of the parts that come before the stepping one, and of those behind it, none moves. -/
theorem of_step {name : String} {view : View} {before after : Fields} {value value' : Json}
    (distinct : (parts.map Prod.fst).Nodup) (held : (name, view) ∈ parts)
    (step : Step around view value value') :
    Follow around parts (before ++ (name, value) :: after) (before ++ (name, value') :: after) := by
  rintro ⟨other, inner⟩ member
  have first (json : Json) : (before ++ (name, json) :: after).lookup other =
      (before.lookup other).or (if other = name then some json else after.lookup other) := by
    rw [List.lookup_append, List.lookup_cons]
    by_cases same : other = name
    · simp [same]
    · simp [same, beq_false_of_ne same]
  rw [first, first]
  cases before.lookup other with
  | some json => exact .some .refl
  | none =>
      rw [Option.none_or, Option.none_or]
      split
      · next same =>
          cases List.inj_on_of_nodup_map distinct held member same.symm
          exact .some (.single step)
      · cases after.lookup other with
        | none => exact .none
        | some json => exact .some .refl

end Fields.Follow

/-- What is read from the fields of a record stays the same when they follow a step. -/
def Keeps (parts : List (String × View)) (readFields : Fields → Option α) : Prop :=
  ∀ around fields fields' value, Fields.Follow around parts fields fields' →
    readFields fields = some value → readFields fields' = some value

section

variable {read : Json → Option α} {view : View} {parts : List (String × View)}
  {name : String}

theorem Keeps.pure (value : α) : Keeps parts fun _ => some value :=
  fun _ _ _ _ _ => id

theorem Tolerates.reflGen (tolerates : Tolerates read view) {around : Option Nat}
    {json json' : Json} {value : α} (steps : Relation.ReflGen (Step around view) json json')
    (reads : read json = some value) : read json' = some value := by
  cases steps with
  | refl => exact reads
  | single step => exact tolerates around json json' value step reads

/-- The parts are read one after the other, each by its name. -/
theorem Keeps.part (readPart : Option Json → Option α) {next : α → Fields → Option β}
    (tolerates : Tolerates (fun json => readPart (some json)) view)
    (keeps : ∀ value, Keeps parts (next value)) :
    Keeps ((name, view) :: parts) fun fields =>
      (readPart (fields.lookup name)).bind fun value => next value fields := by
  intro around fields fields' value follow reads
  rcases Option.bind_eq_some_iff.mp reads with ⟨first, found, rest⟩
  have later : Fields.Follow around parts fields fields' := fun part member =>
    follow part (List.mem_cons_of_mem _ member)
  refine Option.bind_eq_some_iff.mpr ⟨first, ?_, keeps first _ _ _ _ later rest⟩
  have here : Option.Rel (Relation.ReflGen (Step around view)) (fields.lookup name)
      (fields'.lookup name) := follow _ (List.mem_cons_self ..)
  generalize fields.lookup name = held at here found
  generalize fields'.lookup name = held' at here
  cases here with
  | none => exact found
  | some steps => exact tolerates.reflGen steps found

variable {next : α → Fields → Option β}

theorem Keeps.required (tolerates : Tolerates read view)
    (keeps : ∀ value, Keeps parts (next value)) :
    Keeps ((name, view) :: parts) fun fields =>
      (fields.required? name read).bind fun value => next value fields :=
  .part (fun held => held.bind read) tolerates keeps

theorem Keeps.withDefault {fallback : α} (tolerates : Tolerates read view)
    (keeps : ∀ value, Keeps parts (next value)) :
    Keeps ((name, view) :: parts) fun fields =>
      (fields.withDefault? name fallback read).bind fun value => next value fields := by
  simp only [Fields.withDefault?_eq_elim]
  exact .part (fun held => held.elim (some fallback) read) tolerates keeps

theorem Keeps.optional {next : Option α → Fields → Option β} (tolerates : Tolerates read view)
    (keeps : ∀ value, Keeps parts (next value)) :
    Keeps ((name, view) :: parts) fun fields =>
      (fields.optional? name read).bind fun value => next value fields := by
  simp only [Fields.optional?_eq_elim]
  exact .part (fun held => held.elim (some none) (nullable? read)) tolerates.nullable keeps

end

/-! ## Records -/

/-- In another order the same fields are looked up. -/
theorem lookup_eq_of_perm {fields fields' : Fields} (perm : fields.Perm fields')
    (distinct : (fields.map Prod.fst).Nodup) (name : String) :
    fields.lookup name = fields'.lookup name := by
  induction perm with
  | nil => rfl
  | cons field perm induction =>
      rcases field with ⟨other, value⟩
      rw [List.lookup_cons, List.lookup_cons, induction (List.nodup_cons.mp distinct).2]
  | swap first second fields =>
      rcases first with ⟨other, value⟩
      rcases second with ⟨other', value'⟩
      have apart : other' ≠ other := by
        rintro rfl
        exact (List.nodup_cons.mp distinct).1 (List.mem_cons_self ..)
      simp only [List.lookup_cons]
      by_cases same : name = other
      · subst same
        simp [beq_false_of_ne apart.symm]
      · simp [beq_false_of_ne same]
  | trans perm _ first second =>
      rw [first distinct, second ((perm.map Prod.fst).nodup_iff.mp distinct)]

theorem exists_mapM_of_perm {test : α → Option β} {values values' : List α} {results : List β}
    (perm : values.Perm values') (found : values.mapM test = some results) :
    ∃ results', values'.mapM test = some results' ∧ results.Perm results' := by
  induction perm generalizing results with
  | nil => exact ⟨results, found, .refl _⟩
  | cons value perm induction =>
      rw [List.mapM_cons] at found
      rcases Option.bind_eq_some_iff.mp found with ⟨first, here, rest⟩
      rcases Option.bind_eq_some_iff.mp rest with ⟨later, found, whole⟩
      rcases induction found with ⟨later', found', perm'⟩
      cases whole
      exact ⟨first :: later', by rw [List.mapM_cons, here, found']; rfl, perm'.cons first⟩
  | swap first second values =>
      simp only [List.mapM_cons] at found ⊢
      generalize test first = one at found ⊢
      generalize test second = other at found ⊢
      generalize values.mapM test = later at found ⊢
      cases one with
      | none => cases other <;> cases found
      | some one =>
          cases other with
          | none => cases found
          | some other =>
              cases later with
              | none => cases found
              | some later =>
                  cases found
                  exact ⟨_, rfl, .swap ..⟩
  | trans _ _ first second =>
      rcases first found with ⟨between, found', perm⟩
      rcases second found' with ⟨results', found'', perm'⟩
      exact ⟨results', found'', perm.trans perm'⟩

/-! ## Steps of records -/

section

variable {names : List String} {fields front back : List (List Char × Json)} {known : Fields}
  {key name : List Char} {value : Json}

theorem record?_object_eq_some_iff :
    record? names (.object fields) = some known ↔
      ∃ named, fields.mapM keyed? = some named ∧
        known = named.filter (fun field => names.contains field.1) ∧
        (known.map Prod.fst).Nodup := by
  rw [record?, Option.bind_eq_bind, Option.bind_eq_some_iff]
  refine exists_congr fun named => and_congr_right fun _ => ?_
  constructor
  · intro whole
    dsimp only at whole
    split at whole
    · next distinct =>
        cases whole
        exact ⟨rfl, distinct⟩
    · cases whole
  · rintro ⟨rfl, distinct⟩
    exact if_pos distinct

theorem exists_of_record?_perm {fields' : List (List Char × Json)} (perm : fields.Perm fields')
    (reads : record? names (.object fields) = some known) :
    ∃ known', record? names (.object fields') = some known' ∧
      ∀ name, known.lookup name = known'.lookup name := by
  rcases record?_object_eq_some_iff.mp reads with ⟨named, found, rfl, distinct⟩
  rcases exists_mapM_of_perm perm found with ⟨named', found', perm'⟩
  have same := perm'.filter fun field => names.contains field.1
  have distinct' := (same.map Prod.fst).nodup_iff.mp distinct
  exact ⟨_, record?_object_eq_some_iff.mpr ⟨named', found', rfl, distinct'⟩,
    lookup_eq_of_perm same distinct⟩

theorem mapM_keyed?_cons_eq_some_iff {named : Fields} (unescaped : unescape? key = some name) :
    (front ++ (key, value) :: back).mapM keyed? = some named ↔
      ∃ before after, front.mapM keyed? = some before ∧ back.mapM keyed? = some after ∧
        named = before ++ (String.ofList name, value) :: after := by
  have here : keyed? (key, value) = some (String.ofList name, value) := by
    rw [keyed?, unescaped, Option.map_some]
  rw [List.mapM_append, List.mapM_cons, here]
  cases front.mapM keyed? with
  | none => simp
  | some before =>
      cases back.mapM keyed? with
      | none => simp
      | some after => simp [eq_comm]

theorem record?_add (unescaped : unescape? key = some name) (unknown : String.ofList name ∉ names)
    (reads : record? names (.object (front ++ back)) = some known) :
    record? names (.object (front ++ (key, value) :: back)) = some known := by
  rcases record?_object_eq_some_iff.mp reads with ⟨named, found, rfl, distinct⟩
  rw [List.mapM_append] at found
  rcases Option.bind_eq_some_iff.mp found with ⟨before, first, rest⟩
  rcases Option.bind_eq_some_iff.mp rest with ⟨after, later, whole⟩
  cases whole
  have found' := (mapM_keyed?_cons_eq_some_iff unescaped).mpr
    ⟨before, after, first, later, Eq.refl (before ++ (String.ofList name, value) :: after)⟩
  refine record?_object_eq_some_iff.mpr ⟨_, found', ?_, distinct⟩
  rw [List.filter_append, List.filter_append, List.filter_cons_of_neg (by simpa using unknown)]

/-- A field is known or it is not, whatever its value is. -/
theorem record?_field (unescaped : unescape? key = some name)
    (reads : record? names (.object (front ++ (key, value) :: back)) = some known) :
    (String.ofList name ∉ names ∧ ∀ value',
      record? names (.object (front ++ (key, value') :: back)) = some known) ∨
    String.ofList name ∈ names ∧ ∃ before after,
      known = before ++ (String.ofList name, value) :: after ∧ ∀ value',
        record? names (.object (front ++ (key, value') :: back)) =
          some (before ++ (String.ofList name, value') :: after) := by
  rcases record?_object_eq_some_iff.mp reads with ⟨named, found, rfl, distinct⟩
  rcases (mapM_keyed?_cons_eq_some_iff unescaped).mp found with ⟨before, after, first, later, rfl⟩
  have again (value' : Json) := (mapM_keyed?_cons_eq_some_iff unescaped).mpr
    ⟨before, after, first, later, Eq.refl (before ++ (String.ofList name, value') :: after)⟩
  by_cases isKnown : String.ofList name ∈ names
  · right
    have split (value' : Json) :
        (before ++ (String.ofList name, value') :: after).filter
            (fun field => names.contains field.1) =
          before.filter (fun field => names.contains field.1) ++
            (String.ofList name, value') :: after.filter (fun field => names.contains field.1) := by
      rw [List.filter_append, List.filter_cons_of_pos (by simpa using isKnown)]
    refine ⟨isKnown, _, _, split value, fun value' => ?_⟩
    refine record?_object_eq_some_iff.mpr ⟨_, again value', (split value').symm, ?_⟩
    rw [split] at distinct
    simpa using distinct
  · left
    refine ⟨isKnown, fun value' => ?_⟩
    refine record?_object_eq_some_iff.mpr ⟨_, again value', ?_, distinct⟩
    rw [List.filter_append, List.filter_append, List.filter_cons_of_neg (by simpa using isKnown),
      List.filter_cons_of_neg (by simpa using isKnown)]

theorem record?_item {front back : List Json}
    (reads : record? names (.array (front ++ value :: back)) = some known) :
    ∃ name before after, names[front.length]? = some name ∧
      known = before ++ (name, value) :: after ∧ ∀ value',
        record? names (.array (front ++ value' :: back)) =
          some (before ++ (name, value') :: after) := by
  have enough : (front ++ value :: back).length ≤ names.length := by
    rw [record?] at reads
    split at reads
    · assumption
    · cases reads
  have inside : front.length < names.length := by
    rw [List.length_append, List.length_cons] at enough
    omega
  have zipped (value' : Json) : names.zip (front ++ value' :: back) =
      (names.take front.length).zip front ++
        (names[front.length], value') :: (names.drop (front.length + 1)).zip back := by
    conv_lhs => rw [← List.take_append_drop front.length names, List.drop_eq_getElem_cons inside]
    rw [List.zip_append (by simp; omega), List.zip_cons_cons]
  rw [record?, if_pos enough, Option.some.injEq, zipped] at reads
  refine ⟨_, _, _, List.getElem?_eq_getElem inside, reads.symm, fun value' => ?_⟩
  rw [record?, if_pos (by simpa using enough), zipped]

end

/-- A reader of a record tolerates its view if the parts that it reads keep what is read. -/
theorem Tolerates.record {read : Json → Option α} {parts : List (String × View)}
    {readFields : Fields → Option α} (distinct : (parts.map Prod.fst).Nodup)
    (reads : ∀ json, read json = (record? (parts.map Prod.fst) json).bind readFields)
    (keeps : Keeps parts readFields) : Tolerates read (.record parts) := by
  intro around json json' value step found
  rw [reads] at found ⊢
  rcases Option.bind_eq_some_iff.mp found with ⟨known, held, whole⟩
  suffices ∃ known', record? (parts.map Prod.fst) json' = some known' ∧
      Fields.Follow ((View.record parts).roomIn around) parts known known' by
    rcases this with ⟨known', held', follow⟩
    rw [held', Option.bind_some]
    exact keeps _ _ _ value follow whole
  cases step with
  | reorder perm =>
      rcases exists_of_record?_perm perm held with ⟨known', held', same⟩
      exact ⟨known', held', .of_lookup_eq same⟩
  | add isOpen named unknown admitted =>
      exact ⟨known, record?_add named unknown held, .of_lookup_eq fun _ => rfl⟩
  | @field _ _ front back key name value value' named inner =>
      rcases record?_field named held with ⟨_, again⟩ | ⟨isKnown, before, after, rfl, again⟩
      · exact ⟨known, again value', .of_lookup_eq fun _ => rfl⟩
      · exact ⟨_, again value', .of_step distinct (View.mem_of_field isKnown) inner⟩
  | @item _ _ front back value value' inner =>
      rcases record?_item held with ⟨name, before, after, named, rfl, again⟩
      exact ⟨_, again value', .of_step distinct (View.mem_of_item named) inner⟩

/-! ## Tagged records -/

def hasName (name : String) (field : List Char × Json) : Bool :=
  unescape? field.1 = some name.toList

theorem hasName_iff {name : String} {key chars : List Char} {value : Json}
    (named : unescape? key = some chars) :
    hasName name (key, value) = true ↔ String.ofList chars = name := by
  rw [hasName, decide_eq_true_eq, named, Option.some.injEq, ← String.toList_inj,
    String.toList_ofList]

/-- A tagged record without its tag. -/
def untagged (tag : String) : Json → Json
  | .object fields => .object (fields.filter (!hasName tag ·))
  | .array items => .array items.tail
  | json => json

theorem kind?_object_eq_some_iff {tag kind : String} {fields : List (List Char × Json)} :
    (Json.object fields).kind? tag = some kind ↔
      ∃ key name, fields.filter (hasName tag) = [(key, name)] ∧ name.string? = some kind := by
  rw [kind?]
  unfold hasName
  generalize fields.filter (fun field => unescape? field.1 = some tag.toList) = tags
  rcases tags with _ | ⟨⟨key, name⟩, _ | ⟨other, rest⟩⟩ <;> simp

theorem tagged?_eq (room : Nat) (tag : String) (json : Json) :
    json.tagged? room tag =
      if json.isMeaningful && json.height ≤ room then
        (json.kind? tag).map fun kind => (kind, json.untagged tag)
      else none := by
  cases json with
  | object fields =>
      rw [tagged?, kind?, untagged]
      unfold hasName
      dsimp only
      split
      · generalize fields.filter (fun field => unescape? field.1 = some tag.toList) = tags
        rcases tags with _ | ⟨⟨key, name⟩, _ | ⟨other, rest⟩⟩ <;> rfl
      · rfl
  | array items => cases items <;> rfl
  | _ => rfl

theorem tagged?_eq_some_iff {room : Nat} {tag kind : String} {json rest : Json} :
    json.tagged? room tag = some (kind, rest) ↔
      json.Fits room ∧ json.kind? tag = some kind ∧ rest = json.untagged tag := by
  rw [tagged?_eq]
  split
  · next admitted =>
      rw [Bool.and_eq_true, decide_eq_true_eq] at admitted
      have fits : json.Fits room := ⟨admitted.1, admitted.2⟩
      simp [fits, eq_comm]
  · next refused =>
      rw [Bool.and_eq_true, decide_eq_true_eq] at refused
      have tooLarge : ¬ json.Fits room := fun fits => refused ⟨fits.meaningful, fits.height⟩
      simp [tooLarge]

theorem View.parts_tagged {room : Nat} {tag kind : String}
    {kinds : List (String × List (String × View))} {json : Json}
    (isKind : json.kind? tag = some kind) :
    (View.tagged room tag kinds).parts json =
      (tag, .single) :: (kinds.lookup kind).getD [] := by
  rw [parts, isKind, Option.bind_some]

/-- A step of a tagged record is one of the record behind the tag, or the kind is unknown before the
step and after it. -/
theorem Step.untagged {around : Option Nat} {room : Nat} {tag kind : String}
    {kinds : List (String × List (String × View))} {json json' : Json}
    (step : Step around (.tagged room tag kinds) json json')
    (isKind : json.kind? tag = some kind) :
    (json'.kind? tag = some kind ∧
      Step ((View.tagged room tag kinds).roomAt around)
        (.record ((kinds.lookup kind).getD [])) (json.untagged tag) (json'.untagged tag)) ∨
    (kinds.lookup kind = none ∧ ∃ kind', json'.kind? tag = some kind' ∧
      kinds.lookup kind' = none ∧ json'.untagged tag = json.untagged tag) := by
  cases step with
  | @reorder _ _ fields fields' perm =>
      left
      rcases kind?_object_eq_some_iff.mp isKind with ⟨key, name, tags, read⟩
      have tags' := perm.filter (hasName tag)
      rw [tags] at tags'
      exact ⟨kind?_object_eq_some_iff.mpr ⟨key, name, (List.singleton_perm.mp tags').symm, read⟩,
        .reorder (perm.filter _)⟩
  | @add _ _ front back key name value _ named unknown admitted =>
      left
      rw [View.names, View.parts_tagged isKind, List.map_cons, List.mem_cons, not_or]
        at unknown
      have other : ¬ hasName tag (key, value) = true := fun same =>
        unknown.1 ((hasName_iff named).mp same)
      rcases kind?_object_eq_some_iff.mp isKind with ⟨tagKey, kindName, tags, read⟩
      have tags' : (front ++ (key, value) :: back).filter (hasName tag) = [(tagKey, kindName)] := by
        rw [List.filter_append, List.filter_cons_of_neg other, ← List.filter_append, tags]
      refine ⟨kind?_object_eq_some_iff.mpr ⟨tagKey, kindName, tags', read⟩, ?_⟩
      rw [Json.untagged, Json.untagged, List.filter_append, List.filter_append,
        List.filter_cons_of_pos (by simpa using other)]
      exact .add rfl named unknown.2 admitted
  | @field _ _ front back key name value value' named inner =>
      left
      rcases kind?_object_eq_some_iff.mp isKind with ⟨tagKey, kindName, tags, read⟩
      have other : ¬ String.ofList name = tag := by
        intro same
        rw [List.filter_append, List.filter_cons_of_pos ((hasName_iff named).mpr same)] at tags
        have held : (key, value) ∈ [(tagKey, kindName)] :=
          tags ▸ List.mem_append_right _ (List.mem_cons_self ..)
        cases List.mem_singleton.mp held
        -- The kind is a string, and no step can be taken inside it.
        cases inner.isContainer.1 <;> cases read
      have skip (json : Json) : ¬ hasName tag (key, json) = true := mt (hasName_iff named).mp other
      have tags' : (front ++ (key, value') :: back).filter (hasName tag) =
          [(tagKey, kindName)] := by
        rw [← tags, List.filter_append, List.filter_append, List.filter_cons_of_neg (skip value'),
          List.filter_cons_of_neg (skip value)]
      refine ⟨kind?_object_eq_some_iff.mpr ⟨tagKey, kindName, tags', read⟩, ?_⟩
      rw [View.field, View.parts_tagged isKind, List.lookup_cons, beq_false_of_ne other]
        at inner
      rw [Json.untagged, Json.untagged, List.filter_append, List.filter_append,
        List.filter_cons_of_pos (by simpa using skip value),
        List.filter_cons_of_pos (by simpa using skip value')]
      exact .field named inner
  | @item _ _ front back value value' inner =>
      left
      cases front with
      | nil => cases inner.isContainer.1 <;> cases isKind
      | cons first front =>
          have onward : (View.tagged room tag kinds).item
              (.array (first :: front ++ value :: back)) (first :: front).length =
              (View.record ((kinds.lookup kind).getD [])).item (.array (front ++ value :: back))
                front.length := by
            show ((((View.tagged room tag kinds).parts _)[_]?).map Prod.snd).getD
              View.ignored = _
            rw [View.parts_tagged isKind]
            rfl
          rw [onward] at inner
          exact ⟨isKind, .item inner⟩
  | @kindField _ _ _ _ front back key _ new _ kind'' named isKind' unknown isKind'' unknown' =>
      right
      rcases kind?_object_eq_some_iff.mp isKind with ⟨tagKey, kindName, tags, read⟩
      have isTag (json : Json) : hasName tag (key, json) = true :=
        (hasName_iff named).mpr String.ofList_toList
      rw [List.filter_append, List.filter_cons_of_pos (isTag _), List.append_eq_singleton_iff]
        at tags
      rcases tags with ⟨noneBefore, tags⟩ | ⟨_, tags⟩
      · rcases List.cons_eq_cons.mp tags with ⟨same, noneBehind⟩
        cases same
        cases isKind'.symm.trans read
        refine ⟨unknown, kind'', kind?_object_eq_some_iff.mpr ⟨key, .string new, ?_, isKind''⟩,
          unknown', ?_⟩
        · rw [List.filter_append, List.filter_cons_of_pos (isTag _), noneBefore, noneBehind]
          rfl
        · rw [Json.untagged, Json.untagged, List.filter_append, List.filter_append,
            List.filter_cons_of_neg (by simp [isTag]), List.filter_cons_of_neg (by simp [isTag])]
      · cases tags
  | kindItem isKind' unknown isKind'' unknown' =>
      right
      cases isKind'.symm.trans isKind
      exact ⟨unknown, _, isKind'', unknown', rfl⟩

/-- A reader of a tagged record tolerates its view if each kind is read in this way from what
stands behind the tag, and all unknown kinds are read alike. -/
theorem Tolerates.tagged {read : Json → Option α} {room : Nat} {tag : String}
    {kinds : List (String × List (String × View))} {readKind : String → Json → Option α}
    (reads : ∀ json, read json =
      (json.tagged? room tag).bind fun tagged => readKind tagged.1 tagged.2)
    (each : ∀ kind, Tolerates (readKind kind) (.record ((kinds.lookup kind).getD [])))
    (alike : ∀ kind kind', kinds.lookup kind = none → kinds.lookup kind' = none →
      readKind kind = readKind kind') : Tolerates read (.tagged room tag kinds) := by
  intro around json json' value step found
  rw [reads] at found ⊢
  rcases Option.bind_eq_some_iff.mp found with ⟨⟨kind, rest⟩, held, whole⟩
  rcases tagged?_eq_some_iff.mp held with ⟨fits, isKind, rfl⟩
  have atMost : around.elim room (min room) ≤ room := by
    cases around with
    | none => exact Nat.le_refl room
    | some free => exact Nat.min_le_left room free
  have fits' : json'.Fits room := step.fits rfl atMost fits
  rcases step.untagged isKind with ⟨isKind', onward⟩ | ⟨unknown, kind', isKind', unknown', same⟩
  · rw [tagged?_eq_some_iff.mpr ⟨fits', isKind', rfl⟩]
    exact each kind _ _ _ value onward whole
  · rw [tagged?_eq_some_iff.mpr ⟨fits', isKind', rfl⟩, same, Option.bind_some,
      ← alike kind kind' unknown unknown']
    exact whole

end MemberStubs.Json
