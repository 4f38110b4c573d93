import MemberStubs.Proofs.Substitution.Exchange

/-! Two scopes of names in the signature of a method: the type parameters of its class, for which
arguments are put in, and its own, which stay. Nothing is renamed on the way, so a name in an
argument falls to the method exactly if the method has a type parameter of that name. -/

namespace MemberStubs

open TypeText

namespace Substitution

/-! ## Class scope inside of a method -/

/-- What a name stands for in a method whose own type parameters are these. -/
def lookupBeside? (substitution : Substitution) (own : List TypeParameter) (name : String) :
    Option String :=
  if name ∈ own.map TypeParameter.name then none else substitution.lookup? name

def pieceTextBeside (substitution : Substitution) (own : List TypeParameter) :
    Piece → List Char
  | .verbatim chars => chars
  | .occurrence name beforeBracket =>
      match substitution.lookupBeside? own (String.ofList name) with
      | some argument => replacementText argument beforeBracket
      | none => name

/-- The arguments that are put into a type of the method, in order. -/
def insertedBeside (substitution : Substitution) (own : List TypeParameter) (text : String) :
    List String :=
  (pieces text).filterMap fun
    | .verbatim _ => none
    | .occurrence name _ => substitution.lookupBeside? own (String.ofList name)

/-- The words of a text that a method with these type parameters takes for its own. -/
def ownWords (own : List TypeParameter) (text : String) : List (List Char) :=
  (words text.toList).filter fun word => String.ofList word ∈ own.map TypeParameter.name

/-- A type of a method, and what becomes of it. -/
structure PutsBeside (substitution : Substitution) (own : List TypeParameter)
    (text result : String) : Prop where
  /-- Own names stand for themselves, and arguments are put in as they are. -/
  written : result.toList = (pieces text).flatMap (substitution.pieceTextBeside own)
  ownWords : (ownWords own result).Perm
    (ownWords own text ++ (substitution.insertedBeside own text).flatMap (ownWords own))
  captureFree_iff : (Substitution.ownWords own result).Perm (Substitution.ownWords own text) ↔
    ∀ argument ∈ substitution.insertedBeside own text, Substitution.ownWords own argument = []

section

variable (substitution : Substitution) (own : List TypeParameter)

theorem lookup?_erase (name other : String) :
    (substitution.erase name).lookup? other =
      if other = name then none else substitution.lookup? other := by
  rcases substitution with ⟨bindings⟩
  simp only [erase, lookup?]
  induction bindings with
  | nil => simp
  | cons binding bindings induction =>
      rcases binding with ⟨key, value⟩
      by_cases erased : key = name
      · subst erased
        rw [List.filter_cons_of_neg (by simp), induction]
        by_cases same : other = key
        · simp [same]
        · simp [same, List.lookup_cons, beq_eq_false_iff_ne.mpr same]
      · rw [List.filter_cons_of_pos (by simp [erased]), List.lookup_cons, List.lookup_cons, induction]
        by_cases same : other = key
        · simp [same, erased]
        · simp [beq_eq_false_iff_ne.mpr same]

theorem lookup?_without (name : String) :
    (substitution.without own).lookup? name = substitution.lookupBeside? own name := by
  induction own generalizing substitution with
  | nil => rfl
  | cons parameter own induction =>
      rw [without, List.foldl_cons, ← without, induction, lookupBeside?, lookupBeside?,
        lookup?_erase]
      by_cases same : name = parameter.name
      · simp [same]
      · simp [same]

theorem pieceText_without :
    (substitution.without own).pieceText = substitution.pieceTextBeside own := by
  funext piece
  cases piece with
  | verbatim chars => rfl
  | occurrence name beforeBracket =>
      cases found : substitution.lookupBeside? own (String.ofList name) with
      | none => simp [pieceText, pieceTextBeside, lookup?_without, found]
      | some argument => simp [pieceText, pieceTextBeside, lookup?_without, found]

theorem inserted_without (text : String) :
    (substitution.without own).inserted text = substitution.insertedBeside own text := by
  rw [inserted, insertedBeside]
  congr 1
  funext piece
  cases piece with
  | verbatim chars => rfl
  | occurrence name beforeBracket => rw [replacement?, lookup?_without]

/-- No word that the method takes for its own goes out. -/
theorem wordsOut_without (text : String) :
    ((pieces text).flatMap (substitution.without own).wordsOut).filter
      (fun word => String.ofList word ∈ own.map TypeParameter.name) = [] := by
  rw [List.filter_eq_nil_iff]
  intro word member isOwn
  rcases List.mem_flatMap.mp member with ⟨piece, inText, out⟩
  cases piece with
  | verbatim chars => simp [wordsOut, replacement?] at out
  | occurrence name beforeBracket =>
      rw [wordsOut, Piece.chars, words_of_isName (isName_of_mem_piecesFrom inText)] at out
      split at out
      · next replaced =>
          rw [List.mem_singleton.mp out, decide_eq_true_eq] at isOwn
          rw [replacement?, lookup?_without, lookupBeside?, if_pos isOwn] at replaced
          cases replaced
      · cases out

theorem perm_ownWords (text : String) :
    (ownWords own ((substitution.without own).apply text)).Perm
      (ownWords own text ++ (substitution.insertedBeside own text).flatMap (ownWords own)) := by
  have exchanged := ((substitution.without own).exchanges_apply text).filter
    fun word => String.ofList word ∈ own.map TypeParameter.name
  rw [List.filter_append, List.filter_append, wordsOut_without, List.append_nil, flatMap_wordsIn,
    inserted_without, List.filter_flatMap] at exchanged
  exact exchanged

theorem apply_putsBeside (text : String) :
    substitution.PutsBeside own text ((substitution.without own).apply text) := by
  have perm := substitution.perm_ownWords own text
  refine ⟨by rw [toList_apply, pieceText_without], perm, ?_⟩
  constructor
  · intro same argument put
    have lengths := perm.length_eq.symm.trans same.length_eq
    rw [List.length_append, Nat.add_eq_left, List.length_eq_zero_iff,
      List.flatMap_eq_nil_iff] at lengths
    exact lengths argument put
  · intro free
    rwa [List.flatMap_eq_nil_iff.mpr free, List.append_nil] at perm

end

/-! ## Methods -/

/-- What instantiation makes of a method with type parameters of its own, for a class with the type
parameters `declared` and the type arguments `arguments`. -/
structure KeepsScopes (declared : List TypeParameter) (arguments : List String) (method : Member)
    (own : List TypeParameter) (parameters : List Parameter) (returnType : Option String) :
    Prop where
  instantiated : ∃ own' parameters' returnType',
    (bind declared arguments).member method =
        { method with shape := .method own' parameters' returnType' } ∧
      List.Forall₂ (fun parameter result => result.name = parameter.name ∧
        Option.Rel ((bind declared arguments).PutsBeside own)
          parameter.constraint result.constraint ∧
        Option.Rel ((bind declared arguments).PutsBeside own)
          parameter.fallback result.fallback) own own' ∧
      List.Forall₂ (fun parameter result => { result with type := parameter.type } = parameter ∧
        Option.Rel ((bind declared arguments).PutsBeside own)
          parameter.type result.type) parameters parameters' ∧
      Option.Rel ((bind declared arguments).PutsBeside own) returnType returnType'
  /-- Names that nobody wrote into the arguments do not come up in them. -/
  captureFree : (∀ text ∈ boundTexts declared arguments, ownWords own text = []) →
    ∀ text, ∀ argument ∈ (bind declared arguments).insertedBeside own text,
      ownWords own argument = []

theorem rel_map_apply (substitution : Substitution) (own : List TypeParameter)
    (type : Option String) :
    Option.Rel (substitution.PutsBeside own) type
      (type.map (substitution.without own).apply) := by
  cases type with
  | none => exact .none
  | some text => exact .some (substitution.apply_putsBeside own text)

theorem forall₂_map {relation : α → β → Prop} {change : α → β}
    (related : ∀ value, relation value (change value)) (values : List α) :
    List.Forall₂ relation values (values.map change) := by
  induction values with
  | nil => exact .nil
  | cons value values induction => exact .cons (related value) induction

theorem member_keepsScopes (declared : List TypeParameter) (arguments : List String)
    {method : Member} {own : List TypeParameter} {parameters : List Parameter}
    {returnType : Option String} (isMethod : method.shape = .method own parameters returnType) :
    KeepsScopes declared arguments method own parameters returnType := by
  have rel := (bind declared arguments).rel_map_apply own
  refine ⟨⟨_, _, _, by rw [member, isMethod, shape], ?_, ?_, rel returnType⟩, ?_⟩
  · exact forall₂_map (fun parameter => ⟨rfl, rel parameter.constraint, rel parameter.fallback⟩) own
  · exact forall₂_map (fun parameter => ⟨rfl, rel parameter.type⟩) parameters
  · intro texts text argument put
    rw [← inserted_without] at put
    rcases exists_lookup?_of_inserted put with ⟨name, bound⟩
    rw [lookup?_without, lookupBeside?] at bound
    split at bound
    · cases bound
    · rw [ownWords, List.filter_eq_nil_iff]
      refine words_bind (fun text member => ?_) bound
      exact List.filter_eq_nil_iff.mp (texts text member)

namespace GenericMethod

def other : List TypeParameter :=
  [{ name := "U" }]

/-- A method of a class with a type parameter `T`. -/
def convert (input output : String) : Member :=
  { name := "convert"
    shape := .method other [{ name := "from", type := some input }] (some output) }

theorem member_convert :
    (convert "(item: T) => U" "Map<T, U[]>").shape =
        .method other [{ name := "from", type := some "(item: T) => U" }] (some "Map<T, U[]>") ∧
      KeepsScopes [{ name := "T" }] ["User[]"] (convert "(item: T) => U" "Map<T, U[]>") other
        [{ name := "from", type := some "(item: T) => U" }] (some "Map<T, U[]>") ∧
      (bind [{ name := "T" }] ["User[]"]).member (convert "(item: T) => U" "Map<T, U[]>") =
        convert "(item: User[]) => U" "Map<User[], U[]>" :=
  ⟨rfl, member_keepsScopes _ _ rfl, by decide +kernel⟩

/-- The argument `U` means a type outside of the class, and the method takes it for its own. -/
theorem captures_argument :
    (bind [{ name := "T" }] ["U"]).member (convert "T" "U") = convert "U" "U" ∧
      ¬∀ text ∈ ["T", "U"],
        ∀ argument ∈ (bind [{ name := "T" }] ["U"]).insertedBeside other text,
          ownWords other argument = [] := by
  decide +kernel

end GenericMethod

end Substitution

end MemberStubs
