import MemberStubs.Json.Reader
import MemberStubs.Proofs.Json.Printer

/-! What is printed is read. The tokens of a document take a pass that waits for a value to one that
has the document, whatever is open around it. -/

namespace MemberStubs.Json

open Progress

def readTokens (progress : Progress) (tokens : List Token) : Option Progress :=
  tokens.foldlM step? progress

theorem readTokens_cons {progress next : Progress} {token : Token}
    (step : progress.step? token = some next) (rest : List Token) :
    readTokens progress (token :: rest) = readTokens next rest := by
  rw [readTokens, List.foldlM_cons, step]
  rfl

/-- The tokens of a document are read as the document. -/
def Completes (json : Json) : Prop :=
  ∀ frames rest, readTokens ⟨frames, .value⟩ (json.tokens ++ rest) =
    readTokens ⟨frames, .complete json⟩ rest

theorem readTokens_items {items : List Json} (each : ∀ item ∈ items, item.Completes)
    (before : List Json) (value : Json) (frames : List Frame) (rest : List Token) :
    readTokens ⟨.array before :: frames, .complete value⟩
        (tokensOfItems items ++ .closeArray :: rest) =
      readTokens ⟨frames, .complete (.array (before.reverse ++ value :: items))⟩ rest := by
  induction items generalizing before value with
  | nil =>
      rw [tokensOfItems, List.nil_append, readTokens_cons rfl, List.reverse_cons]
  | cons item items induction =>
      have first := each item (List.mem_cons_self ..)
      rw [tokensOfItems, List.cons_append, List.cons_append, List.append_assoc,
        readTokens_cons rfl]
      show readTokens ⟨.array (value :: before) :: frames, .value⟩ _ = _
      rw [first, induction fun item member => each item (List.mem_cons_of_mem _ member),
        List.reverse_cons, List.append_assoc, List.singleton_append]

theorem readTokens_fields {fields : List (List Char × Json)}
    (each : ∀ field ∈ fields, field.2.Completes) (before : List (List Char × Json))
    (key : List Char) (value : Json) (frames : List Frame) (rest : List Token) :
    readTokens ⟨.object before key :: frames, .complete value⟩
        (tokensOfFields fields ++ .closeObject :: rest) =
      readTokens ⟨frames, .complete (.object (before.reverse ++ (key, value) :: fields))⟩ rest := by
  induction fields generalizing before key value with
  | nil =>
      rw [tokensOfFields, List.nil_append, readTokens_cons rfl, List.reverse_cons]
  | cons field fields induction =>
      rcases field with ⟨nextKey, next⟩
      have first : next.Completes := each _ (List.mem_cons_self ..)
      rw [tokensOfFields]
      simp only [List.cons_append, List.append_assoc]
      rw [readTokens_cons rfl, readTokens_cons rfl, readTokens_cons rfl]
      show readTokens ⟨.object ((key, value) :: before) nextKey :: frames, .value⟩ _ = _
      rw [first, induction fun field member => each field (List.mem_cons_of_mem _ member),
        List.reverse_cons, List.append_assoc, List.singleton_append]

/-- An array that has just been opened takes the tokens of an item the way it does later. -/
theorem readTokens_firstItem (json : Json) (frames : List Frame) (rest : List Token) :
    readTokens ⟨frames, .firstItem⟩ (json.tokens ++ rest) =
      readTokens ⟨.array [] :: frames, .value⟩ (json.tokens ++ rest) := by
  cases json with
  | array items => cases items <;> rfl
  | object fields => cases fields <;> rfl
  | _ => rfl

theorem Written.completes {json : Json} (written : json.Written) : json.Completes := by
  induction written with
  | null => exact fun _ _ => rfl
  | bool value => exact fun _ _ => rfl
  | number value => exact fun _ _ => rfl
  | string text => exact fun _ _ => rfl
  | @array items each induction =>
      intro frames rest
      cases items with
      | nil => rfl
      | cons item items =>
          have first := induction item (List.mem_cons_self ..)
          have later := readTokens_items fun item member =>
            induction item (List.mem_cons_of_mem _ member)
          simp only [tokens, List.cons_append, List.append_assoc, List.nil_append]
          rw [readTokens_cons rfl]
          show readTokens ⟨frames, .firstItem⟩ _ = _
          rw [readTokens_firstItem, first, later]
          rfl
  | @object fields keys each induction =>
      intro frames rest
      cases fields with
      | nil => rfl
      | cons field fields =>
          rcases field with ⟨key, value⟩
          have first : value.Completes := induction _ (List.mem_cons_self ..)
          have later := readTokens_fields fun field member =>
            induction field (List.mem_cons_of_mem _ member)
          simp only [tokens, List.cons_append, List.append_assoc, List.nil_append]
          rw [readTokens_cons rfl, readTokens_cons rfl, readTokens_cons rfl]
          show readTokens ⟨.object [] key :: frames, .value⟩ _ = _
          rw [first, later]
          rfl

/-- A written document is read from its printed form. -/
theorem Written.parse?_print {json : Json} (written : json.Written) :
    parse? json.print.toList = some json := by
  have spelled := written.spells 0 [] (by intro c head; cases head)
  have read := written.completes [] []
  rw [List.append_nil] at spelled read
  have empty : tokens? [] = some [] := by rw [tokens?]
  rw [parse?, print, String.toList_ofList, spelled, empty, Option.map_some, List.append_nil,
    Option.bind_some]
  show (readTokens ⟨[], .value⟩ json.tokens).bind Progress.result? = some json
  rw [read]
  rfl

end MemberStubs.Json
