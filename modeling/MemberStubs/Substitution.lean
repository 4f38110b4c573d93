import MemberStubs.Member
import MemberStubs.TypeText.Operators
import MemberStubs.TypeText.Pieces

namespace MemberStubs

/-! Type arguments put in the place of type parameters. Of two bindings of one name the first
counts. -/

structure Substitution where
  bindings : List (String × String) := []
  deriving DecidableEq, Repr, Inhabited

namespace Substitution

def isEmpty (substitution : Substitution) : Bool :=
  substitution.bindings.isEmpty

def lookup? (substitution : Substitution) (name : String) : Option String :=
  substitution.bindings.lookup name

/-- A later binding of a name takes the place of an earlier one. -/
def insert (substitution : Substitution) (name replacement : String) : Substitution :=
  ⟨(name, replacement) :: substitution.bindings⟩

def erase (substitution : Substitution) (name : String) : Substitution :=
  ⟨substitution.bindings.filter (·.1 ≠ name)⟩

/-! ## Texts

Replacements are put in where a text has occurrences of their names. What has been put in is not
looked at again, so all bindings act at once. -/

def replacementText (replacement : String) (beforeBracket : Bool) : List Char :=
  if beforeBracket && TypeText.needsParentheses replacement.toList then
    '(' :: replacement.toList ++ [')']
  else replacement.toList

def pieceText (substitution : Substitution) : TypeText.Piece → List Char
  | .verbatim chars => chars
  | .occurrence name beforeBracket =>
      match substitution.lookup? (String.ofList name) with
      | some replacement => replacementText replacement beforeBracket
      | none => name

def apply (substitution : Substitution) (text : String) : String :=
  if substitution.isEmpty then text
  else String.ofList ((TypeText.pieces text).flatMap substitution.pieceText)

example : apply ⟨[("T", "U | null"), ("U", "T")]⟩ "Map<T, U>[T[]] & { T: U }" =
    "Map<U | null, T>[(U | null)[]] & { T: T }" := by
  decide +kernel

/-! ## Binding

The type parameters of a declaration take the arguments of a reference in order. A parameter without
one takes its default, in which the parameters before it are already replaced; without a default it
stays unbound. -/

def bindOne (substitution : Substitution) (parameter : TypeParameter) (argument : Option String) :
    Substitution :=
  match argument, parameter.fallback with
  | some argument, _ => substitution.insert parameter.name (Text.trimmed argument)
  | none, some fallback => substitution.insert parameter.name (substitution.apply fallback)
  | none, none => substitution

def bindFrom (substitution : Substitution) :
    List TypeParameter → List String → Substitution
  | [], _ => substitution
  | parameter :: parameters, arguments =>
      bindFrom (substitution.bindOne parameter arguments.head?) parameters arguments.tail

def bind (parameters : List TypeParameter) (arguments : List String) : Substitution :=
  bindFrom {} parameters arguments

example : (bind [⟨"K", none, none⟩, ⟨"V", none, some "K[]"⟩] [" string "]).lookup? "V" =
    some "string[]" := by
  decide +kernel

/-! ## Signatures -/

/-- The type parameters of a method hide those of its class. -/
def without (substitution : Substitution) (parameters : List TypeParameter) : Substitution :=
  parameters.foldl (fun current parameter => current.erase parameter.name) substitution

def typeParameter (substitution : Substitution) (parameter : TypeParameter) : TypeParameter :=
  { parameter with
    constraint := parameter.constraint.map substitution.apply
    fallback := parameter.fallback.map substitution.apply }

def parameter (substitution : Substitution) (parameter : Parameter) : Parameter :=
  { parameter with type := parameter.type.map substitution.apply }

def shape (substitution : Substitution) : MemberShape → MemberShape
  | .method typeParameters parameters returnType =>
      let inner := substitution.without typeParameters
      .method (typeParameters.map inner.typeParameter) (parameters.map inner.parameter)
        (returnType.map inner.apply)
  | .property type => .property (type.map substitution.apply)
  | .getter returnType => .getter (returnType.map substitution.apply)
  | .setter parameter => .setter (substitution.parameter parameter)
  | .accessorPair returnType parameter =>
      .accessorPair (returnType.map substitution.apply) (substitution.parameter parameter)
  | .unknown => .unknown

def member (substitution : Substitution) (member : Member) : Member :=
  { member with shape := substitution.shape member.shape }

end Substitution

end MemberStubs
