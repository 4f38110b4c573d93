namespace MemberStubs

/-! Members of a class as its source declares them. Types, constraints and defaults are kept as
source text. -/

/-- A member without an access modifier is public, but a stub for it is written without one too. -/
inductive Visibility where
  | publicAccess
  | implicitAccess
  | protectedAccess
  | internalAccess
  | privateAccess
  deriving DecidableEq, Repr, Inhabited

namespace Visibility

def isPrivate (visibility : Visibility) : Bool :=
  visibility = .privateAccess

def keyword? : Visibility → Option String
  | .publicAccess => some "public"
  | .implicitAccess => none
  | .protectedAccess => some "protected"
  | .internalAccess => some "internal"
  | .privateAccess => some "private"

end Visibility

/-- A type parameter such as `T extends object = {}`. -/
structure TypeParameter where
  name : String
  constraint : Option String := none
  fallback : Option String := none
  deriving DecidableEq, Repr, Inhabited

structure Parameter where
  name : String
  type : Option String := none
  isOptional : Bool := false
  isRest : Bool := false
  deriving DecidableEq, Repr, Inhabited

inductive MemberShape where
  | method (typeParameters : List TypeParameter) (parameters : List Parameter)
      (returnType : Option String)
  | property (type : Option String)
  | getter (returnType : Option String)
  | setter (parameter : Parameter)
  | accessorPair (returnType : Option String) (parameter : Parameter)
  /-- A kind no stub can be written for, such as an index signature or a constructor. -/
  | unknown
  deriving DecidableEq, Repr, Inhabited

def MemberShape.label : MemberShape → String
  | .method .. => "method"
  | .property .. => "property"
  | .getter .. => "get_accessor"
  | .setter .. => "set_accessor"
  | .accessorPair .. => "accessor_pair"
  | .unknown => "unknown"

structure Member where
  name : String
  shape : MemberShape
  visibility : Visibility := .implicitAccess
  isAbstract : Bool := false
  isReadonly : Bool := false
  isOptional : Bool := false
  deriving DecidableEq, Repr, Inhabited

namespace Member

/-! A getter and a setter of one name are the two halves of one accessor pair. The pair has the
getter's visibility and is abstract if either half is; whatever else is known comes from the half
that was declared first. -/

def completeWith? (first second : Member) : Option Member :=
  if first.name ≠ second.name then none
  else
    let isAbstract := first.isAbstract || second.isAbstract
    match first.shape, second.shape with
    | .getter returnType, .setter parameter =>
        some { first with shape := .accessorPair returnType parameter, isAbstract }
    | .setter parameter, .getter returnType =>
        some { first with
          shape := .accessorPair returnType parameter
          visibility := second.visibility
          isAbstract }
    | _, _ => none

/-- Whether a concrete subclass has to supply the member. -/
def isOwed (member : Member) : Bool :=
  member.isAbstract && !member.visibility.isPrivate

end Member

end MemberStubs
