import MemberStubs.Edit
import MemberStubs.Member
import MemberStubs.Stub.DefaultValue

namespace MemberStubs

/-! Stubs: the text of a concrete declaration for a member. Signatures are copied, bodies and
initial values follow the policy. -/

structure UnsupportedShape where
  name : String
  shape : MemberShape
  deriving DecidableEq, Repr

def UnsupportedShape.message (unsupported : UnsupportedShape) : String :=
  s!"unsupported member shape \x60{unsupported.shape.label}\x60 for member \x60{unsupported.name}\x60"

structure StubStyle where
  policy : StubPolicy := .throwStub
  indentUnit : String := "    "
  deriving DecidableEq, Repr, Inhabited

/-! ## Signatures -/

/-- A type with its colon. A blank type is left out. -/
def typeAscription (type : Option String) : String :=
  match type.map Text.trimmed with
  | none => ""
  | some "" => ""
  | some type => s!": {type}"

def TypeParameter.text (parameter : TypeParameter) : String :=
  let bound := parameter.constraint.elim "" (" extends " ++ ·)
  let fallback := parameter.fallback.elim "" (" = " ++ ·)
  parameter.name ++ bound ++ fallback

def typeParametersText (parameters : List TypeParameter) : String :=
  if parameters.isEmpty then ""
  else "<" ++ ", ".intercalate (parameters.map TypeParameter.text) ++ ">"

def optionalMark (isOptional : Bool) : String :=
  if isOptional then "?" else ""

def Parameter.text (parameter : Parameter) : String :=
  (if parameter.isRest then "..." else "") ++ parameter.name ++
    optionalMark parameter.isOptional ++ typeAscription parameter.type

def parametersText (parameters : List Parameter) : String :=
  "(" ++ ", ".intercalate (parameters.map Parameter.text) ++ ")"

def Member.accessText (member : Member) : String :=
  member.visibility.keyword?.elim "" (· ++ " ")

/-! ## Bodies -/

def notImplemented : String :=
  "throw new Error(\"Method not implemented.\");"

def workMarker (name : String) : String :=
  s!"// TODO: implement {name}"

/-- Whether a body has to end with a value, or not end at all. -/
def returnsValue (returnType : Option String) : Bool :=
  match returnType.map Text.trimmed with
  | none => false
  | some type => !(["", "void", "undefined", "any"].contains type)

namespace StubStyle

def valueBody (style : StubStyle) (name : String) (returnType : Option String) : List String :=
  match style.policy with
  | .throwStub => [notImplemented]
  | .typeDefault =>
      if returnsValue returnType then
        match returnType.bind defaultValue? with
        | some value => [s!"return {value};"]
        | none => [notImplemented]
      else []
  | .commentMarker =>
      if returnsValue returnType then [workMarker name, notImplemented] else [workMarker name]

def setterBody (style : StubStyle) (name : String) : List String :=
  match style.policy with
  | .throwStub => [notImplemented]
  | .typeDefault => []
  | .commentMarker => [workMarker name]

def withBody (style : StubStyle) (head : String) (body : List String) : String :=
  if body.isEmpty then head ++ " \x7b\x7d"
  else head ++ " \x7b" ++ String.join (body.map ("\n" ++ style.indentUnit ++ ·)) ++ "\n\x7d"

/-! ## Declarations -/

def methodText (style : StubStyle) (member : Member) (typeParameters : List TypeParameter)
    (parameters : List Parameter) (returnType : Option String) : String :=
  let head := member.accessText ++ member.name ++ optionalMark member.isOptional ++
    typeParametersText typeParameters ++ parametersText parameters ++ typeAscription returnType
  style.withBody head (style.valueBody member.name returnType)

def initialValue? (style : StubStyle) (member : Member) (type : Option String) : Option String :=
  if style.policy = .typeDefault ∧ !member.isOptional then type.bind defaultValue? else none

def propertyText (style : StubStyle) (member : Member) (type : Option String) : String :=
  member.accessText ++ (if member.isReadonly then "readonly " else "") ++ member.name ++
    optionalMark member.isOptional ++ typeAscription type ++
    (style.initialValue? member type).elim "" (" = " ++ ·) ++ ";"

def getterText (style : StubStyle) (member : Member) (returnType : Option String) : String :=
  style.withBody (s!"{member.accessText}get {member.name}()" ++ typeAscription returnType)
    (style.valueBody member.name returnType)

def setterText (style : StubStyle) (member : Member) (parameter : Parameter) : String :=
  style.withBody (s!"{member.accessText}set {member.name}" ++ parametersText [parameter])
    (style.setterBody member.name)

def synthesize (style : StubStyle) (member : Member) : Except UnsupportedShape Stub :=
  match member.shape with
  | .method typeParameters parameters returnType =>
      .ok ⟨member.name, .method, style.methodText member typeParameters parameters returnType⟩
  | .property type => .ok ⟨member.name, .property, style.propertyText member type⟩
  | .getter returnType => .ok ⟨member.name, .getter, style.getterText member returnType⟩
  | .setter parameter => .ok ⟨member.name, .setter, style.setterText member parameter⟩
  | .accessorPair returnType parameter =>
      .ok ⟨member.name, .accessorPair,
        style.getterText member returnType ++ "\n" ++ style.setterText member parameter⟩
  | .unknown => .error ⟨member.name, member.shape⟩

end StubStyle

example : (StubStyle.synthesize { policy := .typeDefault, indentUnit := "  " }
    { name := "area", shape := .method [] [{ name := "scale", type := some " number " }] "number",
      visibility := .publicAccess }).toOption.map Stub.text =
    some "public area(scale: number): number \x7b\n  return 0;\n\x7d" := by
  decide +kernel

end MemberStubs
