import MemberStubs.Text.Quoted

namespace MemberStubs

/-! An indent unit is made of spaces and tabs, at least one of them. -/

def isIndentUnit (text : String) : Bool :=
  !text.toList.isEmpty && text.toList.all fun c => c = ' ' || c = '\t'

structure InvalidIndent where
  text : String
  deriving DecidableEq, Repr

def InvalidIndent.message (invalid : InvalidIndent) : String :=
  s!"invalid indent {Text.quoted invalid.text}: use spaces or tabs"

def checkIndent (text : String) : Except InvalidIndent Unit :=
  if isIndentUnit text then .ok () else .error ⟨text⟩

end MemberStubs
