namespace MemberStubs.Text

/-! Texts as bytes. -/

def utf8Bytes (text : String) : List UInt8 :=
  text.toUTF8.toList

def ofUtf8? (bytes : List UInt8) : Option String :=
  String.fromUTF8? ⟨bytes.toArray⟩

end MemberStubs.Text
