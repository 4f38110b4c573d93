namespace MemberStubs.Digest

/-! Bytes written as pairs of lower-case hexadecimal digits. -/

def hexByte (byte : UInt8) : List Char :=
  [Nat.digitChar (byte.toNat / 16), Nat.digitChar (byte.toNat % 16)]

def hex (bytes : List UInt8) : String :=
  String.ofList (bytes.flatMap hexByte)

example : hexByte 0x0a = ['0', 'a'] := by decide

end MemberStubs.Digest
