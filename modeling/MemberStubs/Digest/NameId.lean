import MemberStubs.Digest.Hex
import MemberStubs.Digest.Sha1

namespace MemberStubs.Digest

/-! Identifiers made from names: version 5 of the universally unique identifiers. The first sixteen
bytes of the digest of a namespace and a name carry the version in the high half of byte 6 and the
variant in the two high bits of byte 8. -/

def markVersion (bytes : List UInt8) : List UInt8 :=
  let versioned := bytes.modify 6 fun byte => byte &&& 0x0f ||| 0x50
  versioned.modify 8 fun byte => byte &&& 0x3f ||| 0x80

/-- Groups of 4, 2, 2, 2 and 6 bytes. -/
def grouped (bytes : List UInt8) : String :=
  "-".intercalate <| [(0, 4), (4, 2), (6, 2), (8, 2), (10, 6)].map fun (start, count) =>
    hex ((bytes.drop start).take count)

def nameId (namespaceBytes : List UInt8) (name : String) : String :=
  grouped (markVersion ((Sha1.digest (namespaceBytes ++ name.toUTF8.toList)).take 16))

end MemberStubs.Digest
