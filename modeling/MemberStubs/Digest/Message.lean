namespace MemberStubs.Digest

/-! A message is hashed in blocks of sixteen words. A one bit follows the message, then zeros, and
the last two words hold the length of the message in bits. -/

def bigEndian64 (value : UInt64) : List UInt8 :=
  ([56, 48, 40, 32, 24, 16, 8, 0] : List UInt64).map fun shift => (value >>> shift).toUInt8

def bigEndian32 (word : UInt32) : List UInt8 :=
  ([24, 16, 8, 0] : List UInt32).map fun shift => (word >>> shift).toUInt8

def padded (message : List UInt8) : List UInt8 :=
  let zeros := (119 - message.length % 64) % 64
  message ++ 0x80 :: List.replicate zeros 0 ++ bigEndian64 (8 * UInt64.ofNat message.length)

def word (a b c d : UInt8) : UInt32 :=
  a.toUInt32 <<< 24 ||| b.toUInt32 <<< 16 ||| c.toUInt32 <<< 8 ||| d.toUInt32

def words : List UInt8 → List UInt32
  | a :: b :: c :: d :: rest => word a b c d :: words rest
  | _ => []

def blocks (words : List UInt32) : List (List UInt32) :=
  if words = [] then [] else words.take 16 :: blocks (words.drop 16)
termination_by words.length
decreasing_by
  have : words.length ≠ 0 := by simpa using ‹¬words = []›
  simp
  omega

def blocksOf (message : List UInt8) : List (List UInt32) :=
  blocks (words (padded message))

def rotateLeft (word : UInt32) (count : UInt32) : UInt32 :=
  word <<< count ||| word >>> (32 - count)

def rotateRight (word : UInt32) (count : UInt32) : UInt32 :=
  word >>> count ||| word <<< (32 - count)

/-! The words of a block are extended to one word for each round. `recent` holds the words in
reverse, so that the last one comes first. -/

def extended (next : List UInt32 → UInt32) : Nat → List UInt32 → List UInt32
  | 0, recent => recent.reverse
  | count + 1, recent => extended next count (next recent :: recent)

end MemberStubs.Digest
