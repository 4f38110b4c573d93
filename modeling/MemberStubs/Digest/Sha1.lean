import MemberStubs.Digest.Message

namespace MemberStubs.Digest.Sha1

structure State where
  a : UInt32
  b : UInt32
  c : UInt32
  d : UInt32
  e : UInt32

def initial : State :=
  ⟨0x67452301, 0xefcdab89, 0x98badcfe, 0x10325476, 0xc3d2e1f0⟩

def nextWord (recent : List UInt32) : UInt32 :=
  rotateLeft (recent.getD 2 0 ^^^ recent.getD 7 0 ^^^ recent.getD 13 0 ^^^ recent.getD 15 0) 1

def schedule (block : List UInt32) : List UInt32 :=
  extended nextWord 64 block.reverse

/-- Eighty rounds come in four kinds of twenty. -/
def mix (number : Nat) (b c d : UInt32) : UInt32 :=
  if number < 20 then ((b &&& c) ||| (~~~b &&& d)) + 0x5a827999
  else if number < 40 then (b ^^^ c ^^^ d) + 0x6ed9eba1
  else if number < 60 then ((b &&& c) ||| (b &&& d) ||| (c &&& d)) + 0x8f1bbcdc
  else (b ^^^ c ^^^ d) + 0xca62c1d6

def round (state : State) (word : UInt32) (number : Nat) : State :=
  let ⟨a, b, c, d, e⟩ := state
  ⟨rotateLeft a 5 + mix number b c d + e + word, a, rotateLeft b 30, c, d⟩

def State.add (first second : State) : State :=
  ⟨first.a + second.a, first.b + second.b, first.c + second.c, first.d + second.d,
    first.e + second.e⟩

def compress (state : State) (block : List UInt32) : State :=
  state.add <| (schedule block).zipIdx.foldl
    (fun current pair => round current pair.1 pair.2) state

def State.bytes (state : State) : List UInt8 :=
  [state.a, state.b, state.c, state.d, state.e].flatMap bigEndian32

def digest (message : List UInt8) : List UInt8 :=
  ((blocksOf message).foldl compress initial).bytes

end MemberStubs.Digest.Sha1
