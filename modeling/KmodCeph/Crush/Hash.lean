import Mathlib.Tactic

namespace KmodCeph.Crush

def crushHashSeed : UInt32 := 1315423911

/-- Robert Jenkins' mix of 32-bit values. -/
def crushHashmix (a b c : UInt32) : UInt32 × UInt32 × UInt32 :=
  let a := (a - b - c) ^^^ (c >>> 13)
  let b := (b - c - a) ^^^ (a <<< 8)
  let c := (c - a - b) ^^^ (b >>> 13)
  let a := (a - b - c) ^^^ (c >>> 12)
  let b := (b - c - a) ^^^ (a <<< 16)
  let c := (c - a - b) ^^^ (b >>> 5)
  let a := (a - b - c) ^^^ (c >>> 3)
  let b := (b - c - a) ^^^ (a <<< 10)
  let c := (c - a - b) ^^^ (b >>> 15)
  (a, b, c)

def crushHash32Rjenkins1Two (a b : UInt32) : UInt32 :=
  let hash := crushHashSeed ^^^ a ^^^ b
  let x : UInt32 := 231232
  let y : UInt32 := 1232
  let (a, b, hash) := crushHashmix a b hash
  let (_, _, hash) := crushHashmix x a hash
  let (_, _, hash) := crushHashmix b y hash
  hash

def crushHash32Rjenkins1Three (a b c : UInt32) : UInt32 :=
  let hash := crushHashSeed ^^^ a ^^^ b ^^^ c
  let x : UInt32 := 231232
  let y : UInt32 := 1232
  let (a, b, hash) := crushHashmix a b hash
  let (c, x, hash) := crushHashmix c x hash
  let (y, _, hash) := crushHashmix y a hash
  let (_, _, hash) := crushHashmix b x hash
  let (_, _, hash) := crushHashmix y c hash
  hash

def crushHash32Rjenkins1Four (a b c d : UInt32) : UInt32 :=
  let hash := crushHashSeed ^^^ a ^^^ b ^^^ c ^^^ d
  let x : UInt32 := 231232
  let y : UInt32 := 1232
  let (a, b, hash) := crushHashmix a b hash
  let (c, d, hash) := crushHashmix c d hash
  let (_, x, hash) := crushHashmix a x hash
  let (y, _, hash) := crushHashmix y b hash
  let (_, _, hash) := crushHashmix c x hash
  let (_, _, hash) := crushHashmix y d hash
  hash

def crushHashRjenkins1 : UInt8 := 0

def crushHash32Two (type : UInt8) (a b : UInt32) : UInt32 :=
  if type = crushHashRjenkins1 then crushHash32Rjenkins1Two a b else 0

def crushHash32Three (type : UInt8) (a b c : UInt32) : UInt32 :=
  if type = crushHashRjenkins1 then crushHash32Rjenkins1Three a b c else 0

def crushHash32Four (type : UInt8) (a b c d : UInt32) : UInt32 :=
  if type = crushHashRjenkins1 then crushHash32Rjenkins1Four a b c d else 0

end KmodCeph.Crush
