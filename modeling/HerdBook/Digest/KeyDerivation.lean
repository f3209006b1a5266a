import HerdBook.Digest.Sha256

/-!
# Deriving keys from passwords

The keyed hash of RFC 2104 and the iterated derivation of RFC 8018 over SHA-256, for a key of one
digest. The two states that depend on the password alone are computed once, so that an iteration
costs two compressions.
-/

namespace HerdBook

namespace KeyDerivation

open Sha256

/-- The number of iterations. -/
def iterations : Nat := 100000

/-- A key of sixty-four bytes: a longer one is hashed first, a shorter one filled up with zeros. -/
def keyBlock (key : List UInt8) : List UInt8 :=
  let key := if 64 < key.length then digestBytes (hash key) else key
  key ++ List.replicate (64 - key.length) 0

/-- The state of the inner and of the outer hash after the key. -/
structure Keyed where
  inner : Words8
  outer : Words8

/-- The two states for a key. -/
def keyed (key : List UInt8) : Keyed :=
  let bytes := keyBlock key
  ⟨compress initial (block (bytes.map (· ^^^ 0x36))),
    compress initial (block (bytes.map (· ^^^ 0x5c)))⟩

/-- The block that follows a block of sixty-four bytes and holds a digest and the padding. -/
def digestBlock (d : Words8) : Words16 :=
  ⟨d.a, d.b, d.c, d.d, d.e, d.f, d.g, d.h, 0x80000000, 0, 0, 0, 0, 0, 0, 768⟩

/-- The keyed hash of a message. -/
def mac (k : Keyed) (message : List UInt8) : Words8 :=
  compress k.outer (digestBlock (finish k.inner 64 message))

/-- The keyed hash of a digest. -/
def macDigest (k : Keyed) (d : Words8) : Words8 :=
  compress k.outer (digestBlock (compress k.inner (digestBlock d)))

/-- Two digests combined bit by bit. -/
def combine (x y : Words8) : Words8 :=
  ⟨x.a ^^^ y.a, x.b ^^^ y.b, x.c ^^^ y.c, x.d ^^^ y.d, x.e ^^^ y.e, x.f ^^^ y.f, x.g ^^^ y.g,
    x.h ^^^ y.h⟩

/-- `n` further iterations from the last digest and the combination so far. -/
def iterate (k : Keyed) : Nat → Words8 → Words8 → Words8
  | 0, _, sum => sum
  | n + 1, last, sum =>
    let next := macDigest k last
    iterate k n next (combine sum next)

/-- The key of thirty-two bytes for a password and a salt. -/
def derive (password salt : List UInt8) : List UInt8 :=
  let k := keyed password
  let first := mac k (salt ++ [0, 0, 0, 1])
  digestBytes (iterate k (iterations - 1) first first)

/-- A byte in two hexadecimal digits. -/
def hexByte (b : UInt8) : List Char :=
  [Nat.digitChar (b.toNat / 16), Nat.digitChar (b.toNat % 16)]

/-- The key for a password and a salt as texts, in hexadecimal. -/
def deriveHex (password salt : String) : String :=
  String.ofList ((derive password.toUTF8.toList salt.toUTF8.toList).flatMap hexByte)

end KeyDerivation

end HerdBook
