/-
  Comparing and showing digests.

  `sameDigest` looks at every byte of two texts of equal length, however early they
  differ, so the time it takes tells nothing about where they differ.
-/

namespace HpcBlueprint.Digest

/-- Collects the bits in which two byte strings differ. -/
def difference (xs ys : List UInt8) : UInt8 :=
  (xs.zip ys).foldl (fun acc (a, b) => acc ||| (a ^^^ b)) 0

/-- Whether two texts are the same, in a time that depends on their lengths only. -/
def sameDigest (a b : String) : Bool :=
  let xs := a.toUTF8.toList
  let ys := b.toUTF8.toList
  if xs.length != ys.length then false else difference xs ys == 0

/-- The first eight characters of a digest, for people. -/
def short (digest : String) : String := String.ofList (digest.toList.take 8)

end HpcBlueprint.Digest
