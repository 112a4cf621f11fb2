/-!
Words: the numbers of 64 bits with a sign. A single read counts its bytes with
one of them, although the library itself has no such bound.
-/

namespace DataLake.Number

def isWord (n : Int) : Bool :=
  -0x8000000000000000 ≤ n && n < 0x8000000000000000

end DataLake.Number
