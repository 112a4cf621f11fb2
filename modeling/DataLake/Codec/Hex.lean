import DataLake.Text.Quoted

/-!
Byte strings in hexadecimal, two lower-case digits a byte.
-/

namespace DataLake.Hex

def encodeByte (b : UInt8) : Text :=
  Text.hexPadded 2 b.toNat

def encode (bytes : Bytes) : Text :=
  bytes.flatMap encodeByte

end DataLake.Hex
