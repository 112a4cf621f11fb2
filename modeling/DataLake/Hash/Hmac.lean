import DataLake.Hash.Sha256

/-!
Keyed hashing with SHA-256: the message is hashed together with the key, and
the result once more. A key longer than a block is hashed first.
-/

namespace DataLake.Hmac

def blockKey (key : Bytes) : Bytes :=
  let short := if 64 < key.length then Sha256.digest key else key
  short ++ List.replicate (64 - short.length) 0

def sha256 (key message : Bytes) : Bytes :=
  let key := blockKey key
  Sha256.digest (key.map (· ^^^ 0x5c) ++ Sha256.digest (key.map (· ^^^ 0x36) ++ message))

end DataLake.Hmac
