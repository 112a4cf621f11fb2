/-!
The room that a machine leaves to reading. How deep a value may be nested depends on how much
of the call stack is left, and how large a read may be on how much memory there is.
-/

namespace DataLake

structure Room where
  nesting : Nat
  /-- The least size of a read for which a file finds no memory. -/
  memory : Int
  deriving DecidableEq, Repr

/-- The room of an ordinary machine. -/
def Room.usual : Room where
  nesting := 985
  memory := 0x8000000000

end DataLake
