import DataLake.Text

/-!
Names of files and directories. A path is given relative to a configured root;
directories end with a slash, and the root itself is a lone slash. Joining and
cutting never look inside a segment.
-/

namespace DataLake.Path

/-- The segments of a path that are not empty. -/
def segments (path : Text) : List Text :=
  (Text.splitOn '/' path).filter (!·.isEmpty)

def isSlash (c : CodePoint) : Bool :=
  c == '/'

def dropLeadingSlashes (path : Text) : Text :=
  path.dropWhile isSlash

def dropTrailingSlashes (path : Text) : Text :=
  Text.dropEndWhile isSlash path

def dropOuterSlashes (path : Text) : Text :=
  Text.trim isSlash path

/-- The canonical form of a root: its segments, each after one slash, or a lone
slash when it has none. -/
def normalizeRoot (root : Text) : Text :=
  '/' :: Text.joinWith "/" (segments root)

def isRoot (path : Text) : Bool :=
  path == [] || path == "/"

/-- The remote name of a path below the root, without a slash at its front. The
root itself keeps a slash at its end. -/
def absolute (root path : Text) : Text :=
  let base := dropOuterSlashes root
  let path := dropLeadingSlashes path
  if base.isEmpty then path
  else if path.isEmpty then base ++ "/"
  else base ++ .char '/' :: path

/-- The path of a remote name below the root. A name that is not below it stays
as it is. -/
def relative (root name : Text) : Text :=
  let base := dropOuterSlashes root
  let name := dropLeadingSlashes name
  if base.isEmpty then name
  else if name = base then []
  else ((base ++ "/").isPrefixOf? name).getD name

/-- The directory that holds a path; empty for a path of one segment. -/
def parent (path : Text) : Text :=
  Text.joinWith "/" (segments (dropTrailingSlashes path)).dropLast

def lastName (path : Text) : Text :=
  (Text.cutLast '/' (dropTrailingSlashes path)).2

end DataLake.Path
