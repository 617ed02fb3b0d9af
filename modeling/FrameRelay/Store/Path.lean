/-! Paths as texts: names between slashes, where a single point stands for the directory itself
and two points for the one above. -/

namespace FrameRelay

/-- Why nothing can be found or made at a path. -/
inductive PathFault where
  | missing
  | present
  | notDirectory
  | isDirectory
  | tooLong
  | holdsNul
  deriving Repr, DecidableEq, Inhabited

def PathFault.message : PathFault → String
  | .missing => "No such file or directory (os error 2)"
  | .present => "File exists (os error 17)"
  | .notDirectory => "Not a directory (os error 20)"
  | .isDirectory => "Is a directory (os error 21)"
  | .tooLong => "File name too long (os error 36)"
  | .holdsNul => "file name contained an unexpected NUL byte"

/-- The parts between the slashes; the first one of an absolute path is empty. -/
def segments (path : String) : List String := path.splitOn "/"

/-- Parts that stay where they are. -/
def stays (part : String) : Bool := part == "" || part == "."

def isStep (part : String) : Bool := stays part || part == ".."

/-- Drops the empty parts that slashes at the end of a path leave. -/
def dropSlashes (parts : List String) : List String :=
  (parts.reverse.dropWhile (· == "")).reverse

/-- Drops parts at the end that stay where they are, but never the first part. -/
def trimSegments : List String → List String
  | [] => []
  | first :: rest => first :: (rest.reverse.dropWhile stays).reverse

def pathOfSegments : List String → String
  | [""] => "/"
  | parts => String.intercalate "/" parts

/-- The path of the directory that holds an entry, empty for an entry right here. -/
def parentPath (path : String) : String :=
  pathOfSegments (trimSegments (trimSegments (segments path)).dropLast)

/-- The path of an entry of a directory; the empty path is this one. A slash at the end of the
directory's path does for the one between the two. -/
def joinPath (directory name : String) : String :=
  if directory.isEmpty || directory.endsWith "/" then directory ++ name
  else directory ++ "/" ++ name

def maxName : Nat := 255

def maxPath : Nat := 4095

/-- Whether a text can be a path. An empty one names nothing. -/
def checkPath (path : String) : Except PathFault Unit :=
  if path.toList.any (·.toNat == 0) then .error .holdsNul
  else if path.isEmpty then .error .missing
  else if maxPath < path.utf8ByteSize then .error .tooLong
  else .ok ()

end FrameRelay
