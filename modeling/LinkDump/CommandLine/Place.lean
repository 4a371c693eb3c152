import LinkDump.Source

/-! # Places
Where the program runs, as far as it can tell: its standard input, and the files and directories it
can reach. A path is followed name by name, from the directory that the program runs in, or from the
root if the path starts with a slash. Opening a file gives a source; a directory can be opened but
not read. -/

namespace LinkDump

/-- A file with its bytes, or a directory with its entries. -/
inductive FileTree
  | file (bytes : Bytes)
  | directory (entries : List (Text × FileTree))

/-- The entries of a directory, by their names. -/
abbrev Directory := List (Text × FileTree)

/-- Why a path leads to no bytes. -/
inductive PathError
  /-- A directory on the way has no such entry. -/
  | missing
  /-- The path goes on behind a file. -/
  | notDirectory
  /-- The path ends at a directory. -/
  | isDirectory
  /-- A name, or the path as a whole, is too long. -/
  | nameTooLong
  deriving Repr, DecidableEq

/-- A refusal by the system: what it says, and its number. -/
def refusal (details : Text) (code : Nat) : Text :=
  details ++ " (os error ".toList ++ Nat.toDigits 10 code ++ [')']

/-- The wording of a path error. -/
def PathError.message : PathError → Text
  | missing => refusal "No such file or directory".toList 2
  | notDirectory => refusal "Not a directory".toList 20
  | isDirectory => refusal "Is a directory".toList 21
  | nameTooLong => refusal "File name too long".toList 36

/-- Standard input, and the directories around the program. -/
structure Place where
  input : Bytes := []
  /-- The directory that the program runs in. -/
  here : Directory := []
  /-- The directories that contain it, the innermost first and the root last. -/
  around : List Directory := []

namespace Place

/-- The most bytes that a name may have. -/
def maxNameSize : Nat := 255

/-- The most bytes that a path may have. -/
def maxPathSize : Nat := 4095

/-- Whether a name between two slashes leads nowhere else: it is empty or a single dot. -/
def staysPut (name : Text) : Bool := name == [] || name == ['.']

/-- Whether a path stands for standard input: a dash, and no more than slashes and single dots
behind it. -/
def isInput (path : Text) : Bool :=
  match path.splitOn '/' with
  | name :: names => name == ['-'] && names.all staysPut
  | [] => false

/-- Follow names from a directory that lies in others. The root lies in itself. -/
def follow (directory : Directory) (around : List Directory) :
    List Text → Except PathError FileTree
  | [] => .ok (.directory directory)
  | name :: names =>
    if staysPut name then follow directory around names
    else if name = ['.', '.'] then
      match around with
      | [] => follow directory [] names
      | parent :: around => follow parent around names
    else if maxNameSize < Utf8.size name then .error .nameTooLong
    else
      match directory.lookup name with
      | none => .error .missing
      | some (.directory entries) => follow entries (directory :: around) names
      | some (.file bytes) => if names = [] then .ok (.file bytes) else .error .notDirectory

/-- The directory that contains all others. -/
def root (place : Place) : Directory := place.around.getLast?.getD place.here

/-- The file or directory at the end of a path. -/
def find (place : Place) (path : Text) : Except PathError FileTree :=
  if maxPathSize < Utf8.size path then .error .nameTooLong
  else
    match path with
    | [] => .error .missing
    | '/' :: path => follow place.root [] (path.splitOn '/')
    | path => follow place.here place.around (path.splitOn '/')

/-- Open standard input or a file, or say why that is impossible. -/
def openFile (place : Place) (path : Text) : Except Text Source :=
  if isInput path then .ok (.ofBytes place.input)
  else
    match place.find path with
    | .ok (.file bytes) => .ok (.ofBytes bytes)
    | .ok (.directory _) => .ok [.failure PathError.isDirectory.message]
    | .error e => .error e.message

/-- A dash stands for standard input. -/
@[simp] theorem openFile_dash (place : Place) :
    place.openFile ['-'] = .ok (.ofBytes place.input) := rfl

end Place

end LinkDump
