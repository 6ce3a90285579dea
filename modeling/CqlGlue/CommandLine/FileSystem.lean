import CqlGlue.Text.Pieces

/-!
# File systems

A file system as the program sees it: a tree of files and directories, read and written by
paths that are followed component by component from a working directory. The system may refuse to
go on from a directory, to read, or to write.

## Main definitions
* `FileSystem` holds the tree and the working directory.
* `FileSystem.read` and `FileSystem.write` follow a path.
* `FileSystem.makeDirectories` makes the directories that a path leads through.
* `FileFault` lists why that can fail.
-/

namespace CqlGlue.CommandLine

/-- Why a file cannot be read or written. -/
inductive FileFault where
  | missing
  | notDirectory
  | isDirectory
  /-- A name, or the whole path, is longer than the system allows. -/
  | nameTooLong
  /-- The content is no text. -/
  | notText
  /-- Any other cause, in the words of the system. -/
  | other (message : String)
  deriving DecidableEq, Repr

/-- The wording of a fault. -/
def FileFault.message : FileFault → String
  | missing => "No such file or directory (os error 2)"
  | notDirectory => "Not a directory (os error 20)"
  | isDirectory => "Is a directory (os error 21)"
  | nameTooLong => "File name too long (os error 36)"
  | notText => "stream did not contain valid UTF-8"
  | other message => message

/-- The text of a content. -/
def textOf (content : ByteArray) : Except FileFault String :=
  match String.fromUTF8? content with
  | some s => .ok s
  | none => .error .notText

/-- What is done at a place of the tree. -/
inductive Access where
  /-- Following a name from a directory. -/
  | search
  | read
  /-- Giving a file another content, or a directory another entry. -/
  | write
  deriving DecidableEq, Repr

/-- What stands at a place of the tree. -/
inductive FileNode where
  | file (content : ByteArray)
  | directory
  /-- A file that is always empty and forgets what is written to it. -/
  | sink
  /-- A node to which the system refuses an access, in its own words. -/
  | guarded (refused : Access) (reason : String) (node : FileNode)

namespace FileNode

/-- What a node is, whatever is refused there. -/
def base : FileNode → FileNode
  | guarded _ _ node => node.base
  | node => node

/-- Why an access to a node is refused, if it is. -/
def refusal? (access : Access) : FileNode → Option FileFault
  | guarded refused reason node =>
    if refused = access then some (.other reason) else node.refusal? access
  | _ => none

/-- Whether a node is a directory. -/
def isDirectory (node : FileNode) : Bool :=
  match node.base with
  | directory => true
  | _ => false

/-- A node with another content, where it is a file. What is refused is still refused. -/
def withContent (content : ByteArray) : FileNode → FileNode
  | file _ => file content
  | guarded refused reason node => guarded refused reason (node.withContent content)
  | node => node

end FileNode

/-- A tree of files with a working directory. Places are lists of names from the root. -/
structure FileSystem where
  nodes : List (List String × FileNode)
  working : List String

namespace FileSystem

/-- What stands at a place. The root is a directory. -/
def node? (fs : FileSystem) (place : List String) : Option FileNode :=
  match place with
  | [] => some .directory
  | place => fs.nodes.lookup place

/-- Whether a place is a directory. -/
def isDirectory (fs : FileSystem) (place : List String) : Bool :=
  (fs.node? place).any FileNode.isDirectory

/-- Whether the system permits an access to what stands at a place. -/
def permit (fs : FileSystem) (access : Access) (place : List String) : Except FileFault Unit :=
  match (fs.node? place).bind (FileNode.refusal? access) with
  | some fault => .error fault
  | none => .ok ()

/-- How many bytes a name may have. -/
def nameLimit : Nat := 255

/-- How many bytes a path may have. -/
def pathLimit : Nat := 4095

/-- Whether a name is too long to be looked up. -/
def isTooLong (name : String) : Bool := nameLimit < name.utf8ByteSize

/-- The place that a name leads to from a directory. The root is its own parent. -/
def enter (fs : FileSystem) (place : List String) (name : String) :
    Except FileFault (List String) :=
  if !fs.isDirectory place then .error .notDirectory
  else if name == "" then .ok place
  else
    match fs.permit .search place with
    | .error fault => .error fault
    | .ok () =>
      if name == "." then .ok place
      else if name == ".." then .ok place.dropLast
      else if isTooLong name then .error .nameTooLong
      else if (fs.node? (place ++ [name])).isSome then .ok (place ++ [name])
      else .error .missing

/-- Follows names from a place. Every place that is left must be a directory. -/
def follow (fs : FileSystem) : List String → List String → Except FileFault (List String)
  | place, [] => .ok place
  | place, name :: names => do follow fs (← fs.enter place name) names

/-- Where a path begins, and the names in it. -/
def start (fs : FileSystem) (path : String) : Except FileFault (List String × List String) :=
  if pathLimit < path.utf8ByteSize then .error .nameTooLong
  else
    match Text.pieces '/' path with
    | "" :: names => .ok ([], names)
    | names => .ok (fs.working, names)

/-- The content of the file at a path. -/
def read (fs : FileSystem) (path : String) : Except FileFault ByteArray := do
  let (origin, names) ← fs.start path
  let place ← fs.follow origin names
  fs.permit .read place
  match (fs.node? place).map FileNode.base with
  | some (.file content) => .ok content
  | some .sink => .ok ByteArray.empty
  | some _ => .error .isDirectory
  | none => .error .missing

/-- Puts a node at a place. -/
def put (fs : FileSystem) (place : List String) (node : FileNode) : FileSystem :=
  { fs with nodes := (place, node) :: fs.nodes.filter (·.1 != place) }

/-- The place that a path names for a new content. A path that ends in a slash or in a name for
a directory names none. -/
def destination (fs : FileSystem) (path : String) : Except FileFault (List String) := do
  let (place, names) ← fs.start path
  let named := (names.reverse.dropWhile (· == "")).reverse
  let parent ← fs.follow place named.dropLast
  if !fs.isDirectory parent then .error .notDirectory
  else
    match named.getLast? with
    | none => .error .isDirectory
    | some name => do
      fs.permit .search parent
      if named.length < names.length || name == "." || name == ".." then .error .isDirectory
      else if isTooLong name then .error .nameTooLong
      else .ok (parent ++ [name])

/-- Opens the file at a path to write to it. An empty file is made where nothing is. -/
def openFile (fs : FileSystem) (path : String) : Except FileFault (List String × FileSystem) := do
  let place ← fs.destination path
  match fs.node? place with
  | none => do
    fs.permit .write place.dropLast
    .ok (place, fs.put place (.file ByteArray.empty))
  | some node =>
    if node.isDirectory then .error .isDirectory
    else do
      fs.permit .write place
      .ok (place, fs)

/-- Gives the file at a place a content. -/
def store (fs : FileSystem) (place : List String) (content : ByteArray) : FileSystem :=
  match fs.node? place with
  | some node =>
    match node.base with
    | .file _ => fs.put place (node.withContent content)
    | _ => fs
  | none => fs

/-- Gives the file at a path a content. -/
def write (fs : FileSystem) (path : String) (content : ByteArray) :
    Except FileFault FileSystem := do
  let (place, opened) ← fs.openFile path
  .ok (opened.store place content)

/-- Puts a text behind the content of the file at a place. -/
def append (fs : FileSystem) (place : List String) (more : ByteArray) : FileSystem :=
  match (fs.node? place).map FileNode.base with
  | some (.file content) => fs.store place (content ++ more)
  | _ => fs

/-! ## Making directories -/

/-- The place that a name leads to, where a directory is made if there is nothing. -/
def enterMaking (fs : FileSystem) (place : List String) (name : String) :
    FileSystem × Except FileFault (List String) :=
  match fs.enter place name with
  | .error .missing =>
    match fs.permit .write place with
    | .error fault => (fs, .error fault)
    | .ok () => (fs.put (place ++ [name]) .directory, .ok (place ++ [name]))
  | next => (fs, next)

/-- Follows names from a place and makes the directories that are missing. Those that were made
stay when it fails. -/
def followMaking (fs : FileSystem) :
    List String → List String → FileSystem × Except FileFault (List String)
  | place, [] => (fs, if fs.isDirectory place then .ok place else .error .notDirectory)
  | place, name :: names =>
    match fs.enterMaking place name with
    | (made, .ok next) => followMaking made next names
    | (made, .error fault) => (made, .error fault)

/-- Makes the directory at a path and those above it. -/
def makeDirectories (fs : FileSystem) (path : String) :
    FileSystem × Except FileFault (List String) :=
  match fs.start path with
  | .error fault => (fs, .error fault)
  | .ok (origin, names) => fs.followMaking origin names

/-- Puts a directory at a place and at all places above it where nothing stands. -/
def makeDirectory (fs : FileSystem) (place : List String) : FileSystem :=
  (List.range (place.length + 1)).foldl (fun fs n =>
    match fs.node? (place.take n) with
    | some _ => fs
    | none => fs.put (place.take n) .directory) fs

end FileSystem

end CqlGlue.CommandLine
