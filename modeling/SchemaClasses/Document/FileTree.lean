import SchemaClasses.Document.Basic

/-!
# Files as a value

A `FileTree` holds files and directories by their absolute paths, and the directory that relative
paths start from. A path is followed one segment at a time: each segment but the last has to lead
to a directory, a dot stays where it is, and two dots lead one directory up.

Files are read and written only by paths of less than 4096 bytes, and no file has a name of more
than 255 bytes.
-/

namespace SchemaClasses

/-- A file or a directory. -/
inductive FileNode where
  /-- A file with its bytes. -/
  | file (content : ByteArray)
  /-- A directory. -/
  | directory

/-- Files and directories by their absolute paths, apart from the root, which is always there. -/
structure FileTree where
  /-- What there is, by absolute path. -/
  nodes : List (List String × FileNode)
  /-- The directory that relative paths start from. -/
  workingDirectory : List String

namespace FileTree

/-- What is at an absolute path. -/
def node? (tree : FileTree) (path : List String) : Option FileNode :=
  if path.isEmpty then some .directory else Assoc.find? tree.nodes path

/-- Whether there is a directory at an absolute path. -/
def isDirectory (tree : FileTree) (path : List String) : Bool :=
  match tree.node? path with
  | some .directory => true
  | _ => false

/-- Follows one segment from a directory. -/
def step? (tree : FileTree) (path : List String) (segment : String) : Option (List String) :=
  if !tree.isDirectory path then none
  else if segment = "" ∨ segment = "." then some path
  else if segment = ".." then some path.dropLast
  else (tree.node? (path ++ [segment])).map fun _ => path ++ [segment]

/-- The segments of the text of a path, an absolute one beginning with an empty segment. -/
def splitPath (path : String) : List String :=
  (Text.splitAt '/' path.toList).map String.ofList

/-- Where the text of a path starts. -/
def start (tree : FileTree) (path : String) : List String :=
  if path.startsWith "/" then [] else tree.workingDirectory

/-- The absolute path of what is at a path, if anything is. -/
def absolute? (tree : FileTree) (path : String) : Option (List String) :=
  if path = "" then none else (splitPath path).foldlM tree.step? (tree.start path)

/-- Whether a path is short enough for its file to be read or written. -/
def isShort (path : String) : Bool :=
  path.utf8ByteSize < 4096

/-- Whether a file may have a name. -/
def isFileName (name : String) : Bool :=
  name ≠ "" && name ≠ "." && name ≠ ".." && name.utf8ByteSize ≤ 255

/-- What is at a path, which has to be a text as all names of files are. -/
def read (tree : FileTree) (path : FilePath) : PathContent :=
  match ((path.text?.filter isShort).bind tree.absolute?).bind tree.node? with
  | none => .missing
  | some .directory => .unreadable
  | some (.file content) => .bytes content

/-- The tree with a directory and all directories above it. -/
def addDirectory (tree : FileTree) (path : List String) : FileTree :=
  (List.range path.length).foldl (fun tree i =>
    let above := path.take (i + 1)
    if Assoc.contains tree.nodes above then tree
    else { tree with nodes := Assoc.insert tree.nodes above .directory }) tree

/-- The tree with a file and all directories above it. -/
def addFile (tree : FileTree) (path : List String) (content : ByteArray) : FileTree :=
  let tree := tree.addDirectory path.dropLast
  { tree with nodes := Assoc.insert tree.nodes path (.file content) }

/-- The tree after a text has been written to the file at a path. The directory of the file has to
be there, and no directory may be in the place of the file. -/
def write? (tree : FileTree) (path : String) (text : String) : Option FileTree := do
  let segments := splitPath path
  let name ← segments.getLast?
  let parent ← segments.dropLast.foldlM tree.step? (tree.start path)
  let target := parent ++ [name]
  if isShort path && isFileName name && tree.isDirectory parent && !tree.isDirectory target then
    return { tree with nodes := Assoc.insert tree.nodes target (.file text.toUTF8) }
  else none

/-- Access to the files of a tree that is the state of a computation. -/
def access : FileAccess (StateM FileTree) where
  absolute? path := do return (← get).absolute? path
  read path := do return (← get).read path
  write path text := do
    match (← get).write? path text with
    | some tree => set tree; return true
    | none => return false

end FileTree

end SchemaClasses
