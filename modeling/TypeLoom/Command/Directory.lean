/-
**A working directory.**

The files of a working directory by path. A path is walked part by part: a part may stay where it
is, go up, or name a file or a directory, and only a directory can be walked through. Paths that
lead above the working directory start with `..`, and paths from the root of all directories with
`/`.
-/

import TypeLoom.Failure

namespace TypeLoom

/-- A path from the working directory, part by part. -/
abbrev Path := List String

/-- Files by path; a directory is there when a file lies in it. -/
structure Directory where
  files : List (Path × ByteArray) := []

namespace FileFailure

/-- Nothing has the name. -/
def missing : FileFailure :=
  ⟨.notFound, "No such file or directory (os error 2)"⟩

/-- A directory stands where a file is wanted. -/
def directory : FileFailure :=
  ⟨.isADirectory, "Is a directory (os error 21)"⟩

/-- A file stands where a directory is wanted. -/
def noDirectory : FileFailure :=
  ⟨.notADirectory, "Not a directory (os error 20)"⟩

/-- The name holds a character that no name can hold. -/
def badName : FileFailure :=
  ⟨.invalidInput, "file name contained an unexpected NUL byte"⟩

/-- The content of the file is no text. -/
def notText : FileFailure :=
  ⟨.invalidData, "stream did not contain valid UTF-8"⟩

end FileFailure

/-- Where a walk through a directory has arrived. -/
inductive Place where
  /-- In a directory, given by its path. -/
  | inside (path : Path)
  /-- At a file. -/
  | file (path : Path)
  /-- At a name in a directory that nothing has. -/
  | absent (path : Path)
  deriving Repr, DecidableEq, Inhabited

/-- The directory above another one. -/
def Path.above (path : Path) : Path :=
  match path.getLast? with
  | none | some ".." => path ++ [".."]
  | some "/" => path
  | some _ => path.dropLast

/-- The directory where a walk along a path starts. -/
def Path.start (path : String) : Path :=
  if path.startsWith "/" then ["/"] else []

/-- One part further along a path. -/
def Path.step (path : Path) (part : String) : Path :=
  if part == "" || part == "." then path
  else if part == ".." then path.above
  else path ++ [part]

/-- The path that a text names when everything on the way is a directory. -/
def Path.ofText (path : String) : Path :=
  (path.splitOn "/").foldl Path.step (Path.start path)

namespace Directory

/-- The content of the file with exactly the given path. -/
def content? (d : Directory) (path : Path) : Option ByteArray :=
  d.files.lookup path

/-- A directory has the given path. -/
def hasDirectory (d : Directory) (path : Path) : Bool :=
  path.isEmpty || d.files.any fun file => path.isPrefixOf file.1 && file.1 != path

/-- What has the given path. -/
def placeOf (d : Directory) (path : Path) : Place :=
  if (d.content? path).isSome then .file path
  else if d.hasDirectory path then .inside path
  else .absent path

/-- One step of a walk. -/
def walkStep (d : Directory) (place : Place) (part : String) : Except FileFailure Place :=
  match place with
  | .file _ => .error .noDirectory
  | .absent _ => if part == "" then .ok place else .error .missing
  | .inside path =>
    if part == "" || part == "." || part == ".." then .ok (.inside (path.step part))
    else .ok (d.placeOf (path.step part))

/-- Walk to the place that a text names. -/
def resolve (d : Directory) (path : String) : Except FileFailure Place :=
  if path == "" then .error .missing
  else if path.toList.contains '\x00' then .error .badName
  else (path.splitOn "/").foldlM d.walkStep (.inside (Path.start path))

/-- The text of a file. -/
def read (d : Directory) (path : String) : Except FileFailure String := do
  match ← d.resolve path with
  | .file path =>
    match (d.content? path).bind String.fromUTF8? with
    | some text => return text
    | none => throw .notText
  | .inside _ => throw .directory
  | .absent _ => throw .missing

/-- A file has the given path. -/
def isFile (d : Directory) (path : String) : Bool :=
  match d.resolve path with
  | .ok (.file _) => true
  | _ => false

/-- The directory with one more file, or with another content of a file. -/
def store (d : Directory) (path : Path) (content : ByteArray) : Directory :=
  ⟨(path, content) :: d.files.filter fun file => file.1 != path⟩

/-- Write a text into a file, which need not be there; a name with a slash at its end is that of a
directory. -/
def write (d : Directory) (path : String) (text : String) : Except FileFailure Directory := do
  match ← d.resolve path with
  | .file place => return d.store place text.toUTF8
  | .absent place =>
    if path.endsWith "/" then throw .directory
    return d.store place text.toUTF8
  | .inside _ => throw .directory

end Directory

end TypeLoom
