/-!
Files named by paths. A path is walked name by name from the folder that a command works in:
empty names and single points stay where they are, double points go out, and every other name
must be that of a folder, except that the last one may be that of a file. Of what lies outside
the working folder only the null device is known.
-/

set_option autoImplicit false

namespace LispMachine

/-- Why a file cannot be read. -/
inductive ReadError where
  | missing
  | directory
  /-- The path goes on after a file. -/
  | notDirectory
  | nameTooLong
  | notText
  deriving DecidableEq

/-- The reason in words. -/
def ReadError.message : ReadError → String
  | .missing => "No such file or directory (os error 2)"
  | .directory => "Is a directory (os error 21)"
  | .notDirectory => "Not a directory (os error 20)"
  | .nameTooLong => "File name too long (os error 36)"
  | .notText => "stream did not contain valid UTF-8"

/-- The files of a folder with their texts. A file is named by its path from the folder. -/
structure Folder where
  files : List (List String × String)

namespace Folder

/-- The bytes that a single name may have. -/
def maxNameBytes : Nat := 255

/-- The bytes that a path may have. -/
def maxPathBytes : Nat := 4095

/-- A place on the walk: in the working folder, or in one inside it, or outside. -/
inductive Place where
  | inside (names : List String)
  | outside

/-- The folder that holds a place. -/
def Place.parent : Place → Place
  | .inside [] | .outside => .outside
  | .inside names => .inside names.dropLast

/-- The text of the file with a path, if it is one. -/
def file? (folder : Folder) (path : List String) : Option String := folder.files.lookup path

/-- Whether some file lies in the folder with a path. -/
def hasFolder (folder : Folder) (path : List String) : Bool :=
  folder.files.any fun file => path.isPrefixOf file.1 && path.length < file.1.length

/-- Walk the rest of a path from a place. -/
def walk (folder : Folder) : Place → List String → Except ReadError String
  | _, [] => .error .directory
  | place, name :: rest =>
    if name = "" ∨ name = "." then folder.walk place rest
    else if name = ".." then folder.walk place.parent rest
    else if maxNameBytes < name.utf8ByteSize then .error .nameTooLong
    else
      match place with
      | .outside => .error .missing
      | .inside names =>
        match folder.file? (names ++ [name]) with
        | some text => if rest.isEmpty then .ok text else .error .notDirectory
        | none =>
          if folder.hasFolder (names ++ [name]) then folder.walk (.inside (names ++ [name])) rest
          else .error .missing

/-- What reading the file with a path gives. -/
def read (folder : Folder) (path : String) : Except ReadError String :=
  if path.isEmpty then .error .missing
  else if maxPathBytes < path.utf8ByteSize then .error .nameTooLong
  else if path = "/dev/null" then .ok ""
  else if path.startsWith "/" then folder.walk .outside (path.splitOn "/")
  else folder.walk (.inside []) (path.splitOn "/")

/-- The folder with some files, each named by a path without points. -/
def ofFiles (files : List (String × String)) : Folder :=
  ⟨files.map fun file => (file.1.splitOn "/", file.2)⟩

end Folder

end LispMachine
