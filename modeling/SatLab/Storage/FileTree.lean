import Std.Data.ExtTreeMap
import SatLab.Storage.PathName
import SatLab.Text.Quoted

/-!
A tree of files below a directory, as a value.

An entry is stored under the parts of its path joined by slashes, so the entries are in the order
of their paths. Paths are followed from part to part as a file system does it: every part before
another one has to be a directory.

The tree ends at its directory. Paths that start with a slash, and paths that lead out of the
directory by double dots, come to places the tree knows nothing of: there counts as empty, nothing
can be read, and nothing can be written. What is said of every path is said with this boundary.
-/

namespace SatLab

/-- Why a path cannot be used. -/
inductive AccessProblem where
  | missing
  | notDirectory
  | isDirectory
  | present
  | nameTooLong
  /-- The path has a character no path can have. -/
  | nullCharacter
deriving DecidableEq

structure AccessFault where
  problem : AccessProblem
  path : String
deriving DecidableEq

namespace AccessFault

def message (e : AccessFault) : String :=
  match e.problem with
  | .missing => "[Errno 2] No such file or directory: " ++ quoted e.path
  | .notDirectory => "[Errno 20] Not a directory: " ++ quoted e.path
  | .isDirectory => "[Errno 21] Is a directory: " ++ quoted e.path
  | .present => "[Errno 17] File exists: " ++ quoted e.path
  | .nameTooLong => "[Errno 36] File name too long: " ++ quoted e.path
  | .nullCharacter => "embedded null byte"

end AccessFault

inductive FileEntry where
  | directory
  | file (content : List UInt8)
deriving DecidableEq

/-- The entries below a directory by their paths. -/
abbrev FileTree := Std.ExtTreeMap String FileEntry compare

namespace FileTree

/-- A place in the tree: the parts that lead there, or none outside. -/
abbrev Place := Option (List String)

/-- Where following a path ends. -/
inductive Target where
  | found (place : Place) (entry : FileEntry)
  /-- The directory is there, but it has no such entry. -/
  | vacant (parts : List String)

def key (parts : List String) : String := "/".intercalate parts

/-- The entry at a place. The directory itself is always there. -/
def entryAt (t : FileTree) (parts : List String) : Option FileEntry :=
  if parts.isEmpty then some .directory else t[key parts]?

/-- The longest name of a file, in bytes. -/
def nameLimit : Nat := 255

/-- The longest path, in bytes. -/
def pathLimit : Nat := 4095

/-- Follows the rest of a path from a place. -/
def follow (t : FileTree) (place : Place) (entry : FileEntry) :
    List String → Except AccessProblem Target
  | [] => .ok (.found place entry)
  | part :: rest =>
    match entry with
    | .file _ => .error .notDirectory
    | .directory =>
      if part = "" ∨ part = "." then follow t place .directory rest
      else if nameLimit < part.utf8ByteSize then .error .nameTooLong
      else
        match place with
        | none => if part = ".." then follow t none .directory rest else .error .missing
        | some parts =>
          if part = ".." then
            follow t (if parts.isEmpty then none else some parts.dropLast) .directory rest
          else
            let next := parts ++ [part]
            match t.entryAt next with
            | some found => follow t (some next) found rest
            | none => if rest.isEmpty then .ok (.vacant next) else .error .missing

/-- Follows a path from the directory. A path that starts with a slash starts outside of it, where
there is nothing but what is above. -/
def resolve (t : FileTree) (path : String) : Except AccessProblem Target :=
  if path.contains '\x00' then .error .nullCharacter
  else if path.isEmpty then .error .missing
  else if pathLimit < path.utf8ByteSize then .error .nameTooLong
  else
    let start : Place := if path.startsWith "/" then none else some []
    follow t start .directory (slashParts path)

/-- Whether a path leads to an entry. -/
def present (t : FileTree) (path : String) : Bool :=
  match t.resolve path with
  | .ok (.found ..) => true
  | _ => false

/-- Whether a path leads to a directory. -/
def isDirectory (t : FileTree) (path : String) : Bool :=
  match t.resolve path with
  | .ok (.found _ .directory) => true
  | _ => false

def read (t : FileTree) (path : String) : Except AccessFault (List UInt8) :=
  match t.resolve path with
  | .error problem => .error { problem, path }
  | .ok (.vacant _) => .error { problem := .missing, path }
  | .ok (.found _ .directory) => .error { problem := .isDirectory, path }
  | .ok (.found _ (.file content)) => .ok content

/-- Writes a file in a directory that is there. -/
def write (t : FileTree) (path : String) (content : List UInt8) : Except AccessFault FileTree :=
  match t.resolve path with
  | .error problem => .error { problem, path }
  | .ok (.vacant parts) => .ok (t.insert (key parts) (.file content))
  | .ok (.found _ .directory) => .error { problem := .isDirectory, path }
  | .ok (.found none (.file _)) => .error { problem := .missing, path }
  | .ok (.found (some parts) (.file _)) => .ok (t.insert (key parts) (.file content))

/-- Removes a file. -/
def remove (t : FileTree) (path : String) : Except AccessFault FileTree :=
  match t.resolve path with
  | .error problem => .error { problem, path }
  | .ok (.vacant _) => .error { problem := .missing, path }
  | .ok (.found _ .directory) => .error { problem := .isDirectory, path }
  | .ok (.found none (.file _)) => .error { problem := .missing, path }
  | .ok (.found (some parts) (.file _)) => .ok (t.erase (key parts))

/-- A path without the slashes at its end, unless there is nothing else. -/
def withoutLastSlashes (path : String) : String :=
  let parts := path.toList.reverse.dropWhile (· == '/')
  if parts.isEmpty then path else String.ofList parts.reverse

/-- Makes one directory unless it is there. -/
def makeDirectory (t : FileTree) (path : String) : Except AccessFault FileTree :=
  match t.resolve (withoutLastSlashes path) with
  | .error problem => .error { problem, path }
  | .ok (.vacant parts) => .ok (t.insert (key parts) .directory)
  | .ok (.found _ .directory) => .ok t
  | .ok (.found _ (.file _)) => .error { problem := .present, path }

/-- The parts before the last one that is not empty, joined again. -/
def parentPath (path : String) : String :=
  String.ofList
    (((path.toList.reverse.dropWhile (· == '/')).dropWhile (· != '/')).dropWhile
      (· == '/')).reverse

/-- Whether the last part of a path stays where it is. -/
def endsInDot (path : String) : Bool :=
  (path.toList.reverse.dropWhile (· == '/')).takeWhile (· != '/') = ['.']

/-- The directories to make for a path, the outermost one first. Below a directory that is made, a
part that stays there needs nothing. -/
def toMake (t : FileTree) (path : String) : Nat → List String
  | 0 => [path]
  | depth + 1 =>
    let parent := parentPath path
    if parent.isEmpty || t.present parent then [path]
    else toMake t parent depth ++ (if endsInDot path then [] else [path])

/-- Makes one of the directories for a path. A file in the place of one that is not the last is
left to the next ones. -/
def makeNext (path : String) (t : FileTree) (next : String) : Except AccessFault FileTree :=
  match t.makeDirectory next with
  | .error fault => if fault.problem = .present ∧ next ≠ path then .ok t else .error fault
  | made => made

/-- Makes a directory and the directories above it, unless they are there. -/
def makeDirectories (t : FileTree) (path : String) : Except AccessFault FileTree :=
  (t.toMake path path.length).foldlM (makeNext path) t

/-- The paths of all entries, in order. -/
def paths (t : FileTree) : List String := t.keys

end FileTree

end SatLab
