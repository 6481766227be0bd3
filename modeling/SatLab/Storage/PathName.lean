/-!
Names of files: the parts of a path, and what is read off them.

Empty parts and single dots mean nothing and are dropped. Exactly two slashes at the start are a
root of their own.
-/

namespace SatLab

/-- A text cut at its slashes. -/
def slashParts (path : String) : List String := (path.toList.splitOn '/').map String.ofList

structure PathName where
  /-- Nothing, one slash or two slashes. -/
  root : String
  parts : List String
deriving DecidableEq

namespace PathName

def rootOf (path : String) : String :=
  let slashes := (path.toList.takeWhile (· == '/')).length
  if slashes = 0 then "" else if slashes = 2 then "//" else "/"

def ofString (path : String) : PathName :=
  { root := rootOf path,
    parts := (slashParts path).filter fun part => part != "" && part != "." }

/-- The path as it is written; a path without parts is the current directory. -/
def text (p : PathName) : String :=
  if p.root.isEmpty && p.parts.isEmpty then "." else p.root ++ "/".intercalate p.parts

/-- The last part. -/
def name (p : PathName) : String := p.parts.getLast?.getD ""

/-- The name of the directory that holds the file. -/
def folder (p : PathName) : String := p.parts.dropLast.getLast?.getD ""

/-- The suffix of a name: its last dot and what follows, if there is text on both sides. -/
def suffixOf (name : List Char) : List Char :=
  let after := (name.reverse.takeWhile (· != '.')).reverse
  if after.isEmpty || name.length ≤ after.length + 1 then [] else '.' :: after

def suffix (p : PathName) : String := String.ofList (suffixOf p.name.toList)

end PathName

end SatLab
