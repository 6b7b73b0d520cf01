/-! Paths and the files of a working directory. -/

namespace Lox

/-- A path in normal form: `root` is empty, `/` or `//`, and no part is empty or a point. -/
structure Path where
  root : String
  parts : List String
  deriving DecidableEq, Repr

namespace Path

def ofText (text : String) : Path :=
  let parts := (text.splitOn "/").filter fun part => part ≠ "" ∧ part ≠ "."
  let slashes := (text.toList.takeWhile (· = '/')).length
  ⟨if slashes = 0 then "" else if slashes = 2 then "//" else "/", parts⟩

def text (path : Path) : String :=
  if path.root = "" ∧ path.parts = [] then "." else path.root ++ "/".intercalate path.parts

end Path

/-- What a path leads to. -/
inductive Entry where
  | file (bytes : List UInt8)
  | directory
  deriving DecidableEq, Repr

/-- A view of the files there are. -/
structure Files where
  get? : Path → Option Entry

/-- The files below a working directory; they imply the directories they are in. -/
structure Directory where
  contents : List (List String × List UInt8) := []
  deriving DecidableEq, Repr

namespace Directory

def ofTexts (files : List (String × List UInt8)) : Directory :=
  ⟨files.map fun (name, bytes) => ((Path.ofText name).parts, bytes)⟩

def holdsDirectory (directory : Directory) (parts : List String) : Bool :=
  parts.isEmpty || directory.contents.any fun (file, _) => parts.isPrefixOf file && parts ≠ file

def at? (directory : Directory) (parts : List String) : Option Entry :=
  match directory.contents.lookup parts with
  | some bytes => some (.file bytes)
  | none => if directory.holdsDirectory parts then some .directory else none

/-- Follows the parts of a path from a place below the working directory, given by its parts
from the last to the first, or from one above it. -/
def follow (directory : Directory) : Option (List String) → List String → Option Entry
  | none, [] => some .directory
  | none, part :: rest => if part = ".." then directory.follow none rest else none
  | some here, [] => directory.at? here.reverse
  | some here, part :: rest =>
    if directory.at? here.reverse ≠ some .directory then none
    else if part = ".." then
      match here with
      | [] => directory.follow none rest
      | _ :: above => directory.follow (some above) rest
    else directory.follow (some (part :: here)) rest

/-- What a path leads to. Of directories outside the working directory nothing is known but
that those above it are there. -/
def get? (directory : Directory) (path : Path) : Option Entry :=
  if path.root = "" then directory.follow (some []) path.parts
  else if path.parts = [] then some .directory
  else none

def files (directory : Directory) : Files := ⟨directory.get?⟩

end Directory

end Lox
