import Lox.Files
import Lox.Text.Utf8
import Lox.Toml.Document

/-! The release number: that of the project file beside the program if there is one, else the
installed one. -/

namespace Lox

inductive ReleaseError where
  | notUtf8 (fault : Text.Utf8Fault)
  | notTable (found : Toml.Value)

namespace ReleaseError

def message : ReleaseError → String
  | .notUtf8 fault => fault.message
  | .notTable found => "'" ++ found.qualifiedTypeName ++ "' object has no attribute 'get'"

end ReleaseError

namespace Release

/-- The name under which the program is released. -/
def product : String := "loxpy"

/-- The version of this release. -/
def current : String := "0.1.0"

def projectFile : Path := ⟨"", ["pyproject.toml"]⟩

def unknown : String := "0.0.0"

/-- The version that a project document gives the program. -/
def ofDocument (document : Toml.Table) : Except ReleaseError (Option String) :=
  match document.get? "project" with
  | none => .ok none
  | some (.table project) =>
    match Toml.Table.get? project "name", Toml.Table.get? project "version" with
    | some (.string name), some (.string version) =>
      .ok (if name = product then some version else none)
    | _, _ => .ok none
  | some found => .error (.notTable found)

/-- The version in the project file; a malformed file gives none. -/
def checkout (files : Files) : Except ReleaseError (Option String) :=
  match files.get? projectFile with
  | some (.file bytes) =>
    match Text.decodeUtf8 bytes with
    | .error fault => .error (.notUtf8 fault)
    | .ok text =>
      match Toml.parse? text with
      | none => .ok none
      | some document => ofDocument document
  | _ => .ok none

/-- The version to show; an empty one in the project file does not count. -/
def version (files : Files) (installed : Option String) : Except ReleaseError String := do
  match ← checkout files with
  | some version => if version = "" then return installed.getD unknown else return version
  | none => return installed.getD unknown

end Release

end Lox
