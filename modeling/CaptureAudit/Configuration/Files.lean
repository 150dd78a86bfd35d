import CaptureAudit.Configuration.Document
import CaptureAudit.Configuration.Environment
import CaptureAudit.Disk.Session

/-! The configuration of a run: a file, over which the environment comes. A file that is named has
to be there; without a name the default file is used when there is one. -/

namespace CaptureAudit.Configuration

def defaultFile : String := "audit.toml"

structure Found where
  path : String
  format : Format

/-- The segments of a path without those at its end that stay where they are. -/
def namedSegments (path : String) : List String :=
  ((segments path).reverse.dropWhile fun s => s = "" || s = ".").reverse

/-- The name that a path ends with, unless it ends by going up. -/
def fileName? (path : String) : Option String :=
  (namedSegments path).getLast?.filter (· ≠ "..")

/-- A name without its extension, and the extension, which stands after the last point. A point at
the start of a name begins no extension. -/
def splitExtension (name : String) : String × Option String :=
  match name.toList.reverse.span (· ≠ '.') with
  | (ending, _ :: c :: stem) =>
    (String.ofList (c :: stem).reverse, some (String.ofList ending.reverse))
  | _ => (name, none)

def extension? (path : String) : Option String :=
  (fileName? path).bind fun name => (splitExtension name).2

/-- Give the name that a path ends with an extension in place of its own. -/
def withExtension (path extension : String) : String :=
  match fileName? path with
  | some name =>
    let name := (splitExtension name).1 ++ "." ++ extension
    String.intercalate "/" ((namedSegments path).dropLast ++ [name])
  | none => path

/-- Extend a path. An extension that it has already is kept: another one, to be replaced, is first
put after the path as it is written. -/
def extended (path : String) (format : Format) : String :=
  withExtension (if (extension? path).isSome then path ++ ".placeholder" else path)
    format.extension

/-- The first of the formats for which there is a file of that extension. -/
def findExtended (path : String) : List Format → Session (Option Found)
  | [] => pure none
  | format :: rest => do
    let path' := extended path format
    if ← Session.fileExists path' then pure (some ⟨path', format⟩) else findExtended path rest

/-- Find a file by its name, or by its name without the extension. -/
def locate (home name : String) : Session (Except String Found) := do
  let path := joinPath home name
  if ← Session.fileExists path then
    match Format.all.find? fun format => some format.extension == extension? path with
    | some format => pure (.ok ⟨path, format⟩)
    | none =>
      pure (.error s!"configuration file \"{path}\" is not of a supported file format")
  else
    match ← findExtended path Format.all with
    | some found => pure (.ok found)
    | none => pure (.error s!"configuration file \"{name}\" not found")

/-- The way from one place to another; both are given by the names that lead there from the root. -/
def wayFrom : List String → List String → List String
  | b :: base, t :: target =>
    if b = t then wayFrom base target else List.replicate (base.length + 1) ".." ++ t :: target
  | base, target => List.replicate base.length ".." ++ target

def steps (path : String) : List String :=
  (segments path).filter fun s => s ≠ "" && s ≠ "."

def relativePath (home path : String) : String :=
  String.intercalate "/" (wayFrom (steps home) (steps path))

/-- A mark that may stand before the first character of a document. -/
def byteOrderMark : List UInt8 := [0xef, 0xbb, 0xbf]

def contentOf (bytes : ByteArray) : List Char :=
  let all := bytes.data.toList
  Text.replaceStray (if all.take 3 = byteOrderMark then all.drop 3 else all)

def readFound (home : String) (found : Found) :
    Session (Except String (List (String × Setting))) := do
  match ← Session.readFile found.path with
  | .error fault => pure (.error fault.message)
  | .ok bytes =>
    let source := relativePath home found.path
    pure ((found.format.read (some source) (contentOf bytes)).mapError fun reason =>
      s!"{reason} in {source}")

def fileEntries (name : Option String) : Session (Except String (List (String × Setting))) := do
  let home ← Session.workingDirectory
  match name, ← locate home (name.getD defaultFile) with
  | _, .ok found => readFound home found
  | some _, .error reason => pure (.error reason)
  | none, .error _ => pure (.ok [])

/-- Read the configuration. An error is given as messages from the outermost to its root. -/
def load (name : Option String) (environment : List (String × String)) :
    Session (Except (List String) Configuration) := do
  match ← fileEntries name with
  | .error reason => pure (.error ["failed to read configuration", reason])
  | .ok entries => pure (.ok (ofEntries (entries ++ Environment.entries environment)))

end CaptureAudit.Configuration
