import CaptureAudit.Ascending
import CaptureAudit.Text.Split

/-! The content of a disk: directories and files by the names that lead to them, and the working
directory from which relative paths start. -/

namespace CaptureAudit

inductive IoFault where
  | noSuchFile
  | notADirectory
  | isADirectory
  | nameTooLong
  | invalidText
  | nulInName
  | other (text : String)
  deriving DecidableEq, Repr

def IoFault.message : IoFault → String
  | .noSuchFile => "No such file or directory (os error 2)"
  | .notADirectory => "Not a directory (os error 20)"
  | .isADirectory => "Is a directory (os error 21)"
  | .nameTooLong => "File name too long (os error 36)"
  | .invalidText => "stream did not contain valid UTF-8"
  | .nulInName => "file name contained an unexpected NUL byte"
  | .other text => text

/-- The parts of a path between slashes. -/
def segments (path : String) : List String :=
  Text.split '/' path

/-- The path of `name` inside `dir`; an absolute name stays as it is. -/
def joinPath (dir name : String) : String :=
  if Text.beginsWith '/' name || dir.isEmpty then name
  else if Text.finishesWith '/' dir then dir ++ name
  else dir ++ "/" ++ name

/-- The names that lead from the root to a file or directory. -/
abbrev Location := List String

/-- Contents are compared byte by byte. -/
instance decEqContent : DecidableEq ByteArray := ByteArray.instDecidableEq

inductive Entry where
  | file (content : ByteArray)
  | directory
  deriving DecidableEq

/-- The root is always a directory. -/
structure Disk where
  entries : SortedMap Location Entry
  home : Location

namespace Disk

def entry? (d : Disk) (l : Location) : Option Entry :=
  if l = [] then some .directory else d.entries.get? l

/-- Follow the segments from a location, each of them standing in a directory. An empty segment
and a single dot stay where they are, two dots go up. -/
def follow (d : Disk) (l : Location) : List String → Except IoFault Location
  | [] => .ok l
  | s :: rest =>
    match d.entry? l with
    | none => .error .noSuchFile
    | some (.file _) => .error .notADirectory
    | some .directory =>
      if s = "" ∨ s = "." then d.follow l rest
      else if s = ".." then d.follow l.dropLast rest
      else if 255 < s.utf8ByteSize then .error .nameTooLong
      else d.follow (l ++ [s]) rest

def start (d : Disk) (path : String) : Location :=
  if Text.beginsWith '/' path then [] else d.home

/-- What is wrong with a path whatever the disk holds. -/
def pathFault? (path : String) : Option IoFault :=
  if path.toList.contains '\x00' then some .nulInName
  else if path.isEmpty then some .noSuchFile
  else if 4096 ≤ path.utf8ByteSize then some .nameTooLong
  else none

/-- The location that a path names, whether anything is there or not. -/
def locate (d : Disk) (path : String) : Except IoFault Location :=
  match pathFault? path with
  | some fault => .error fault
  | none => d.follow (d.start path) (segments path)

def read (d : Disk) (path : String) : Except IoFault ByteArray := do
  let l ← d.locate path
  match d.entry? l with
  | none => .error .noSuchFile
  | some .directory => .error .isADirectory
  | some (.file content) => .ok content

def isFile (d : Disk) (path : String) : Bool :=
  match d.read path with
  | .ok _ => true
  | .error _ => false

def put (d : Disk) (l : Location) (e : Entry) : Disk :=
  { d with entries := d.entries.insert l e }

/-- Write a file. Its directory has to be there, and the path may not end with a slash, whatever
name stands before it. -/
def write (d : Disk) (path : String) (content : ByteArray) : Except IoFault Disk :=
  match pathFault? path with
  | some fault => .error fault
  | none => do
    let named := (segments path).reverse.dropWhile (·.isEmpty)
    let directory ← d.follow (d.start path) ((named.drop 1).reverse ++ ["."])
    if Text.finishesWith '/' path then .error .isADirectory
    else
      let l ← d.follow directory (named.take 1)
      match d.entry? l with
      | some .directory => .error .isADirectory
      | _ => .ok (d.put l (.file content))

def addDirectory (d : Disk) (l : Location) : Disk :=
  (List.range l.length).foldl (fun d n => d.put (l.take (n + 1)) .directory) d

/-- Put a file at a location, making the directories above it. -/
def addFile (d : Disk) (l : Location) (content : ByteArray) : Disk :=
  (d.addDirectory l.dropLast).put l (.file content)

def homePath (d : Disk) : String :=
  "/" ++ String.intercalate "/" d.home

def ofHome (home : Location) : Disk :=
  Disk.addDirectory ⟨.empty, home⟩ home

end Disk

end CaptureAudit
