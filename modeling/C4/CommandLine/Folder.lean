import C4.CommandLine.Surroundings

/-!
# Folders

A folder of files as a value, in which the program can be run. A path is followed name by name,
and each name but the last has to lead to a directory.
-/
namespace C4.CommandLine

/-- The files by their paths from the folder, without a slash in front. -/
structure Folder where
  files : List (String × ByteArray)

inductive Entry
  | directory
  | file (content : ByteArray)
  | device (d : Device)
  | absent

namespace Folder

def home : Location := ["tmp", "c4"]

def find? (f : Folder) (path : String) : Option ByteArray := f.files.lookup path

def locations (f : Folder) : List Location := f.files.map fun e => home ++ steps e.1

def hasDirectory (f : Folder) (l : Location) : Bool :=
  l = home || directories.contains l ||
    f.locations.any fun file => l.isPrefixOf file && l.length < file.length

def path? (l : Location) : Option String :=
  if home.isPrefixOf l then some (String.intercalate "/" (l.drop home.length)) else none

def entry (f : Folder) (l : Location) : Except String Entry :=
  if !l.isNameable then .error nameTooLong
  else if f.hasDirectory l then .ok .directory
  else
    match devices.lookup l, (path? l).bind f.find? with
    | some d, _ => .ok (.device d)
    | none, some content => .ok (.file content)
    | none, none => .ok .absent

def follow (f : Folder) : Location → List String → Except String Location
  | l, [] => .ok l
  | l, step :: rest => do
    match ← f.entry l with
    | .directory => f.follow (l.move step) rest
    | .absent => .error noSuchFile
    | _ => .error notADirectory

def locate (f : Folder) (path : String) : Except String Location :=
  if pathLimit ≤ path.utf8ByteSize then .error nameTooLong
  else f.follow (if path.startsWith "/" then [] else home) (steps path)

/-- Only a directory can have a slash behind its name. Nothing comes from a device. -/
def read (f : Folder) (path : String) : Except String ByteArray := do
  match ← f.entry (← f.locate path) with
  | .directory => .error isADirectory
  | .absent => .error noSuchFile
  | .file content => if path.endsWith "/" then .error notADirectory else .ok content
  | .device d =>
    if path.endsWith "/" then .error notADirectory
    else if d = .terminal then .error noSuchDevice
    else .ok .empty

def target (f : Folder) (path : String) : Except String (Location × Option Device) := do
  let l ← f.locate path
  if path.endsWith "/" then .error isADirectory
  else
    match ← f.entry l with
    | .directory => .error isADirectory
    | .file _ => .ok (l, none)
    | .device d => if d = .terminal then .error noSuchDevice else .ok (l, some d)
    | .absent =>
      match refusal? l with
      | some reason => .error reason
      | none => .ok (l, none)

/-- What is put outside of the folder is out of sight. -/
def put (f : Folder) (l : Location) (content : ByteArray) : Folder :=
  match path? l with
  | some path => ⟨f.files.filter (fun e => e.1 ≠ path) ++ [(path, content)]⟩
  | none => f

def changes (f before : Folder) : List (String × ByteArray) :=
  f.files.filter fun e => (before.find? e.1).map (·.data) ≠ some e.2.data

end Folder

def Program.runIn : Program → Folder → Verdict × Folder
  | .done verdict, f => (verdict, f)
  | .read path next, f => (next (f.read path)).runIn f
  | .write path content next, f =>
    match f.target path with
    | .error reason => (next (.error (.create reason))).runIn f
    | .ok (_, some .full) => (next (.error (.write noSpace))).runIn f
    | .ok (_, some d) =>
      let (v, f) := (next (.ok ())).runIn f
      (d.show content v, f)
    | .ok (l, none) => (next (.ok ())).runIn (f.put l content.toUTF8)

end C4.CommandLine
