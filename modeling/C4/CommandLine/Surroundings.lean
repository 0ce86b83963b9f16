import C4.CommandLine.Program

/-!
# Surroundings

What there is around a folder: a few directories in which nothing can be read, and the names
under which the streams of a program and some devices can be used as files.
-/
namespace C4.CommandLine

abbrev Location := List String

def steps (path : String) : List String := (path.splitOn "/").filter (· ≠ "")

/-- A name has at most 255 bytes. Among the processes a longer one is just not found. -/
def Location.isNameable (l : Location) : Bool :=
  l.head? = some "proc" || l.getLast?.all fun name => name.utf8ByteSize ≤ 255

def pathLimit : Nat := 4096

def streams : Location := ["proc", "self", "fd"]

def links : List (Location × Location) :=
  [(["dev", "fd"], streams), (["dev", "stdin"], streams ++ ["0"]),
    (["dev", "stdout"], streams ++ ["1"]), (["dev", "stderr"], streams ++ ["2"])]

def Location.move (l : Location) (step : String) : Location :=
  if step = "." then l
  else if step = ".." then l.dropLast
  else (links.lookup (l ++ [step])).getD (l ++ [step])

def directories : List Location :=
  [[]] ++
  ["bin", "boot", "dev", "etc", "home", "lib", "media", "mnt", "opt", "proc", "root", "run",
    "sbin", "srv", "sys", "tmp", "usr", "var"].map (fun name => [name]) ++
  [["dev", "pts"], ["dev", "shm"], ["proc", "self"], streams]

inductive Device
  /-- Takes everything and keeps nothing. -/
  | sink
  | full
  | terminal
  | output
  | complaint
deriving DecidableEq

def devices : List (Location × Device) :=
  [(["dev", "null"], .sink), (["dev", "zero"], .sink), (["dev", "random"], .sink),
    (["dev", "urandom"], .sink), (["dev", "full"], .full), (["dev", "tty"], .terminal),
    (streams ++ ["0"], .sink), (streams ++ ["1"], .output), (streams ++ ["2"], .complaint)]

def refusal? : Location → Option String
  | "proc" :: _ => some noSuchFile
  | "sys" :: _ => some permissionDenied
  | _ => none

/-- What a stream carries is found in the verdict. After a text was written nothing more is said. -/
def Device.show (d : Device) (content : String) (v : Verdict) : Verdict :=
  match d with
  | .output => { v with output := content ++ v.output }
  | .complaint => { v with complaint := v.complaint ++ content }
  | _ => v

end C4.CommandLine
