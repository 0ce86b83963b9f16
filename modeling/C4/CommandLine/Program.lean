import C4.CommandLine.Options
import C4.Dsl.Delivery
import C4.Sample.Catalog
import C4.Theme.Report

/-!
# The program

The program reads at most one file and writes at most one. What it does is a value: it has
come to an end, or it waits for a file to be read or written and says how it goes on then.
-/
namespace C4.CommandLine

structure Verdict where
  code : Nat
  output : String
  complaint : String
  notes : List Record
deriving DecidableEq

inductive WriteFailure
  | create (reason : String)
  | write (reason : String)
deriving DecidableEq

def noSuchFile : String := "No such file or directory (os error 2)"

def noSuchDevice : String := "No such device or address (os error 6)"

def notADirectory : String := "Not a directory (os error 20)"

def isADirectory : String := "Is a directory (os error 21)"

def permissionDenied : String := "Permission denied (os error 13)"

def noSpace : String := "No space left on device (os error 28)"

def nameTooLong : String := "File name too long (os error 36)"

inductive Program
  | done (verdict : Verdict)
  | read (path : String) (next : Except String ByteArray → Program)
  | write (path content : String) (next : Except WriteFailure Unit → Program)

def usage : String :=
  "Render C4 architecture workspaces as Structurizr DSL\n\n" ++
  "Usage: c4 [OPTIONS]\n\n" ++
  "Options:\n" ++
  "  -d, --demo <DEMO>            Demo workspace to render [default: getting-started]\n" ++
  "  -t, --theme <THEME>          Theme file whose styles are appended (TOML format)\n" ++
  "      --default-theme          Append the built-in C4 theme\n" ++
  "  -o, --output <OUTPUT>        Output file (writes to stdout if not provided)\n" ++
  "  -i, --indent <INDENT>        Spaces per nesting level [default: 4]\n" ++
  "      --spacing                Blank line between model sections and between views\n" ++
  "      --log-level <LOG_LEVEL>  Log level (off, error, warn, info, debug, trace) " ++
  "[default: warn]\n" ++
  "  -l, --list                   List demo names and exit\n" ++
  "  -h, --help                   Print help\n"

structure Context where
  options : Options
  threshold : Threshold
  complaint : String
  notes : List Record

namespace Context

def start (o : Options) : Context :=
  match Threshold.ofName? o.logLevel with
  | some t => ⟨o, t, "", []⟩
  | none =>
    ⟨o, some .warn, "Invalid log level: " ++ o.logLevel ++ ". Using 'warn' instead.\n", []⟩

def log (c : Context) (records : List Record) : Context :=
  { c with notes := c.notes ++ records }

def finish (c : Context) (code : Nat) (output complaint : String) : Program :=
  .done ⟨code, output, c.complaint ++ complaint, c.notes.filter fun r => c.threshold.admits r.level⟩

def fail (c : Context) (complaint : String) : Program := c.finish 1 "" complaint

def renderedRecord (c : Context) : Record :=
  ⟨.info, "Rendered workspace", [("demo", c.options.sample)]⟩

def succeed (c : Context) (output : String) : Program :=
  (c.log [c.renderedRecord]).finish 0 output ""

def errorLine (message : String) : String := "Error: " ++ message ++ "\n"

/-- The file comes into being before it turns out whether there is a text for it. -/
def deliver (c : Context) (w : Workspace) : Program :=
  let d := w.render ⟨c.options.indent, c.options.spacing⟩
  let c := c.log d.notes
  match c.options.output with
  | none =>
    match d.result with
    | .ok text => c.succeed text
    | .error e => c.fail (errorLine e.message)
  | some path =>
    .write path (d.result.toOption.getD "") fun written =>
      match written, d.result with
      | .error (.create reason), _ =>
        c.fail ("Error creating '" ++ path ++ "': " ++ reason ++ "\n")
      | _, .error e => c.fail (errorLine e.message)
      | .error (.write reason), _ => c.fail (errorLine (Dsl.RenderError.output reason).message)
      | .ok _, .ok _ => c.succeed ""

def apply (c : Context) (t : Theme) (w : Workspace) : Context × Workspace :=
  (c.log [t.record], { w with views := { w.views with styles := t.apply w.views.styles } })

def failToRead (c : Context) (path reason : String) : Program :=
  c.fail ("Error reading theme '" ++ path ++ "': " ++ reason ++ "\n")

def withTheme (c : Context) (w : Workspace) : Program :=
  match c.options.theme with
  | none => c.deliver w
  | some path =>
    .read path fun content =>
      match content with
      | .error reason => c.failToRead path reason
      | .ok bytes =>
        match Theme.ofBytes bytes with
        | .error (.unreadable reason) => c.failToRead path reason
        | .error trouble => c.fail (trouble.report path)
        | .ok theme =>
          let (c, w) := c.apply theme w
          c.deliver w

def render (c : Context) : Program :=
  match Sample.byName? c.options.sample with
  | none =>
    c.fail ("Unknown demo '" ++ c.options.sample ++ "'. Available: " ++
      String.intercalate ", " Sample.names ++ "\n")
  | some (.error e) =>
    c.fail ("Error building demo '" ++ c.options.sample ++ "': " ++ e.message ++ "\n")
  | some (.ok w) =>
    if c.options.defaultTheme then
      let (c, w) := c.apply .standard w
      c.withTheme w
    else c.withTheme w

end Context

def program (arguments : List String) : Program :=
  match request arguments with
  | .error m => .done ⟨2, "", "error: " ++ m.message ++ "\n", []⟩
  | .ok none => .done ⟨0, usage, "", []⟩
  | .ok (some o) =>
    let c := Context.start o
    if o.list then c.finish 0 (String.join (Sample.names.map (· ++ "\n"))) ""
    else c.render

end C4.CommandLine
