import C4.Diagnostic.Excerpt
import C4.Diagnostic.Frame
import C4.Theme.Document

/-!
# Reporting themes that can not be used
-/
namespace C4.Theme

/-- What the reader of TOML says of a text that is none: the bytes at which it gave up, and what is
the matter with them. -/
structure Complaint where
  span : Span
  text : String
deriving DecidableEq

inductive Trouble
  | unreadable (reason : String)
  /-- The text is no TOML. -/
  | malformed {source : String} {complaint : Complaint}
  | faulty (source : String) (fault : Fault)
deriving DecidableEq

/-- The theme of a text. What is said of a text that is no TOML is up to whoever reads the TOML. -/
def ofTextBy (explain : String → Complaint) (source : String) : Except Trouble Theme :=
  match Toml.parse source with
  | none => .error (@Trouble.malformed source (explain source))
  | some t => (ofTable t).mapError (.faulty source)

/-- The reader of this library gives no reasons: it lays the blame on the whole text. -/
def unexplained (source : String) : Complaint := ⟨⟨0, source.utf8ByteSize⟩, "invalid TOML"⟩

def ofText (source : String) : Except Trouble Theme := ofTextBy unexplained source

def ofBytes (bytes : ByteArray) : Except Trouble Theme :=
  match String.fromUTF8? bytes with
  | some source => ofText source
  | none => .error (.unreadable "stream did not contain valid UTF-8")

namespace Trouble

def diagnostic? : Trouble → Option Diagnostic
  | unreadable _ => none
  | @malformed source complaint => some ⟨source, complaint.span, complaint.text⟩
  | faulty source fault => some ⟨source, fault.span, fault.cause.message⟩

def parsing (d : Diagnostic) : String := "Failed to parse theme TOML: " ++ d.excerpt

def message : Trouble → String
  | unreadable reason => "Failed to read theme file: " ++ reason
  | @malformed source complaint => parsing ⟨source, complaint.span, complaint.text⟩
  | faulty source fault => parsing ⟨source, fault.span, fault.cause.message⟩

def report (file : String) (t : Trouble) : String :=
  match t.diagnostic? with
  | none => t.message
  | some d => d.frame file

end Trouble

end C4.Theme
