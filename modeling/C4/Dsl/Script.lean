import C4.Dsl.Subject
import C4.Log

/-!
# Scripts

What a rendering is about to do, one thing after the other: the calls on the writer, each with
the entity that it is made for, and the log records. Opening a block and closing it are two
calls that may stand far apart. A reference that leads nowhere stands where its token would
have stood, and nothing behind it is done.
-/
namespace C4.Dsl

inductive Directive
  | line (text : String)
  | opening (header : String)
  | closing
  | gap
deriving DecidableEq

inductive Event
  | write (subject : Subject) (directive : Directive)
  | note (record : Record)
  | stop (error : RenderError)
deriving DecidableEq

abbrev Script := List Event

namespace Script

def line (subject : Subject) (text : String) : Script := [.write subject (.line text)]

def opening (subject : Subject) (header : String) : Script := [.write subject (.opening header)]

def closing (subject : Subject) : Script := [.write subject .closing]

def gap (subject : Subject) : Script := [.write subject .gap]

def note (record : Record) : Script := [.note record]

def stop (error : RenderError) : Script := [.stop error]

/-- A single line when there is nothing to nest. Whether there is, the caller has to know. -/
def entity (subject : Subject) (header : String) (hasBody : Bool) (body : Script) : Script :=
  if hasBody then opening subject header ++ body ++ closing subject else line subject header

def block (subject : Subject) (header : String) (body : Script) : Script :=
  entity subject header true body

def withToken (token : Except RenderError String) (draw : String → Script) : Script :=
  match token with
  | .error e => stop e
  | .ok t => draw t

end Script

structure Section where
  present : Bool
  script : Script

def Script.sections (separator : Script) : Bool → List Section → Script
  | _, [] => []
  | first, s :: rest =>
    if s.present then
      (if first then [] else separator) ++ s.script ++ sections separator false rest
    else sections separator first rest

end C4.Dsl
