import C4.Dsl.Document

/-!
# Delivery

The calls of a script become pieces of text: for each line the indent unit once per open
level, the content and the line break. The pieces are handed to a sink one at a time. The
first refusal ends the delivery, and so does a reference that leads nowhere.
-/
namespace C4.Dsl

namespace Directive

/-- The pieces of a directive at a given depth. A closing brace stands one level further out. -/
def pieces (unit : String) (depth : Nat) : Directive → List String
  | line text => List.replicate depth unit ++ [text, "\n"]
  | opening header =>
    List.replicate depth unit ++ [if header.isEmpty then "\x7b" else header ++ " \x7b", "\n"]
  | closing => List.replicate (depth - 1) unit ++ ["\x7d", "\n"]
  | gap => ["\n"]

def depthAfter (depth : Nat) : Directive → Nat
  | opening _ => depth + 1
  | closing => depth - 1
  | _ => depth

end Directive

inductive Signal
  | piece (subject : Subject) (text : String)
  | note (record : Record)
  | stop (error : RenderError)
deriving DecidableEq

def signals (unit : String) : Nat → Script → List Signal
  | _, [] => []
  | depth, .write subject directive :: rest =>
    (directive.pieces unit depth).map (.piece subject) ++
      signals unit (directive.depthAfter depth) rest
  | depth, .note record :: rest => .note record :: signals unit depth rest
  | depth, .stop error :: rest => .stop error :: signals unit depth rest

/-- Something that is offered text and takes or refuses it; `σ` is what it remembers, also of a
piece that it refused. -/
structure Sink (σ : Type) where
  start : σ
  accept : σ → String → σ × Bool

namespace Sink

def unlimited : Sink Unit := ⟨(), fun _ _ => ((), true)⟩

/-- Takes so many pieces and so many bytes, where given. A piece that does not fit is refused
as a whole. -/
def limited (maxPieces maxBytes : Option Nat) : Sink (Nat × Nat) where
  start := (0, 0)
  accept := fun (pieces, bytes) text =>
    let pieces := pieces + 1
    let bytes := bytes + text.utf8ByteSize
    ((pieces, bytes), maxPieces.all (pieces ≤ ·) && maxBytes.all (bytes ≤ ·))

end Sink

structure Delivery where
  written : List String
  notes : List Record
  outcome : Except RenderError Unit

namespace Delivery

def text (d : Delivery) : String := String.join d.written

def result (d : Delivery) : Except RenderError String := d.outcome.map fun _ => d.text

end Delivery

def deliver {σ : Type} (sink : Sink σ) : σ → List Signal → Delivery × σ
  | state, [] => (⟨[], [], .ok ()⟩, state)
  | state, .stop error :: _ => (⟨[], [], .error error⟩, state)
  | state, .note record :: rest =>
    let (d, last) := deliver sink state rest
    ({ d with notes := record :: d.notes }, last)
  | state, .piece subject text :: rest =>
    match sink.accept state text with
    | (state, false) => (⟨[], [], .error (.refused subject)⟩, state)
    | (state, true) =>
      let (d, last) := deliver sink state rest
      ({ d with written := text :: d.written }, last)

def perform {σ : Type} (l : Layout) (sink : Sink σ) (depth : Nat) (script : Script) :
    Delivery × σ :=
  deliver sink sink.start (signals l.indentUnit depth script)

end C4.Dsl

namespace C4

open Dsl

def Workspace.write {σ : Type} (w : Workspace) (l : Layout) (sink : Sink σ) : Delivery :=
  (perform l sink 0 (w.script l)).1

def Workspace.render (w : Workspace) (l : Layout) : Delivery := w.write l .unlimited

def Workspace.renderFragment (w : Workspace) (f : Fragment) (l : Layout) : Delivery :=
  (perform l .unlimited 0 (f.script w)).1

end C4
