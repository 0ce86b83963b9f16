import C4.Dsl.Delivery

/-!
# Output

Handing over the finished text as bytes. Nothing is handed over unless the whole text could
be made.
-/
namespace C4.Dsl

inductive Output
  /-- Takes so many bytes, or any number, and forwards them. -/
  | ready (capacity : Option Nat)
  /-- Takes so many bytes, or any number, but can not forward them. -/
  | stuck (capacity : Option Nat)
  | closed
deriving DecidableEq

namespace Output

def fill (capacity : Option Nat) (bytes : List UInt8) : List UInt8 × Option String :=
  match capacity with
  | none => (bytes, none)
  | some n =>
    if bytes.length ≤ n then (bytes, none)
    else (bytes.take n, some "failed to write whole buffer")

def receive (o : Output) (bytes : List UInt8) : List UInt8 × Option String :=
  match o with
  | ready capacity => fill capacity bytes
  | stuck capacity =>
    match fill capacity bytes with
    | (taken, none) => (taken, some "flush failed")
    | failed => failed
  | closed => ([], some "closed")

end Output

end C4.Dsl

namespace C4

open Dsl

def Workspace.writeTo (w : Workspace) (l : Layout) (o : Output) :
    List Record × List UInt8 × Except RenderError Unit :=
  let d := w.render l
  match d.result with
  | .error e => (d.notes, [], .error e)
  | .ok text =>
    match o.receive text.toUTF8.toList with
    | (taken, none) => (d.notes, taken, .ok ())
    | (taken, some reason) => (d.notes, taken, .error (.output reason))

end C4
