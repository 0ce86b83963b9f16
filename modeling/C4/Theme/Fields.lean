import C4.Theme.Attribute

/-!
# Reading records

A record is given as a table that names its fields, or as a sequence of their values in order.
Fields are taken one after the other, and the first fault is the one that is reported.
-/
namespace C4.Theme

open Toml

structure Field (ρ : Type) where
  name : String
  store : Span → Value → ρ → Except Fault ρ

def field {ρ α : Type} (name : String) (decode : Decoder α) (put : α → ρ → ρ) : Field ρ :=
  ⟨name, fun span v r => return put (← decode span v) r⟩

/-- The table that a date looks like: one key that nobody would write. -/
def momentEntries (span : Span) (text : String) : List (Key × Value) :=
  [(⟨"$__toml_private_datetime", span⟩, .string span text)]

structure Schema (ρ : Type) where
  name : String
  fields : List (Field ρ)
  blank : ρ
  /-- Whether a key that is no field is a fault. -/
  closed : Bool
  /-- Whether a sequence may end before the last field. -/
  mayEndEarly : Bool

namespace Schema

variable {ρ : Type}

def storeEntry (s : Schema ρ) (r : ρ) (entry : Key × Value) : Except Fault ρ :=
  match s.fields.find? fun x => x.name = entry.1.text with
  | some x => x.store (placeOf entry.1.span entry.2) entry.2 r
  | none =>
    if s.closed then blame entry.1.span (.unknownField entry.1.text (s.fields.map Field.name))
    else .ok r

def ofEntries (s : Schema ρ) (entries : List (Key × Value)) : Except Fault ρ :=
  entries.foldlM s.storeEntry s.blank

def ofItems (s : Schema ρ) (span : Span) (items : List Value) : Except Fault ρ := do
  let r ← (s.fields.zip items).foldlM (fun r x => x.1.store (placeOf span x.2) x.2 r) s.blank
  if s.mayEndEarly || s.fields.length ≤ items.length then return r
  else blame span (.missingItems items.length (.record s.name) s.fields.length)

def decode (s : Schema ρ) : Decoder ρ
  | _, .table _ _ entries => s.ofEntries entries
  | span, .moment _ text => s.ofEntries (momentEntries span text)
  | span, .array _ items => s.ofItems span items
  | span, .tables items => s.ofItems span items
  | span, v => mismatch span v (.record s.name)

end Schema

end C4.Theme
