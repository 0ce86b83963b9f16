import C4.Toml.Value

/-!
# Assembling tables

A document is read as a list of statements: pairs of a key and a value, and headers that say
which table the pairs after them belong to. Here the statements become one table. No key may
be given twice, and a table that is complete may not be added to.
-/
namespace C4.Toml

structure Table where
  span : Option Span
  form : Form
  entries : List (Key × Value)

namespace Table

def toValue (t : Table) : Value := .table t.span t.form t.entries

def find? (t : Table) (name : String) : Option Value :=
  (t.entries.find? fun e => e.1.text = name).map (·.2)

def push (t : Table) (key : Key) (value : Value) : Table :=
  { t with entries := t.entries ++ [(key, value)] }

/-- The key stays as it was first written. -/
def replace (t : Table) (name : String) (value : Value) : Table :=
  { t with entries := t.entries.map fun e => if e.1.text = name then (e.1, value) else e }

def erase (t : Table) (name : String) : Table :=
  { t with entries := t.entries.filter fun e => e.1.text ≠ name }

/-- Change the table that a path leads to. Tables that are missing on the way are made, and
the way leads into the last of several tables of one header. A dotted key can not pass through
a table that has a header, and nothing can pass through an inline table. -/
def descend (dotted : Bool) (change : Table → Option Table) : List Key → Table → Option Table
  | [], t => change t
  | key :: path, t =>
    match t.find? key.text with
    | none =>
      (descend dotted change path ⟨none, if dotted then .dotted else .implied, []⟩).map
        fun child => t.push key child.toValue
    | some (.table span form entries) =>
      if form = .inline || (dotted && form = .header) then none
      else
        (descend dotted change path ⟨span, form, entries⟩).map
          fun child => t.replace key.text child.toValue
    | some (.tables items) =>
      match items.getLast? with
      | some (.table span form entries) =>
        (descend dotted change path ⟨span, form, entries⟩).map
          fun child => t.replace key.text (.tables (items.dropLast ++ [child.toValue]))
      | _ => none
    | some _ => none

structure Pair where
  path : List Key
  key : Key
  value : Value

/-- A dotted key has to end in a table made by dotted keys, a plain one must not. -/
def addPair (t : Table) (p : Pair) : Option Table :=
  t.descend true
    (fun child =>
      if (child.form == .dotted) == p.path.isEmpty then none
      else if (child.find? p.key.text).isSome then none
      else some (child.push p.key p.value))
    p.path

def addPairs (t : Table) (pairs : List Pair) : Option Table := pairs.foldlM addPair t

structure Section where
  repeated : Bool
  path : List Key
  key : Key
  span : Span
  pairs : List Pair

def Section.extent (s : Section) : Span :=
  s.pairs.foldl (fun span p => ⟨span.start, ((p.value.span?).getD span).stop⟩) s.span

def Section.table (s : Section) (known : List (Key × Value)) : Option Value :=
  (addPairs ⟨none, .header, known⟩ s.pairs).map fun t => .table (some s.extent) .header t.entries

/-- A table that has so far only been passed through is opened by its header and moves to the
end. -/
def addSection (root : Table) (s : Section) : Option Table :=
  root.descend false
    (fun parent =>
      match s.repeated, parent.find? s.key.text with
      | true, none => (s.table []).map fun t => parent.push s.key (.tables [t])
      | true, some (.tables items) =>
        (s.table []).map fun t => parent.replace s.key.text (.tables (items ++ [t]))
      | false, none => (s.table []).map fun t => parent.push s.key t
      | false, some (.table _ .implied entries) =>
        (s.table entries).map fun t => (parent.erase s.key.text).push s.key t
      | _, _ => none)
    s.path

def ofSections? (pairs : List Pair) (sections : List Section) : Option Table :=
  (addPairs ⟨none, .header, []⟩ pairs).bind fun root => sections.foldlM addSection root

end Table

end C4.Toml
