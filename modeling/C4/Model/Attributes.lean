/-!
# Tags and properties

Tags are a list, in the order and with the repetitions in which they were given.
Properties are a map. Its entries are kept in ascending order of their keys, code point by
code point, which is also the order of the keys' UTF-8 bytes.
-/
namespace C4

def provided (text : String) : Option String :=
  if text.isEmpty then none else some text

structure Tags where
  items : List String
deriving DecidableEq

namespace Tags

def empty : Tags := ⟨[]⟩

instance : Inhabited Tags := ⟨empty⟩

def ofList (items : List String) : Tags := ⟨items⟩

def add (t : Tags) (tag : String) : Tags := ⟨t.items ++ [tag]⟩

def extend (t : Tags) (more : List String) : Tags := ⟨t.items ++ more⟩

def contains (t : Tags) (tag : String) : Bool := t.items.contains tag

def isEmpty (t : Tags) : Bool := t.items.isEmpty

def size (t : Tags) : Nat := t.items.length

def joined (t : Tags) : String := String.intercalate ", " t.items

end Tags

namespace Properties

def Ascending (entries : List (String × String)) : Prop :=
  entries.Pairwise fun a b => a.1 < b.1

def insertEntry (key value : String) : List (String × String) → List (String × String)
  | [] => [(key, value)]
  | (k, v) :: rest =>
    if key < k then (key, value) :: (k, v) :: rest
    else if key = k then (key, value) :: rest
    else (k, v) :: insertEntry key value rest

theorem mem_insertEntry {key value : String} {entries : List (String × String)}
    {e : String × String} (h : e ∈ insertEntry key value entries) :
    e = (key, value) ∨ e ∈ entries := by
  induction entries with
  | nil => simpa [insertEntry] using h
  | cons head rest ih =>
    obtain ⟨k, v⟩ := head
    unfold insertEntry at h
    split at h
    · simpa using h
    · split at h
      · rcases List.mem_cons.1 h with h | h
        · exact .inl h
        · exact .inr (List.mem_cons_of_mem _ h)
      · rcases List.mem_cons.1 h with h | h
        · exact .inr (h ▸ List.mem_cons_self)
        · exact (ih h).imp_right (List.mem_cons_of_mem _)

theorem ascending_insertEntry (key value : String) {entries : List (String × String)}
    (h : Ascending entries) : Ascending (insertEntry key value entries) := by
  induction entries with
  | nil => simp [insertEntry, Ascending]
  | cons head rest ih =>
    obtain ⟨k, v⟩ := head
    have hk : ∀ e ∈ rest, k < e.1 := (List.pairwise_cons.1 h).1
    have hrest : Ascending rest := (List.pairwise_cons.1 h).2
    unfold insertEntry
    split
    · next hlt =>
      refine List.pairwise_cons.2 ⟨fun e he => ?_, h⟩
      rcases List.mem_cons.1 he with rfl | he
      · exact hlt
      · exact String.lt_trans hlt (hk e he)
    · next hnlt =>
      split
      · next heq => exact List.pairwise_cons.2 ⟨fun e he => heq ▸ hk e he, hrest⟩
      · next hne =>
        refine List.pairwise_cons.2 ⟨fun e he => ?_, ih hrest⟩
        rcases mem_insertEntry he with rfl | he
        · exact String.not_le.1 fun hle => hne (String.le_antisymm hle (String.not_lt.1 hnlt))
        · exact hk e he

end Properties

structure Properties where
  entries : List (String × String)
  ascending : Properties.Ascending entries
deriving DecidableEq

namespace Properties

def empty : Properties := ⟨[], .nil⟩

instance : Inhabited Properties := ⟨empty⟩

def insert (p : Properties) (key value : String) : Properties :=
  ⟨insertEntry key value p.entries, ascending_insertEntry key value p.ascending⟩

def ofList (entries : List (String × String)) : Properties :=
  entries.foldl (fun p e => p.insert e.1 e.2) empty

def get? (p : Properties) (key : String) : Option String := p.entries.lookup key

def isEmpty (p : Properties) : Bool := p.entries.isEmpty

def size (p : Properties) : Nat := p.entries.length

end Properties

end C4
