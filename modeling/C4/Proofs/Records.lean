import C4.Proofs.Values
import C4.Theme.Fields
import Mathlib.Data.List.Induction
import Mathlib.Data.List.Nodup

/-!
# Records that are read

A record consists of what its fields state. A table is read as a record when each of its pairs
makes a statement that is true of the record, and when the record states nothing that no pair makes.
There is at most one such record, and the reader comes to it.
-/
namespace C4.Theme

open Toml

variable {ρ α : Type} {s : Schema ρ}

def Schema.names (s : Schema ρ) : List String := s.fields.map Field.name

def pairsOf (entries : List (Key × Value)) : List (String × Value) :=
  entries.map fun e => (e.1.text, e.2)

def momentKey : String := "$__toml_private_datetime"

/-- The names and values that a value has for the fields of a record. The items of a sequence go to
the fields one after the other. -/
def pairs? (names : List String) : Value → Option (List (String × Value))
  | .table _ _ entries => some (pairsOf entries)
  | .moment span text => some [(momentKey, .string span text)]
  | v => (items? v).map names.zip

/-- The statements that the fields of a record can make. A statement is made by a value under the
name of its field. To put it into a record is to make it true of the record, and no other statement
that was true becomes untrue, unless the field is the same. -/
structure Wording (s : Schema ρ) (α : Type) where
  name : α → String
  Says : Value → α → Prop
  put : ρ → α → ρ
  /-- What is stated by a record, other than by a blank one. -/
  said : ρ → List α
  names_nodup : s.names.Nodup
  moment_not_mem : momentKey ∉ s.names
  sound : ∀ x ∈ s.fields, ∀ span v, v.Distinct → ∀ r r', x.store span v r = .ok r' →
    ∃ a, name a = x.name ∧ Says v a ∧ put r a = r'
  complete : ∀ a, ∃ x, s.fields.find? (fun x => x.name = name a) = some x ∧
    ∀ span v, v.Distinct → Says v a → ∀ r, x.store span v r = .ok (put r a)
  put_self : ∀ r a, put (put r a) a = put r a
  put_comm : ∀ r a b, name a ≠ name b → put (put r a) b = put (put r b) a
  said_blank : said s.blank = []
  of_mem_said_put : ∀ r a, ∀ b ∈ said (put r a), b ∈ said r ∨ b = a
  ext : ∀ r r', (∀ a ∈ said r, put r' a = r') → (∀ a ∈ said r', put r a = r) → r = r'

section Fields

variable {β : Type} {decode : Decoder β} {tells : Value → β → Prop} {change : β → ρ → ρ}

theorem field_eq_ok_iff (h : Exact decode tells) {name : String} {span : Span} {v : Value}
    (hv : v.Distinct) {r r' : ρ} :
    (field name decode change).store span v r = .ok r' ↔ ∃ b, tells v b ∧ change b r = r' := by
  simp only [field, bind_eq_ok_iff, h span v hv, pure, Except.pure, Except.ok.injEq]

theorem sound_field (name : α → String) (Says : Value → α → Prop) (put : ρ → α → ρ)
    (h : Exact decode tells) {n : String} (make : β → α) (hname : ∀ b, name (make b) = n)
    (hstates : ∀ v b, tells v b → Says v (make b)) (hput : ∀ r b, put r (make b) = change b r) :
    ∀ span v, v.Distinct → ∀ r r', (field n decode change).store span v r = .ok r' →
      ∃ a, name a = n ∧ Says v a ∧ put r a = r' := by
  intro span v hv r r' hstore
  obtain ⟨b, hb, rfl⟩ := (field_eq_ok_iff h hv).1 hstore
  exact ⟨make b, hname b, hstates v b hb, hput r b⟩

theorem complete_field {name : α → String} {Says : Value → α → Prop} {put : ρ → α → ρ} (a : α)
    (hfield : s.fields.find? (fun x => x.name = name a) = some (field (name a) decode change))
    (h : Exact decode tells) {b : β} (hstates : ∀ v, Says v a → tells v b)
    (hput : ∀ r, put r a = change b r) :
    ∃ x, s.fields.find? (fun x => x.name = name a) = some x ∧
      ∀ span v, v.Distinct → Says v a → ∀ r, x.store span v r = .ok (put r a) :=
  ⟨_, hfield, fun _ v hv ha r => (field_eq_ok_iff h hv).2 ⟨b, hstates v ha, (hput r).symm⟩⟩

end Fields

namespace Wording

variable (w : Wording s α)

/-- Some pairs are what a record states. -/
structure Tells (pairs : List (String × Value)) (r : ρ) : Prop where
  /-- There are no keys but those of the fields, unless any may be there. -/
  declared : s.closed = true → ∀ p ∈ pairs, p.1 ∈ s.names
  /-- What is there is true of the record. -/
  written : ∀ p ∈ pairs, p.1 ∈ s.names → ∃ a, w.name a = p.1 ∧ w.Says p.2 a ∧ w.put r a = r
  /-- What is not there is blank in the record. -/
  unset : ∀ a ∈ w.said r, ∃ p ∈ pairs, p.1 = w.name a ∧ w.Says p.2 a

/-- A value is what a record states. A sequence may have to be as long as there are fields. -/
def ToldBy (v : Value) (r : ρ) : Prop :=
  ∃ pairs, pairs? s.names v = some pairs ∧ w.Tells pairs r ∧
    (s.mayEndEarly = true ∨ ∀ items, items? v = some items → s.fields.length ≤ items.length)

theorem find?_of_mem (hnames : s.names.Nodup) {x : Field ρ} (hx : x ∈ s.fields) :
    (s.fields.find? fun y => y.name = x.name) = some x := by
  obtain ⟨y, hy⟩ : ∃ y, s.fields.find? (fun y => y.name = x.name) = some y :=
    Option.isSome_iff_exists.1 (List.find?_isSome.2 ⟨x, hx, by simp⟩)
  have hname : y.name = x.name := by simpa using List.find?_some hy
  rw [hy, List.inj_on_of_nodup_map hnames (List.mem_of_find?_eq_some hy) hx hname]

theorem storeEntry_of_mem (hnames : s.names.Nodup) {x : Field ρ} (hx : x ∈ s.fields) (span : Span)
    (v : Value) (r : ρ) : s.storeEntry r (⟨x.name, span⟩, v) = x.store (placeOf span v) v r := by
  rw [Schema.storeEntry, find?_of_mem hnames hx]

theorem name_mem (a : α) : w.name a ∈ s.names := by
  obtain ⟨x, hx, -⟩ := w.complete a
  have hname : x.name = w.name a := by simpa using List.find?_some hx
  exact hname ▸ List.mem_map_of_mem (List.mem_of_find?_eq_some hx)

theorem storeEntry_eq_ok_iff {e : Key × Value} (hv : e.2.Distinct) {r r' : ρ} :
    s.storeEntry r e = .ok r' ↔ (∃ a, w.name a = e.1.text ∧ w.Says e.2 a ∧ w.put r a = r') ∨
      (e.1.text ∉ s.names ∧ s.closed = false ∧ r = r') := by
  obtain ⟨⟨name, span⟩, v⟩ := e
  by_cases hname : name ∈ s.names
  · obtain ⟨x, hx, rfl⟩ := List.mem_map.1 hname
    rw [storeEntry_of_mem w.names_nodup hx]
    constructor
    · exact fun h => .inl (w.sound x hx _ v hv r r' h)
    · rintro (⟨a, ha, hstates, rfl⟩ | ⟨hout, -⟩)
      · obtain ⟨y, hy, hstore⟩ := w.complete a
        rw [ha, find?_of_mem w.names_nodup hx] at hy
        obtain rfl := Option.some.inj hy
        exact hstore _ v hv hstates r
      · exact absurd hname hout
  · have hnone : s.fields.find? (fun x => x.name = name) = none := by
      refine List.find?_eq_none.2 fun x hx hxname => hname ?_
      exact of_decide_eq_true hxname ▸ List.mem_map_of_mem hx
    have hsilent (a : α) : w.name a ≠ name := fun ha => hname (ha ▸ w.name_mem a)
    rw [Schema.storeEntry, hnone]
    cases hclosed : s.closed with
    | true => simp [blame, hsilent]
    | false => simp [hsilent, hname]

section Pairs

variable {pairs : List (String × Value)} {r r' : ρ}

theorem tells_nil : w.Tells [] s.blank where
  declared := nofun
  written := nofun
  unset := by
    intro a ha
    rw [w.said_blank] at ha
    cases ha

theorem tells_of_said (hwritten : ∀ p ∈ pairs, ∃ a, w.name a = p.1 ∧ w.Says p.2 a ∧ w.put r a = r)
    (hunset : ∀ a ∈ w.said r, ∃ p ∈ pairs, p.1 = w.name a ∧ w.Says p.2 a) : w.Tells pairs r where
  declared _ p hp := by
    obtain ⟨a, ha, -⟩ := hwritten p hp
    exact ha ▸ w.name_mem a
  written p hp _ := hwritten p hp
  unset := hunset

theorem Tells.put {w : Wording s α} (h : w.Tells pairs r) {p : String × Value} {a : α}
    (ha : w.name a = p.1) (hstates : w.Says p.2 a) (hfresh : p.1 ∉ pairs.map Prod.fst) :
    w.Tells (pairs ++ [p]) (w.put r a) where
  declared hclosed := by
    intro q hq
    rcases List.mem_append.1 hq with hq | hq
    · exact h.declared hclosed q hq
    · obtain rfl := List.mem_singleton.1 hq
      exact ha ▸ w.name_mem a
  written := by
    intro q hq hname
    rcases List.mem_append.1 hq with hq | hq
    · obtain ⟨b, hb, hsaid, hput⟩ := h.written q hq hname
      have hne : w.name a ≠ w.name b := fun hab =>
        hfresh (ha ▸ hab ▸ hb ▸ List.mem_map_of_mem hq)
      refine ⟨b, hb, hsaid, ?_⟩
      rw [w.put_comm r a b hne, hput]
    · obtain rfl := List.mem_singleton.1 hq
      exact ⟨a, ha, hstates, w.put_self r a⟩
  unset := by
    intro b hb
    rcases w.of_mem_said_put r a b hb with hb | rfl
    · obtain ⟨q, hq, hname, hsaid⟩ := h.unset b hb
      exact ⟨q, List.mem_append_left _ hq, hname, hsaid⟩
    · exact ⟨p, List.mem_append_right _ List.mem_cons_self, ha.symm, hstates⟩

theorem Tells.pass {w : Wording s α} (h : w.Tells pairs r) {p : String × Value}
    (hout : p.1 ∉ s.names) (hopen : s.closed = false) : w.Tells (pairs ++ [p]) r where
  declared hclosed := by simp [hopen] at hclosed
  written := by
    intro q hq hname
    rcases List.mem_append.1 hq with hq | hq
    · exact h.written q hq hname
    · obtain rfl := List.mem_singleton.1 hq
      exact absurd hname hout
  unset := by
    intro b hb
    obtain ⟨q, hq, hname, hsaid⟩ := h.unset b hb
    exact ⟨q, List.mem_append_left _ hq, hname, hsaid⟩

theorem Tells.of_not_mem {w : Wording s α} {key : String} {v : Value} (h : w.Tells [(key, v)] r)
    (hkey : key ∉ s.names) (v' : Value) : w.Tells [(key, v')] r where
  declared hclosed := absurd (h.declared hclosed _ List.mem_cons_self) hkey
  written := by
    intro p hp hname
    obtain rfl := List.mem_singleton.1 hp
    exact absurd hname hkey
  unset := by
    intro a ha
    obtain ⟨p, hp, hname, -⟩ := h.unset a ha
    obtain rfl := List.mem_singleton.1 hp
    have hname : key = w.name a := hname
    exact absurd (hname ▸ w.name_mem a) hkey

theorem Tells.unique {w : Wording s α} (hv : ∀ p ∈ pairs, p.2.Distinct) (h : w.Tells pairs r)
    (h' : w.Tells pairs r') : r = r' := by
  have agree {r r' : ρ} (h : w.Tells pairs r) (h' : w.Tells pairs r') :
      ∀ a ∈ w.said r, w.put r' a = r' := by
    intro a ha
    obtain ⟨p, hp, hname, hstates⟩ := h.unset a ha
    obtain ⟨b, hb, hstates', hput⟩ := h'.written p hp (hname ▸ w.name_mem a)
    -- Both statements are made by the same value, and storing that has one result.
    have hstore (c : α) (hc : w.name c = p.1) (hsaid : w.Says p.2 c) :
        s.storeEntry r' (⟨p.1, ⟨0, 0⟩⟩, p.2) = .ok (w.put r' c) :=
      (w.storeEntry_eq_ok_iff (hv p hp)).2 (.inl ⟨c, hc, hsaid, rfl⟩)
    have hsame := (hstore a hname.symm hstates).symm.trans (hstore b hb hstates')
    exact (Except.ok.inj hsame).trans hput
  exact w.ext r r' (agree h h') (agree h' h)

end Pairs

section Tables

variable {entries : List (Key × Value)} {r : ρ}

theorem ofEntries_append (entries : List (Key × Value)) (e : Key × Value) :
    s.ofEntries (entries ++ [e]) = s.ofEntries entries >>= (s.storeEntry · e) := by
  simp [Schema.ofEntries, List.foldlM_append]

theorem tells_of_ofEntries (hkeys : ((pairsOf entries).map Prod.fst).Nodup)
    (hv : ∀ e ∈ entries, e.2.Distinct) (h : s.ofEntries entries = .ok r) :
    w.Tells (pairsOf entries) r := by
  induction entries using List.reverseRecOn generalizing r with
  | nil =>
    obtain rfl := Except.ok.inj h
    exact w.tells_nil
  | append_singleton entries e ih =>
    rw [ofEntries_append, bind_eq_ok_iff] at h
    obtain ⟨before, hbefore, hstore⟩ := h
    rw [pairsOf, List.map_append, List.map_append, List.nodup_append] at hkeys
    obtain ⟨hkeys, -, hfresh⟩ := hkeys
    obtain ⟨hv, hlast⟩ := List.forall_mem_append.1 hv
    have htells := ih hkeys hv hbefore
    rw [pairsOf, List.map_append]
    rcases (w.storeEntry_eq_ok_iff (hlast e List.mem_cons_self)).1 hstore with
      ⟨a, ha, hstates, rfl⟩ | ⟨hout, hopen, rfl⟩
    · exact htells.put ha hstates fun hmem => hfresh _ hmem _ List.mem_cons_self rfl
    · exact htells.pass hout hopen

theorem exists_ofEntries (hv : ∀ e ∈ entries, e.2.Distinct)
    (hdeclared : s.closed = true → ∀ p ∈ pairsOf entries, p.1 ∈ s.names)
    (hstates : ∀ p ∈ pairsOf entries, p.1 ∈ s.names → ∃ a, w.name a = p.1 ∧ w.Says p.2 a) :
    ∃ r, s.ofEntries entries = .ok r := by
  induction entries using List.reverseRecOn with
  | nil => exact ⟨s.blank, rfl⟩
  | append_singleton entries e ih =>
    simp only [pairsOf, List.map_append, List.forall_mem_append, List.map_cons, List.map_nil,
      List.forall_mem_singleton] at hv hdeclared hstates
    obtain ⟨before, hbefore⟩ := ih hv.1 (fun hclosed => (hdeclared hclosed).1) hstates.1
    rw [ofEntries_append, hbefore]
    by_cases hname : e.1.text ∈ s.names
    · obtain ⟨a, ha, hsaid⟩ := hstates.2 hname
      exact ⟨_, (w.storeEntry_eq_ok_iff hv.2).2 (.inl ⟨a, ha, hsaid, rfl⟩)⟩
    · have hopen : s.closed = false := by
        cases hclosed : s.closed with
        | false => rfl
        | true => exact absurd (hdeclared hclosed).2 hname
      exact ⟨_, (w.storeEntry_eq_ok_iff hv.2).2 (.inr ⟨hname, hopen, rfl⟩)⟩

/-- Entries in which no key is given twice are read as the record that states them. -/
theorem ofEntries_eq_ok_iff (hkeys : ((pairsOf entries).map Prod.fst).Nodup)
    (hv : ∀ e ∈ entries, e.2.Distinct) :
    s.ofEntries entries = .ok r ↔ w.Tells (pairsOf entries) r := by
  refine ⟨w.tells_of_ofEntries hkeys hv, fun h => ?_⟩
  obtain ⟨r', hr'⟩ := w.exists_ofEntries hv h.declared fun p hp hname => by
    obtain ⟨a, ha, hstates, -⟩ := h.written p hp hname
    exact ⟨a, ha, hstates⟩
  have hpairs : ∀ p ∈ pairsOf entries, p.2.Distinct := by
    intro p hp
    obtain ⟨e, he, rfl⟩ := List.mem_map.1 hp
    exact hv e he
  rw [hr', (w.tells_of_ofEntries hkeys hv hr').unique hpairs h]

def entriesOf (s : Schema ρ) (span : Span) (items : List Value) : List (Key × Value) :=
  (s.fields.zip items).map fun x => (⟨x.1.name, span⟩, x.2)

theorem pairsOf_entriesOf (span : Span) (items : List Value) :
    pairsOf (entriesOf s span items) = s.names.zip items := by
  rw [pairsOf, entriesOf, List.map_map, Schema.names, List.zip_map_left]
  rfl

theorem nodup_entriesOf (hnames : s.names.Nodup) (span : Span) (items : List Value) :
    ((pairsOf (entriesOf s span items)).map Prod.fst).Nodup := by
  rw [pairsOf_entriesOf, List.zip_eq_zip_take_min, List.map_fst_zip (by simp)]
  exact hnames.sublist (List.take_sublist ..)

theorem ofEntries_entriesOf (hnames : s.names.Nodup) (span : Span) (items : List Value) :
    s.ofEntries (entriesOf s span items) =
      (s.fields.zip items).foldlM (fun r x => x.1.store (placeOf span x.2) x.2 r) s.blank := by
  rw [Schema.ofEntries, entriesOf, List.foldlM_map]
  have hmem : ∀ x ∈ s.fields.zip items, x.1 ∈ s.fields := fun x hx => (List.of_mem_zip hx).1
  generalize s.fields.zip items = given at hmem
  generalize s.blank = r
  induction given generalizing r with
  | nil => rfl
  | cons x rest ih =>
    obtain ⟨hx, hrest⟩ := List.forall_mem_cons.1 hmem
    rw [List.foldlM_cons, List.foldlM_cons, storeEntry_of_mem hnames hx]
    exact bind_congr fun r => ih hrest r

theorem ofItems_eq_ok_iff (hnames : s.names.Nodup) {span : Span} {items : List Value} :
    s.ofItems span items = .ok r ↔ s.ofEntries (entriesOf s span items) = .ok r ∧
      (s.mayEndEarly = true ∨ s.fields.length ≤ items.length) := by
  rw [ofEntries_entriesOf hnames, Schema.ofItems, bind_eq_ok_iff]
  by_cases hlength : s.mayEndEarly = true ∨ s.fields.length ≤ items.length
  · simp [hlength, pure, Except.pure]
  · simp [hlength, blame]

theorem exact_decode : Exact s.decode w.ToldBy := by
  intro span v hv r
  have hsequence {items : List Value} (hitems : items? v = some items)
      (hpairs : pairs? s.names v = some (s.names.zip items)) :
      s.ofItems span items = .ok r ↔ w.ToldBy v r := by
    have hentries : ∀ e ∈ entriesOf s span items, e.2.Distinct := by
      intro e he
      obtain ⟨x, hx, rfl⟩ := List.mem_map.1 he
      exact distinct_of_items? hv hitems x.2 (List.of_mem_zip hx).2
    rw [ofItems_eq_ok_iff w.names_nodup,
      w.ofEntries_eq_ok_iff (nodup_entriesOf w.names_nodup span items) hentries, pairsOf_entriesOf]
    simp [ToldBy, hpairs, hitems]
  cases v with
  | table place form entries =>
    cases hv with
    | table _ _ hkeys hentries =>
      have hfst : ((pairsOf entries).map Prod.fst).Nodup := by
        rw [pairsOf, List.map_map]
        exact hkeys
      rw [Schema.decode, w.ofEntries_eq_ok_iff hfst hentries]
      simp [ToldBy, pairs?, items?]
  | moment place text =>
    have hentries : ∀ e ∈ momentEntries span text, e.2.Distinct := by
      intro e he
      obtain rfl := List.mem_singleton.1 he
      exact .string span text
    rw [Schema.decode, w.ofEntries_eq_ok_iff (by simp [pairsOf, momentEntries]) hentries]
    simp only [ToldBy, pairs?, items?, reduceCtorEq, false_imp_iff, implies_true, or_true, and_true,
      Option.some.injEq, exists_eq_left']
    exact ⟨fun h => h.of_not_mem w.moment_not_mem _, fun h => h.of_not_mem w.moment_not_mem _⟩
  | array place items => exact hsequence rfl rfl
  | tables items => exact hsequence rfl rfl
  | _ => simp [Schema.decode, mismatch, blame, ToldBy, pairs?, items?]

end Tables

end Wording

end C4.Theme
