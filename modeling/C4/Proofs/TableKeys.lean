import C4.Toml.Document
import Mathlib.Data.List.Nodup

/-!
# Keys of tables

No table of a document has a key twice, at any depth. A key is only added to a table in which it has
not been found, and the parts of a table are parts of the text or tables that were made in the same
way.
-/
namespace C4.Toml

inductive Value.Distinct : Value → Prop
  | string (span : Span) (text : String) : Distinct (.string span text)
  | integer (span : Span) (value : Int) : Distinct (.integer span value)
  | float (span : Span) (value : Number.Binary64) : Distinct (.float span value)
  | boolean (span : Span) (value : Bool) : Distinct (.boolean span value)
  | moment (span : Span) (text : String) : Distinct (.moment span text)
  | array (span : Span) {items : List Value} (hitems : ∀ v ∈ items, Distinct v) :
    Distinct (.array span items)
  | table (span : Option Span) (form : Form) {entries : List (Key × Value)}
    (hkeys : (entries.map (·.1.text)).Nodup) (hentries : ∀ e ∈ entries, Distinct e.2) :
    Distinct (.table span form entries)
  | tables {items : List Value} (hitems : ∀ v ∈ items, Distinct v) : Distinct (.tables items)

namespace Table

def Distinct (t : Table) : Prop := t.toValue.Distinct

section Changes

variable {t t' : Table} {v : Value}

theorem distinct_iff : t.Distinct ↔
    (t.entries.map (·.1.text)).Nodup ∧ ∀ e ∈ t.entries, e.2.Distinct := by
  constructor
  · intro h
    cases h with
    | table _ _ hkeys hentries => exact ⟨hkeys, hentries⟩
  · exact fun h => .table _ _ h.1 h.2

theorem distinct_empty (span : Option Span) (form : Form) : Distinct ⟨span, form, []⟩ :=
  .table span form List.nodup_nil nofun

theorem Distinct.find? (h : t.Distinct) {name : String} (hfind : t.find? name = some v) :
    v.Distinct := by
  obtain ⟨e, he, rfl⟩ := Option.map_eq_some_iff.1 hfind
  exact (distinct_iff.1 h).2 e (List.mem_of_find?_eq_some he)

theorem Distinct.push (h : t.Distinct) {key : Key} (hkey : t.find? key.text = none)
    (hv : v.Distinct) : (t.push key v).Distinct := by
  obtain ⟨hkeys, hentries⟩ := distinct_iff.1 h
  have hfresh : ∀ e ∈ t.entries, e.1.text ≠ key.text := by
    intro e he
    simpa using List.find?_eq_none.1 (Option.map_eq_none_iff.1 hkey) e he
  refine distinct_iff.2 ⟨?_, List.forall_mem_append.2 ⟨hentries, ?_⟩⟩
  · rw [Table.push, List.map_append, List.nodup_append]
    refine ⟨hkeys, List.nodup_singleton _, fun name hname other hother => ?_⟩
    obtain ⟨e, he, rfl⟩ := List.mem_map.1 hname
    obtain rfl := List.mem_singleton.1 hother
    exact hfresh e he
  · simpa using hv

theorem Distinct.replace (h : t.Distinct) {name : String} (hv : v.Distinct) :
    (t.replace name v).Distinct := by
  obtain ⟨hkeys, hentries⟩ := distinct_iff.1 h
  have hsame : (t.replace name v).entries.map (·.1.text) = t.entries.map (·.1.text) := by
    rw [Table.replace, List.map_map]
    refine List.map_congr_left fun e _ => ?_
    rw [Function.comp_apply]
    split <;> rfl
  refine distinct_iff.2 ⟨hsame ▸ hkeys, fun e he => ?_⟩
  obtain ⟨old, hold, rfl⟩ := List.mem_map.1 he
  split
  · exact hv
  · exact hentries old hold

theorem Distinct.erase (h : t.Distinct) (name : String) : (t.erase name).Distinct := by
  obtain ⟨hkeys, hentries⟩ := distinct_iff.1 h
  refine distinct_iff.2 ⟨hkeys.sublist (List.filter_sublist.map _), fun e he => ?_⟩
  exact hentries e (List.mem_filter.1 he).1

theorem find?_erase (t : Table) (name : String) : (t.erase name).find? name = none := by
  simp [Table.find?, Table.erase]

/-- What is changed at the end of a path is still a part of tables whose keys are distinct. -/
theorem Distinct.descend {dotted : Bool} {change : Table → Option Table}
    (hchange : ∀ t t', t.Distinct → change t = some t' → t'.Distinct) {path : List Key}
    (h : t.Distinct) (hdescend : t.descend dotted change path = some t') : t'.Distinct := by
  induction path generalizing t t' with
  | nil => exact hchange t t' h hdescend
  | cons key path ih =>
    rw [Table.descend] at hdescend
    split at hdescend
    · next hnone =>
      obtain ⟨child, hchild, rfl⟩ := Option.map_eq_some_iff.1 hdescend
      exact h.push hnone (ih (distinct_empty ..) hchild)
    · next span form entries hfound =>
      split at hdescend
      · cases hdescend
      · obtain ⟨child, hchild, rfl⟩ := Option.map_eq_some_iff.1 hdescend
        exact h.replace (ih (t := ⟨span, form, entries⟩) (h.find? hfound) hchild)
    · next items hfound =>
      split at hdescend
      · next span form entries hlast =>
        obtain ⟨child, hchild, rfl⟩ := Option.map_eq_some_iff.1 hdescend
        cases h.find? hfound with
        | tables hitems =>
          have hentries := hitems _ (List.mem_of_getLast? hlast)
          refine h.replace (.tables (List.forall_mem_append.2 ⟨fun v hv => ?_, ?_⟩))
          · exact hitems v (List.dropLast_subset _ hv)
          · exact List.forall_mem_singleton.2 (ih (t := ⟨span, form, entries⟩) hentries hchild)
      · cases hdescend
    · cases hdescend

end Changes

section Statements

theorem of_foldlM {α β : Type} {P : β → Prop} {f : β → α → Option β} {l : List α}
    (hf : ∀ a ∈ l, ∀ b b', P b → f b a = some b' → P b') {b b' : β} (hb : P b)
    (h : l.foldlM f b = some b') : P b' := by
  induction l generalizing b with
  | nil =>
    obtain rfl := Option.some.inj h
    exact hb
  | cons a l ih =>
    obtain ⟨ha, hl⟩ := List.forall_mem_cons.1 hf
    rw [List.foldlM_cons] at h
    obtain ⟨c, hc, hrest⟩ := Option.bind_eq_some_iff.1 h
    exact ih hl (ha b c hb hc) hrest

variable {t t' : Table}

theorem Distinct.addPair (h : t.Distinct) {p : Pair} (hp : p.value.Distinct)
    (hadd : t.addPair p = some t') : t'.Distinct := by
  refine h.descend (fun child child' hchild hchange => ?_) hadd
  split at hchange
  · cases hchange
  · split at hchange
    · cases hchange
    · next hfresh =>
      obtain rfl := Option.some.inj hchange
      exact hchild.push (by simpa using hfresh) hp

theorem Distinct.addPairs (h : t.Distinct) {pairs : List Pair}
    (hpairs : ∀ p ∈ pairs, p.value.Distinct) (hadd : t.addPairs pairs = some t') : t'.Distinct :=
  of_foldlM (fun p hp _ _ ht => ht.addPair (hpairs p hp)) h hadd

theorem distinct_table {s : Section} {known : List (Key × Value)} {v : Value}
    (hknown : (Value.table none .header known).Distinct) (hpairs : ∀ p ∈ s.pairs, p.value.Distinct)
    (h : s.table known = some v) : v.Distinct := by
  obtain ⟨t, ht, rfl⟩ := Option.map_eq_some_iff.1 h
  have htable : t.Distinct := Distinct.addPairs (t := ⟨none, .header, known⟩) hknown hpairs ht
  cases htable with
  | table _ _ hkeys hentries => exact .table _ _ hkeys hentries

theorem Distinct.addSection (h : t.Distinct) {s : Section}
    (hpairs : ∀ p ∈ s.pairs, p.value.Distinct) (hadd : t.addSection s = some t') : t'.Distinct := by
  refine h.descend (fun parent parent' hparent hchange => ?_) hadd
  have hnew {v : Value} (hv : s.table [] = some v) : v.Distinct :=
    distinct_table (distinct_empty ..) hpairs hv
  split at hchange
  · next hnone =>
    obtain ⟨v, hv, rfl⟩ := Option.map_eq_some_iff.1 hchange
    exact hparent.push hnone (.tables (List.forall_mem_singleton.2 (hnew hv)))
  · next items hfound =>
    obtain ⟨v, hv, rfl⟩ := Option.map_eq_some_iff.1 hchange
    cases hparent.find? hfound with
    | tables hitems =>
      exact hparent.replace
        (.tables (List.forall_mem_append.2 ⟨hitems, List.forall_mem_singleton.2 (hnew hv)⟩))
  · next hnone =>
    obtain ⟨v, hv, rfl⟩ := Option.map_eq_some_iff.1 hchange
    exact hparent.push hnone (hnew hv)
  · next span entries _ hfound =>
    obtain ⟨v, hv, rfl⟩ := Option.map_eq_some_iff.1 hchange
    have hknown : (Value.table none .header entries).Distinct := by
      cases hparent.find? hfound with
      | table _ _ hkeys hentries => exact .table _ _ hkeys hentries
    exact (hparent.erase _).push (find?_erase ..) (distinct_table hknown hpairs hv)
  · cases hchange

theorem distinct_ofSections? {pairs : List Pair} {sections : List Section}
    (hpairs : ∀ p ∈ pairs, p.value.Distinct)
    (hsections : ∀ s ∈ sections, ∀ p ∈ s.pairs, p.value.Distinct)
    (h : ofSections? pairs sections = some t) : t.Distinct := by
  obtain ⟨root, hroot, hadd⟩ := Option.bind_eq_some_iff.1 h
  exact of_foldlM (fun s hs _ _ ht => ht.addSection (hsections s hs))
    ((distinct_empty ..).addPairs hpairs hroot) hadd

end Statements

end Table

open Reader

def Yields {α : Type} (r : Reader α) (P : α → Prop) : Prop := ∀ c a c', r c = some (a, c') → P a

section Combinators

variable {α β : Type} {r s : Reader α} {P : α → Prop} {Q : β → Prop}

theorem yields_pure {a : α} (h : P a) : Yields (pure a) P := by
  intro c b c' hread
  cases hread
  exact h

theorem yields_failure : Yields failure P := by
  intro c a c' h
  cases h

theorem yields_bind {f : α → Reader β} (hr : Yields r P) (hf : ∀ a, P a → Yields (f a) Q) :
    Yields (r >>= f) Q := by
  intro c b c' h
  obtain ⟨⟨a, d⟩, hread, hnext⟩ := Option.bind_eq_some_iff.1 h
  exact hf a (hr c a d hread) d b c' hnext

theorem yields_next {f : α → Reader β} (hf : ∀ a, Yields (f a) Q) : Yields (r >>= f) Q :=
  yields_bind (P := fun _ => True) (fun _ _ _ _ => trivial) fun a _ => hf a

theorem yields_orElse (hr : Yields r P) (hs : Yields s P) : Yields (r <|> s) P := by
  intro c a c' h
  change (r c <|> s c) = some (a, c') at h
  cases hread : r c with
  | none =>
    rw [hread] at h
    exact hs c a c' h
  | some b =>
    rw [hread] at h
    exact hr c a c' (hread.trans h)

theorem yields_ite {p : Prop} [Decidable p] (hr : Yields r P) (hs : Yields s P) :
    Yields (if p then r else s) P := by
  split
  · exact hr
  · exact hs

theorem yields_atMost (hr : Yields r P) (limit : Nat) :
    Yields (atMost limit r) fun l => ∀ a ∈ l, P a := by
  induction limit with
  | zero => exact yields_pure nofun
  | succ limit ih =>
    refine yields_orElse ?_ (yields_pure nofun)
    exact yields_bind hr fun a ha => yields_bind ih fun rest hrest =>
      yields_pure (List.forall_mem_cons.2 ⟨ha, hrest⟩)

theorem yields_many (hr : Yields r P) : Yields (many r) fun l => ∀ a ∈ l, P a :=
  yields_next fun _ => yields_atMost hr _

theorem yields_located (hr : Yields r P) : Yields (located r) fun a => P a.2 :=
  yields_next fun _ => yields_bind hr fun _ ha => yields_next fun _ => yields_pure ha

end Combinators

theorem yields_scalar : Yields scalar Value.Distinct := by
  have hvalue {α : Type} {r : Reader α} {f : Span → α → Value} (hf : ∀ s a, (f s a).Distinct) :
      Yields (do let (s, v) ← located r; return f s v) Value.Distinct :=
    yields_next fun _ => yields_pure (hf _ _)
  exact yields_orElse (hvalue .string) <| yields_orElse (hvalue .moment) <|
    yields_orElse (hvalue .float) <| yields_orElse (hvalue .integer) (hvalue .boolean)

section Nested

variable {value : Reader Value}

theorem yields_arrayItems (hvalue : Yields value Value.Distinct) (limit : Nat) :
    Yields (arrayItems value limit) fun items => ∀ v ∈ items, v.Distinct := by
  induction limit with
  | zero => exact yields_failure
  | succ limit ih =>
    refine yields_next fun _ => yields_next fun next => yields_ite ?_ ?_
    · exact yields_next fun _ => yields_pure nofun
    · refine yields_bind hvalue fun v hv => yields_next fun _ => yields_next fun next =>
        yields_ite ?_ ?_
      · exact yields_next fun _ => yields_bind ih fun rest hrest =>
          yields_pure (List.forall_mem_cons.2 ⟨hv, hrest⟩)
      · exact yields_next fun _ => yields_pure (List.forall_mem_singleton.2 hv)

theorem yields_pairWith (hvalue : Yields value Value.Distinct) :
    Yields (pairWith value) fun p => p.value.Distinct :=
  yields_next fun _ => yields_next fun _ => yields_next fun _ =>
    yields_bind hvalue fun _ hv => yields_pure hv

theorem yields_inlinePairs (hvalue : Yields value Value.Distinct) (limit : Nat) :
    Yields (inlinePairs value limit) fun pairs => ∀ p ∈ pairs, p.value.Distinct := by
  induction limit with
  | zero => exact yields_failure
  | succ limit ih =>
    refine yields_bind (yields_pairWith hvalue) fun p hp => yields_next fun _ =>
      yields_next fun next => yields_ite ?_ ?_
    · exact yields_next fun _ => yields_bind ih fun rest hrest =>
        yields_pure (List.forall_mem_cons.2 ⟨hp, hrest⟩)
    · exact yields_next fun _ => yields_pure (List.forall_mem_singleton.2 hp)

theorem yields_inlineTable (hvalue : Yields value Value.Distinct) :
    Yields (inlineTable value) fun entries =>
      ∀ span, (Value.table span .inline entries).Distinct := by
  refine yields_next fun _ => yields_next fun _ => yields_next fun next => yields_ite ?_ ?_
  · exact yields_next fun _ => yields_pure fun span => Table.distinct_empty span .inline
  · refine yields_next fun _ => yields_bind (yields_inlinePairs hvalue _) fun pairs hpairs => ?_
    split
    · exact yields_failure
    · next t ht =>
      obtain ⟨hkeys, hentries⟩ :=
        Table.distinct_iff.1 ((Table.distinct_empty ..).addPairs hpairs ht)
      exact yields_pure fun span => .table span .inline hkeys hentries

end Nested

theorem yields_valueWithin (depth : Nat) : Yields (valueWithin depth) Value.Distinct := by
  induction depth with
  | zero => exact yields_scalar
  | succ depth ih =>
    refine yields_next fun next => ?_
    split
    · have hitems : Yields (do char '['; arrayItems (valueWithin depth) ((← get).rest.length + 1))
          fun items => ∀ v ∈ items, v.Distinct :=
        yields_next fun _ => yields_next fun _ => yields_arrayItems ih _
      exact yields_bind (yields_located hitems) fun a ha => yields_pure (.array a.1 ha)
    · exact yields_bind (yields_located (yields_inlineTable ih)) fun a ha => yields_pure (ha _)
    · exact yields_scalar

theorem yields_pair : Yields pair fun p => p.value.Distinct :=
  yields_bind (yields_pairWith (yields_valueWithin _)) fun _ hp => yields_next fun _ =>
    yields_pure hp

theorem yields_pairs : Yields pairs fun pairs => ∀ p ∈ pairs, p.value.Distinct :=
  yields_many <| yields_bind yields_pair fun _ hp => yields_next fun _ => yields_pure hp

theorem yields_document : Yields document fun t? => ∀ t ∈ t?, t.Distinct := by
  have hsection : Yields (do let s ← header; between; return { s with pairs := ← pairs })
      fun s => ∀ p ∈ s.pairs, p.value.Distinct :=
    yields_next fun _ => yields_next fun _ => yields_bind yields_pairs fun _ hpairs =>
      yields_pure hpairs
  refine yields_next fun _ => yields_next fun _ => yields_bind yields_pairs fun top htop =>
    yields_bind (yields_many hsection) fun sections hsections => yields_next fun _ =>
      yields_next fun _ => yields_pure fun t ht => ?_
  exact Table.distinct_ofSections? htop hsections ht

theorem distinct_of_parse {text : String} {t : Table} (h : parse text = some t) : t.Distinct := by
  obtain ⟨⟨t?, c⟩, hread, ht⟩ := Option.bind_eq_some_iff.1 h
  exact yields_document _ t? c hread t ht

end C4.Toml
