import C4.Proofs.StyleTables

/-!
# Themes that are read

A theme is read from a table that has a value for all that the theme states, and for nothing else.
So it is read back from the table that is written for it.
-/
namespace C4.Theme

open Toml

inductive About
  | name (text : String)
  | description (text : String)
deriving DecidableEq

namespace About

def key : About → String
  | .name _ => "name"
  | .description _ => "description"

def SaidBy (v : Value) : About → Prop
  | .name text => SaysText v text
  | .description text => SaysText v text

def put (m : Option String × Option String) : About → Option String × Option String
  | .name text => (some text, m.2)
  | .description text => (m.1, some text)

def said (m : Option String × Option String) : List About :=
  (m.1.map .name).toList ++ (m.2.map .description).toList

section Statements

variable {m : Option String × Option String}

@[simp] theorem name_mem_said {text : String} : .name text ∈ said m ↔ m.1 = some text := by
  simp [said]

@[simp] theorem description_mem_said {text : String} :
    .description text ∈ said m ↔ m.2 = some text := by
  simp [said]

theorem put_eq_self_iff {a : About} : put m a = m ↔ a ∈ said m := by
  cases a <;> simp [put, Prod.ext_iff, eq_comm]

end Statements

theorem sound_fields : ∀ x ∈ about.fields, ∀ span v, v.Distinct → ∀ m m',
    x.store span v m = .ok m' → ∃ a, key a = x.name ∧ SaidBy v a ∧ put m a = m' := by
  simp only [about, List.forall_mem_cons]
  exact ⟨sound_field _ _ _ exact_text .name (fun _ => rfl) (fun _ _ h => h) fun _ _ => rfl,
    sound_field _ _ _ exact_text .description (fun _ => rfl) (fun _ _ h => h) fun _ _ => rfl,
    List.forall_mem_nil _⟩

def wording : Wording about About where
  name := key
  Says := SaidBy
  put := put
  said := said
  names_nodup := by decide
  moment_not_mem := by decide
  sound := sound_fields
  complete a := by
    cases a <;> exact complete_field _ rfl exact_text (fun _ h => h) fun _ => rfl
  put_self m a := by cases a <;> rfl
  put_comm m a b h := by
    cases a <;> cases b <;> first | rfl | exact absurd rfl h
  said_blank := rfl
  of_mem_said_put m a b hb := by
    cases a <;> cases b <;> simp_all [put]
  ext m m' h h' := by
    simp only [put_eq_self_iff] at h h'
    have hsame (a : About) : a ∈ said m ↔ a ∈ said m' := ⟨h a, h' a⟩
    refine Prod.ext (Option.ext fun text => ?_) (Option.ext fun text => ?_)
    · simpa using hsame (.name text)
    · simpa using hsame (.description text)

end About

inductive Part
  | about (m : Option String × Option String)
  | elements (styles : List ElementStyle)
  | relationships (styles : List RelationshipStyle)
deriving DecidableEq

namespace Part

def key : Part → String
  | .about _ => "metadata"
  | .elements _ => "element"
  | .relationships _ => "relationship"

def SaidBy (v : Value) : Part → Prop
  | .about m => About.wording.ToldBy v m
  | .elements styles => SaysList ElementStyle.wording.ToldBy v styles
  | .relationships styles => SaysList RelationshipStyle.wording.ToldBy v styles

def put (t : Theme) : Part → Theme
  | .about m => { t with name := m.1, description := m.2 }
  | .elements styles => { t with styles := { t.styles with elements := styles } }
  | .relationships styles => { t with styles := { t.styles with relationships := styles } }

def of (t : Theme) : List Part :=
  [.about (t.name, t.description), .elements t.styles.elements,
    .relationships t.styles.relationships]

def said (t : Theme) : List Part := (of t).filter (· ∉ of theme.blank)

section Statements

variable {t t' : Theme} {p q : Part}

theorem put_eq_self_iff : put t p = t ↔ p ∈ of t := by
  obtain ⟨name, description, elements, relationships⟩ := t
  cases p <;> simp [put, of, Prod.ext_iff, eq_comm]

theorem eq_of_mem_of (hp : p ∈ of t) (hq : q ∈ of t) (hkey : key p = key q) : p = q := by
  cases p <;> cases q <;> simp_all [of, key]

theorem exists_mem_of (t : Theme) (p : Part) : ∃ q ∈ of t, key q = key p := by
  cases p <;> simp [of, key]

theorem eq_of_forall_mem_of (h : ∀ p ∈ of t, p ∈ of t') : t = t' := by
  obtain ⟨name, description, elements, relationships⟩ := t
  obtain ⟨name', description', elements', relationships'⟩ := t'
  simp_all [of]

theorem mem_of_of_said (h : ∀ p ∈ said t, p ∈ of t') (h' : ∀ p ∈ said t', p ∈ of t)
    (hp : p ∈ of t) : p ∈ of t' := by
  by_cases hblank : p ∈ of theme.blank
  · obtain ⟨q, hq, hkey⟩ := exists_mem_of t' p
    by_cases hqblank : q ∈ of theme.blank
    · exact eq_of_mem_of hqblank hblank hkey ▸ hq
    · have hqt : q ∈ of t := h' q (List.mem_filter.2 ⟨hq, by simpa using hqblank⟩)
      exact eq_of_mem_of hqt hp hkey ▸ hq
  · exact h p (List.mem_filter.2 ⟨hp, by simpa using hblank⟩)

theorem of_mem_of_put (hq : q ∈ of (put t p)) : q ∈ of t ∨ q = p := by
  cases p <;> cases q <;> simp_all [of, put]

end Statements

theorem exact_elements :
    Exact (listOf elementStyle.decode) (SaysList ElementStyle.wording.ToldBy) :=
  exact_listOf ElementStyle.wording.exact_decode

theorem exact_relationships :
    Exact (listOf relationshipStyle.decode) (SaysList RelationshipStyle.wording.ToldBy) :=
  exact_listOf RelationshipStyle.wording.exact_decode

theorem sound_fields : ∀ x ∈ theme.fields, ∀ span v, v.Distinct → ∀ t t',
    x.store span v t = .ok t' → ∃ p, key p = x.name ∧ SaidBy v p ∧ put t p = t' := by
  simp only [theme, List.forall_mem_cons]
  exact ⟨sound_field _ _ _ About.wording.exact_decode .about (fun _ => rfl) (fun _ _ h => h)
      fun _ _ => rfl,
    sound_field _ _ _ exact_elements .elements (fun _ => rfl) (fun _ _ h => h) fun _ _ => rfl,
    sound_field _ _ _ exact_relationships .relationships (fun _ => rfl) (fun _ _ h => h)
      fun _ _ => rfl,
    List.forall_mem_nil _⟩

theorem complete_fields (p : Part) :
    ∃ x, theme.fields.find? (fun x => x.name = key p) = some x ∧
      ∀ span v, v.Distinct → SaidBy v p → ∀ t, x.store span v t = .ok (put t p) := by
  cases p with
  | about m =>
    exact complete_field _ rfl About.wording.exact_decode (fun _ h => h) fun _ => rfl
  | elements styles => exact complete_field _ rfl exact_elements (fun _ h => h) fun _ => rfl
  | relationships styles =>
    exact complete_field _ rfl exact_relationships (fun _ h => h) fun _ => rfl

def wording : Wording theme Part where
  name := key
  Says := SaidBy
  put := put
  said := said
  names_nodup := by decide
  moment_not_mem := by decide
  sound := sound_fields
  complete := complete_fields
  put_self t p := by cases p <;> rfl
  put_comm t p q h := by
    cases p <;> cases q <;> first | rfl | exact absurd rfl h
  said_blank := by simp [said]
  of_mem_said_put t p q hq := by
    obtain ⟨hq, hnew⟩ := List.mem_filter.1 hq
    exact (of_mem_of_put hq).imp_left fun hold => List.mem_filter.2 ⟨hold, hnew⟩
  ext t t' h h' := by
    simp only [put_eq_self_iff] at h h'
    exact eq_of_forall_mem_of fun p hp => mem_of_of_said h h' hp

end Part

section Written

variable {ρ α : Type} {s : Schema ρ} (w : Wording s α)

theorem toldBy_tableOf {entries : List (Key × Value)} {r : ρ} (h : w.Tells (pairsOf entries) r) :
    w.ToldBy (tableOf entries) r :=
  ⟨pairsOf entries, rfl, h, .inr nofun⟩

variable {encode : ρ → List (Key × Value)}

theorem saysList_tables (h : ∀ r, w.Tells (pairsOf (encode r)) r) (records : List ρ) :
    SaysList w.ToldBy (.tables ((records.map encode).map tableOf)) records := by
  refine ⟨_, rfl, ?_⟩
  rw [List.map_map, List.forall₂_map_left_iff, List.forall₂_same]
  exact fun r _ => toldBy_tableOf w (h r)

theorem distinct_tables (h : ∀ r, (tableOf (encode r)).Distinct) (records : List ρ) :
    (Value.tables ((records.map encode).map tableOf)).Distinct := by
  refine .tables fun v hv => ?_
  rw [List.map_map] at hv
  obtain ⟨r, -, rfl⟩ := List.mem_map.1 hv
  exact h r

theorem mem_listing {name : String} {styles : List (List (Key × Value))} {e : Key × Value} :
    e ∈ listing name styles ↔ styles ≠ [] ∧ e = entry name (.tables (styles.map tableOf)) := by
  cases styles <;> simp [listing]

end Written

theorem tells_aboutEntries (t : Theme) :
    About.wording.Tells (pairsOf t.aboutEntries) (t.name, t.description) := by
  have hmem {e : Key × Value} : e ∈ t.aboutEntries ↔
      (∃ text, t.name = some text ∧ textEntry "name" text = e) ∨
        ∃ text, t.description = some text ∧ textEntry "description" text = e := by
    simp [aboutEntries]
  refine About.wording.tells_of_said (fun p hp => ?_) fun a ha => ?_
  · obtain ⟨e, he, rfl⟩ := List.mem_map.1 hp
    rcases hmem.1 he with ⟨text, ht, rfl⟩ | ⟨text, ht, rfl⟩
    · exact ⟨.name text, rfl, ⟨_, rfl⟩, About.put_eq_self_iff.2 (About.name_mem_said.2 ht)⟩
    · exact ⟨.description text, rfl, ⟨_, rfl⟩,
        About.put_eq_self_iff.2 (About.description_mem_said.2 ht)⟩
  · cases a with
    | name text =>
      have he := hmem.2 (.inl ⟨text, About.name_mem_said.1 ha, rfl⟩)
      exact ⟨_, List.mem_map_of_mem he, rfl, _, rfl⟩
    | description text =>
      have he := hmem.2 (.inr ⟨text, About.description_mem_said.1 ha, rfl⟩)
      exact ⟨_, List.mem_map_of_mem he, rfl, _, rfl⟩

theorem distinct_aboutEntries (t : Theme) : (tableOf t.aboutEntries).Distinct := by
  obtain ⟨name, description, styles⟩ := t
  have hvalue (name text : String) : (textEntry name text).2.Distinct := .string ..
  refine .table _ _ ?_ ?_
  · cases name <;> cases description <;> simp [aboutEntries, textEntry, entry]
  · cases name <;> cases description <;> simp [aboutEntries, hvalue]

section Elements

theorem key_elementEntry (a : ElementStyle.Attribute) :
    (elementEntry a).1.text = ElementStyle.lexicon.key a := by
  cases a <;> rfl

theorem says_elementEntry (a : ElementStyle.Attribute) :
    ElementStyle.lexicon.Says (elementEntry a).2 a := by
  cases a with
  | shape _ | borderStyle _ => exact .inl ⟨_, rfl⟩
  | position x y => exact ⟨_, _, [], rfl, ⟨_, rfl⟩, ⟨_, rfl⟩⟩
  | icons sources =>
    refine ⟨_, rfl, ?_⟩
    rw [List.forall₂_map_left_iff, List.forall₂_same]
    exact fun source _ => ⟨_, rfl⟩
  | _ => exact ⟨_, rfl⟩

theorem distinct_elementEntry (a : ElementStyle.Attribute) : (elementEntry a).2.Distinct := by
  cases a with
  | position x y => exact .array _ (by simpa using ⟨.integer .., .integer ..⟩)
  | icons sources => exact .array _ (by simpa using fun source _ => .string nowhere source)
  | metadata _ | description _ | shadow _ => exact .boolean ..
  | width _ | height _ | opacity _ | fontSize _ | border _ | strokeWidth _ => exact .integer ..
  | zIndex _ | rotation _ => exact .integer ..
  | _ => exact .string ..

theorem tells_elementEntries (s : ElementStyle) :
    ElementStyle.wording.Tells (pairsOf (elementEntries s)) s :=
  ElementStyle.wording.tells_of_said
    (ElementStyle.lexicon.written_entriesOf key_elementEntry says_elementEntry s)
    (ElementStyle.lexicon.unset_entriesOf key_elementEntry says_elementEntry s)

theorem distinct_elementEntries (s : ElementStyle) : (tableOf (elementEntries s)).Distinct :=
  .table _ _ (ElementStyle.lexicon.nodup_entriesOf key_elementEntry s)
    (ElementStyle.lexicon.distinct_entriesOf distinct_elementEntry s)

end Elements

section Relationships

theorem key_relationshipEntry (a : RelationshipStyle.Attribute) :
    (relationshipEntry a).1.text = RelationshipStyle.lexicon.key a := by
  cases a <;> rfl

theorem says_relationshipEntry (a : RelationshipStyle.Attribute) :
    RelationshipStyle.lexicon.Says (relationshipEntry a).2 a := by
  cases a with
  | lineStyle _ | routing _ | startTerminator _ | endTerminator _ => exact .inl ⟨_, rfl⟩
  | _ => exact ⟨_, rfl⟩

theorem distinct_relationshipEntry (a : RelationshipStyle.Attribute) :
    (relationshipEntry a).2.Distinct := by
  cases a with
  | opacity _ | thickness _ | fontSize _ | position _ => exact .integer ..
  | _ => exact .string ..

theorem tells_relationshipEntries (s : RelationshipStyle) :
    RelationshipStyle.wording.Tells (pairsOf (relationshipEntries s)) s :=
  RelationshipStyle.wording.tells_of_said
    (RelationshipStyle.lexicon.written_entriesOf key_relationshipEntry says_relationshipEntry s)
    (RelationshipStyle.lexicon.unset_entriesOf key_relationshipEntry says_relationshipEntry s)

theorem distinct_relationshipEntries (s : RelationshipStyle) :
    (tableOf (relationshipEntries s)).Distinct :=
  .table _ _ (RelationshipStyle.lexicon.nodup_entriesOf key_relationshipEntry s)
    (RelationshipStyle.lexicon.distinct_entriesOf distinct_relationshipEntry s)

end Relationships

section Theme

variable {t : Theme}

theorem mem_toTable {e : Key × Value} : e ∈ (toTable t).entries ↔
    e = entry "metadata" (tableOf t.aboutEntries) ∨
    (t.styles.elements ≠ [] ∧
      e = entry "element" (.tables ((t.styles.elements.map elementEntries).map tableOf))) ∨
    (t.styles.relationships ≠ [] ∧ e = entry "relationship"
      (.tables ((t.styles.relationships.map relationshipEntries).map tableOf))) := by
  rw [toTable, List.mem_cons, List.mem_append, mem_listing, mem_listing, Ne, Ne,
    List.map_eq_nil_iff, List.map_eq_nil_iff]

theorem tells_toTable (t : Theme) : Part.wording.Tells (pairsOf (toTable t).entries) t := by
  refine Part.wording.tells_of_said (fun p hp => ?_) fun p hp => ?_
  · obtain ⟨e, he, rfl⟩ := List.mem_map.1 hp
    rcases mem_toTable.1 he with rfl | ⟨-, rfl⟩ | ⟨-, rfl⟩
    · exact ⟨.about _, rfl, toldBy_tableOf _ (tells_aboutEntries t), rfl⟩
    · exact ⟨.elements _, rfl, saysList_tables _ tells_elementEntries _, rfl⟩
    · exact ⟨.relationships _, rfl, saysList_tables _ tells_relationshipEntries _, rfl⟩
  · obtain ⟨hp, hnew⟩ := List.mem_filter.1 hp
    cases p with
    | about m =>
      obtain rfl : m = (t.name, t.description) := by simpa [Part.of] using hp
      exact ⟨_, List.mem_map_of_mem (mem_toTable.2 (.inl rfl)), rfl,
        toldBy_tableOf _ (tells_aboutEntries t)⟩
    | elements styles =>
      obtain rfl : styles = t.styles.elements := by simpa [Part.of] using hp
      have hstyles : t.styles.elements ≠ [] := by
        intro h
        simp [h, Part.of, theme, Styles.empty] at hnew
      exact ⟨_, List.mem_map_of_mem (mem_toTable.2 (.inr (.inl ⟨hstyles, rfl⟩))), rfl,
        saysList_tables _ tells_elementEntries _⟩
    | relationships styles =>
      obtain rfl : styles = t.styles.relationships := by simpa [Part.of] using hp
      have hstyles : t.styles.relationships ≠ [] := by
        intro h
        simp [h, Part.of, theme, Styles.empty] at hnew
      exact ⟨_, List.mem_map_of_mem (mem_toTable.2 (.inr (.inr ⟨hstyles, rfl⟩))), rfl,
        saysList_tables _ tells_relationshipEntries _⟩

theorem distinct_toTable (t : Theme) : (toTable t).Distinct := by
  refine Table.distinct_iff.2 ⟨?_, fun e he => ?_⟩
  · simp only [toTable, listing]
    split <;> split <;> simp [entry]
  · rcases mem_toTable.1 he with rfl | ⟨-, rfl⟩ | ⟨-, rfl⟩
    · exact distinct_aboutEntries t
    · exact distinct_tables distinct_elementEntries _
    · exact distinct_tables distinct_relationshipEntries _

theorem ofTable_eq_ok_iff {table : Table} (h : table.Distinct) :
    ofTable table = .ok t ↔ Part.wording.Tells (pairsOf table.entries) t := by
  obtain ⟨hkeys, hentries⟩ := Table.distinct_iff.1 h
  refine Part.wording.ofEntries_eq_ok_iff ?_ hentries
  rw [pairsOf, List.map_map]
  exact hkeys

/-- A theme is read back from the table that is written for it. The table of a document, in which
no key is given twice, is read as the theme that states what is there and nothing else, and numbers
there that do not fit state nothing. -/
theorem decoding_exact :
    (∀ t : Theme, ofTable (toTable t) = .ok t) ∧
    (∀ table : Table, table.Distinct → ∀ t,
      ofTable table = .ok t ↔ Part.wording.Tells (pairsOf table.entries) t) ∧
    (∀ text table, parse text = some table → table.Distinct) ∧
    (∀ span n, ((∃ b, SaysByte (.integer span n) b) ↔ 0 ≤ n ∧ n < 256) ∧
      ((∃ b, SaysWord (.integer span n) b) ↔ 0 ≤ n ∧ n < 4294967296) ∧
      ((∃ b, SaysSignedWord (.integer span n) b) ↔ -2147483648 ≤ n ∧ n < 2147483648)) := by
  refine ⟨fun t => ?_, fun _ h _ => ofTable_eq_ok_iff h, fun _ _ => distinct_of_parse,
    fun span n => ⟨?_, ?_, ?_⟩⟩
  · exact (ofTable_eq_ok_iff (distinct_toTable t)).2 (tells_toTable t)
  · exact bytes.exists_saysNumber_iff
  · exact words.exists_saysNumber_iff
  · exact signedWords.exists_saysNumber_iff

/-- A document with a style of each kind, and one whose number is no byte. -/
theorem decoding_exact_over_styles :
    (∃ table, parse "[[element]]\nposition = [1, -2, 3]\n[[relationship]]\nopacity = 255" =
        some table ∧
      Part.wording.Tells (pairsOf table.entries)
        ⟨none, none, ⟨[(ElementStyle.create "").set (.position 1 (-2))],
          [(RelationshipStyle.create "").set (.opacity 255)]⟩⟩) ∧
    ∃ table, parse "[[relationship]]\nopacity = 256" = some table ∧
      ∀ t, ¬ Part.wording.Tells (pairsOf table.entries) t := by
  have hread : (parse "[[element]]\nposition = [1, -2, 3]\n[[relationship]]\nopacity = 255").map
      (fun table => (ofTable table).toOption) =
        some (some ⟨none, none, ⟨[(ElementStyle.create "").set (.position 1 (-2))],
          [(RelationshipStyle.create "").set (.opacity 255)]⟩⟩) := by decide +kernel
  have hrefused : (parse "[[relationship]]\nopacity = 256").map
      (fun table => (ofTable table).toOption) = some none := by decide +kernel
  obtain ⟨-, exact_of, distinct_of, -⟩ := decoding_exact
  constructor
  · obtain ⟨table, hparse, hsome⟩ := Option.map_eq_some_iff.1 hread
    refine ⟨table, hparse, (exact_of table (distinct_of _ _ hparse) _).1 ?_⟩
    cases hdecode : ofTable table with
    | error e => simp [hdecode, Except.toOption] at hsome
    | ok t => simpa [hdecode, Except.toOption] using hsome
  · obtain ⟨table, hparse, hnone⟩ := Option.map_eq_some_iff.1 hrefused
    refine ⟨table, hparse, fun t ht => ?_⟩
    rw [(exact_of table (distinct_of _ _ hparse) t).2 ht] at hnone
    cases hnone

end Theme

end C4.Theme
