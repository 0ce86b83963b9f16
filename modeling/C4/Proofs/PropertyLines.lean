import C4.Dsl.Element
import C4.Proofs.Calls
import C4.Proofs.Decoding
import Mathlib.Data.List.Sort

/-!
# Property lines

Whatever is written under the keys of a property map, and in whatever order, only the value that was
written last under each key is left, and the block shows exactly that: one line for each key, in the
order of the bytes of the keys. Bare and quoted keys are never taken for one another, and no value
can pass for the end of its line, the line feeds in it notwithstanding.
-/
namespace C4

open Dsl

def bytesOf (text : String) : List UInt8 := text.toUTF8.data.toList

theorem bytesOf_eq (text : String) :
    bytesOf text = text.toList.flatMap String.utf8EncodeChar := by
  rw [bytesOf, String.toUTF8_eq_toByteArray, ← String.utf8Encode_toList, List.utf8Encode,
    List.toList_data_toByteArray]

theorem byte_cons_lt {a b : ℕ} (ha : a < 256) (hb : b < 256) {rest more : List UInt8} :
    UInt8.ofNat a :: rest < UInt8.ofNat b :: more ↔ a < b ∨ a = b ∧ rest < more := by
  rw [List.cons_lt_cons_iff, UInt8.lt_iff_toNat_lt, ← UInt8.toNat_inj, UInt8.toNat_ofNat',
    UInt8.toNat_ofNat', Nat.mod_eq_of_lt ha, Nat.mod_eq_of_lt hb]

theorem encoded_lt {c d : Char} (h : c < d) (rest more : List UInt8) :
    String.utf8EncodeChar c ++ rest < String.utf8EncodeChar d ++ more := by
  have hval : c.val.toNat < d.val.toNat := h
  have hmax : d.val.toNat < 1114112 := by
    rcases d.valid with hd | hd <;> omega
  rw [String.utf8EncodeChar.eq_1, String.utf8EncodeChar.eq_1]
  generalize c.val.toNat = v at hval ⊢
  generalize d.val.toNat = w at hval hmax ⊢
  have hdigit (v w : ℕ) : v < w → v / 64 < w / 64 ∨ v / 64 = w / 64 ∧ v % 64 < w % 64 := by
    omega
  have hlow := hdigit v w hval
  have hmiddle := hdigit (v / 64) (w / 64)
  have hhigh := hdigit (v / 4096) (w / 4096)
  simp only [Nat.div_div_eq_div_mul, Nat.reduceMul] at hmiddle hhigh
  have hlead : v / 262144 % 8 = v / 262144 ∧ w / 262144 % 8 = w / 262144 := by omega
  -- The first byte tells how many there are; with as many of them, each has six bits of the rest.
  split_ifs <;> simp (disch := omega) only [List.cons_append, byte_cons_lt] <;> omega

/-- Texts are in the order of their bytes. -/
theorem bytesOf_lt {text other : String} (h : text < other) : bytesOf text < bytesOf other := by
  have hlists {chars others : List Char} (h : chars < others) :
      chars.flatMap String.utf8EncodeChar < others.flatMap String.utf8EncodeChar := by
    induction chars generalizing others with
    | nil =>
      cases others with
      | nil => exact absurd h (List.not_lt_nil [])
      | cons d others =>
        obtain ⟨byte, bytes, hbytes⟩ :=
          List.exists_cons_of_ne_nil (String.utf8EncodeChar_ne_nil (c := d))
        rw [List.flatMap_cons, hbytes]
        exact List.nil_lt_cons ..
    | cons c chars ih =>
      cases others with
      | nil => exact absurd h (List.not_lt_nil _)
      | cons d others =>
        rw [List.flatMap_cons, List.flatMap_cons]
        rcases List.cons_lt_cons_iff.1 h with hcd | ⟨rfl, hrest⟩
        · exact encoded_lt hcd _ _
        · exact List.append_left_lt (ih hrest)
  rw [bytesOf_eq, bytesOf_eq]
  exact hlists h

namespace Properties

def lastWritten (writes : List (String × String)) (key : String) : Option String :=
  writes.reverse.lookup key

theorem lookup_cons_eq (key value other : String) (rest : List (String × String)) :
    ((key, value) :: rest).lookup other =
      if other = key then some value else rest.lookup other := by
  rw [List.lookup_cons]
  by_cases h : other = key
  · rw [if_pos h, beq_iff_eq.2 h]
  · rw [if_neg h, beq_eq_false_iff_ne.2 h]

theorem lookup_insertEntry (key value other : String) (entries : List (String × String)) :
    (insertEntry key value entries).lookup other =
      if other = key then some value else entries.lookup other := by
  induction entries with
  | nil => rw [insertEntry, lookup_cons_eq]
  | cons entry rest ih =>
    obtain ⟨k, v⟩ := entry
    unfold insertEntry
    split
    · rw [lookup_cons_eq]
    · split
      · next hkey =>
        rw [lookup_cons_eq, lookup_cons_eq, ← hkey]
        split <;> rfl
      · next hkey =>
        rw [lookup_cons_eq, lookup_cons_eq, ih]
        -- The entry that is passed on the way has another key.
        by_cases hk : other = k
        · have hother : other ≠ key := fun h => hkey (h.symm.trans hk)
          rw [if_pos hk, if_neg hother, if_pos hk]
        · rw [if_neg hk, if_neg hk]

theorem lookup_ofList (writes : List (String × String)) (key : String) :
    (ofList writes).entries.lookup key = lastWritten writes key := by
  induction writes using List.reverseRecOn with
  | nil => rfl
  | append_singleton writes write ih =>
    have hlast : ofList (writes ++ [write]) = (ofList writes).insert write.1 write.2 :=
      List.foldl_append
    rw [hlast, insert, lookup_insertEntry, ih, lastWritten, lastWritten, List.reverse_concat,
      lookup_cons_eq]

theorem mem_iff_lookup {entries : List (String × String)} (h : Ascending entries)
    {key value : String} : (key, value) ∈ entries ↔ entries.lookup key = some value := by
  induction entries with
  | nil => simp
  | cons entry rest ih =>
    obtain ⟨k, v⟩ := entry
    obtain ⟨hk, hrest⟩ := List.pairwise_cons.1 h
    rw [lookup_cons_eq, List.mem_cons, Prod.mk.injEq, ih hrest]
    by_cases hkey : key = k
    · subst hkey
      have hout : rest.lookup key ≠ some value :=
        fun hmem => String.lt_irrefl key (hk _ ((ih hrest).2 hmem))
      rw [if_pos rfl, Option.some.injEq]
      simp [hout, eq_comm]
    · rw [if_neg hkey]
      simp [hkey]

theorem eq_of_entries {p q : Properties} (h : p.entries = q.entries) : p = q := by
  cases p
  cases q
  cases h
  rfl

theorem eq_of_lookup {p q : Properties}
    (h : ∀ key, p.entries.lookup key = q.entries.lookup key) : p = q := by
  obtain ⟨entries, hascending⟩ := p
  obtain ⟨others, hothers⟩ := q
  have : Std.Irrefl fun a b : String × String => a.1 < b.1 := ⟨fun a => String.lt_irrefl a.1⟩
  have : Std.Antisymm fun a b : String × String => a.1 < b.1 :=
    ⟨fun a b hab hba => absurd hba (String.lt_asymm hab)⟩
  have hmem : ∀ e, e ∈ entries ↔ e ∈ others := by
    rintro ⟨key, value⟩
    rw [mem_iff_lookup hascending, mem_iff_lookup hothers, h]
  exact eq_of_entries (List.Pairwise.eq_of_mem_iff hascending hothers hmem)

theorem ofList_eq_iff (writes writes' : List (String × String)) :
    ofList writes = ofList writes' ↔
      ∀ key, lastWritten writes key = lastWritten writes' key := by
  constructor
  · intro h key
    rw [← lookup_ofList, ← lookup_ofList, h]
  · intro h
    refine eq_of_lookup fun key => ?_
    rw [lookup_ofList, lookup_ofList, h]

theorem mem_keys_ofList {writes : List (String × String)} {key : String} :
    key ∈ (ofList writes).entries.map (·.1) ↔ key ∈ writes.map (·.1) := by
  have hsome (entries : List (String × String)) :
      key ∈ entries.map (·.1) ↔ (entries.lookup key).isSome := by
    rw [List.lookup_isSome_iff, List.mem_map]
    simp only [beq_iff_eq, eq_comm (a := key)]
  rw [hsome, lookup_ofList, lastWritten, ← hsome, List.map_reverse, List.mem_reverse]

theorem ofList_eq_empty {writes : List (String × String)} :
    ofList writes = empty ↔ writes = [] := by
  constructor
  · intro h
    refine List.eq_nil_iff_forall_not_mem.2 fun write hwrite => ?_
    have hkey := mem_keys_ofList.2 (List.mem_map_of_mem (f := Prod.fst) hwrite)
    rw [h] at hkey
    exact List.not_mem_nil hkey
  · rintro rfl
    rfl

end Properties

namespace Dsl

def needsQuotes (key : String) : Bool :=
  key.isEmpty || key.toList.any fun c => Text.isBlank c || c = '"'

def propertyPieces (gap : List Char) (entry : String × String) : List (List Char × List Char) :=
  if needsQuotes entry.1 then [(gap, entry.1.toList), ([' '], entry.2.toList)]
  else [(gap ++ entry.1.toList ++ [' '], entry.2.toList)]

theorem quoteless_of_bare {key : String} (h : ¬ needsQuotes key) : '"' ∉ key.toList := by
  intro hmem
  refine h (Bool.or_eq_true_iff.2 (Or.inr (List.any_eq_true.2 ⟨'"', hmem, ?_⟩)))
  simp

theorem plain_propertyPieces {gap : List Char} (hgap : Plain gap) (entry : String × String) :
    ∀ p ∈ propertyPieces gap entry, Plain p.1 := by
  unfold propertyPieces
  split
  · simp only [List.forall_mem_cons]
    exact ⟨hgap, by decide, List.forall_mem_nil _⟩
  · next hbare =>
    refine List.forall_mem_singleton.2 (plain_append_blank ?_)
    exact fun hmem => (List.mem_append.1 hmem).elim hgap.quoteless (quoteless_of_bare hbare)

theorem propertyPieces_append_inj {gap : List Char} {entry other : String × String}
    {pieces pieces' : List (List Char × List Char)}
    (h : propertyPieces gap entry ++ pieces = propertyPieces gap other ++ pieces') :
    entry = other ∧ pieces = pieces' := by
  obtain ⟨key, value⟩ := entry
  obtain ⟨key', value'⟩ := other
  unfold propertyPieces at h
  split at h <;> split at h
  · simpa [and_assoc, String.toList_inj] using h
  · simp at h
  · simp at h
  · simpa [and_assoc, String.toList_inj] using h

theorem interleave_append (pieces more : List (List Char × List Char)) (stop : List Char) :
    interleave (pieces ++ more) stop = interleave pieces (interleave more stop) := by
  induction pieces with
  | nil => rfl
  | cons p pieces ih => rw [List.cons_append, interleave, interleave, ih]

theorem propertyLine_eq_interleave (gap rest : List Char) (entry : String × String) :
    gap ++ (propertyLine entry).toList ++ rest =
      interleave (propertyPieces gap entry) rest := by
  have hkey : propertyKey entry.1 = if needsQuotes entry.1 then quote entry.1 else entry.1 := rfl
  have hblank : " ".toList = [' '] := rfl
  rw [propertyLine, hkey, propertyPieces]
  split <;> simp [interleave, toList_quote, hblank]

theorem rows_eq_interleave (gap stop : List Char) (entries : List (String × String)) :
    (entries.flatMap fun entry => gap ++ (propertyLine entry).toList) ++ stop =
      interleave (entries.flatMap (propertyPieces gap)) stop := by
  induction entries with
  | nil => rfl
  | cons entry rest ih =>
    rw [List.flatMap_cons, List.flatMap_cons, interleave_append, ← ih, List.append_assoc,
      propertyLine_eq_interleave]

theorem rows_inj {gap stop : List Char} (hgap : Plain gap) (hstop : '"' ∉ stop)
    {entries others : List (String × String)}
    (h : (entries.flatMap fun entry => gap ++ (propertyLine entry).toList) ++ stop =
      (others.flatMap fun entry => gap ++ (propertyLine entry).toList) ++ stop) :
    entries = others := by
  have hplain (entries : List (String × String)) :
      ∀ p ∈ entries.flatMap (propertyPieces gap), Plain p.1 := by
    intro p hp
    obtain ⟨entry, -, hp⟩ := List.mem_flatMap.1 hp
    exact plain_propertyPieces hgap entry p hp
  rw [rows_eq_interleave, rows_eq_interleave] at h
  obtain ⟨hpieces, -⟩ := interleave_inj hstop hstop (hplain entries) (hplain others) h
  clear h
  have hne (entry : String × String) (rest : List (List Char × List Char)) :
      propertyPieces gap entry ++ rest ≠ [] := by
    unfold propertyPieces
    split <;> simp
  induction entries generalizing others with
  | nil =>
    cases others with
    | nil => rfl
    | cons other others => exact absurd hpieces.symm (hne other _)
  | cons entry entries ih =>
    cases others with
    | nil => exact absurd hpieces (hne entry _)
    | cons other others =>
      obtain ⟨rfl, hrest⟩ := propertyPieces_append_inj hpieces
      rw [ih hrest]

def propertyCalls (subject : Subject) (properties : Properties) : List Directive :=
  callsOf (propertyScript subject properties)

theorem callsOf_lines {α : Type*} (subject : Subject) (text : α → String) (l : List α)
    (rest : Script) : callsOf (l.flatMap (fun a => Script.line subject (text a)) ++ rest) =
      l.map (.line <| text ·) ++ callsOf rest := by
  induction l with
  | nil => rfl
  | cons a l ih => exact congrArg (.line (text a) :: ·) ih

theorem propertyCalls_eq (subject : Subject) (properties : Properties) :
    propertyCalls subject properties =
      if properties.entries = [] then []
      else .opening "properties" :: (properties.entries.map (.line <| propertyLine ·) ++
        [.closing]) := by
  unfold propertyCalls propertyScript
  simp only [Properties.isEmpty, List.isEmpty_iff]
  split
  · rfl
  · rw [List.append_assoc]
    exact congrArg (.opening "properties" :: ·)
      (callsOf_lines subject propertyLine properties.entries (Script.closing subject))

def rowGap (width depth : ℕ) : List Char := '\n' :: List.replicate (depth * width) ' '

theorem plain_rowGap (width depth : ℕ) : Plain (rowGap width depth) where
  quoteless := by simp [rowGap]
  harmless := decide_eq_false fun h => by simpa [rowGap] using List.mem_of_getLast? h

theorem join_rowsFrom (width depth : ℕ) (texts : List String) :
    '\n' :: (String.join (rowsFrom width depth (texts.map .line ++ [.closing]))).toList =
      (texts.flatMap fun text => rowGap width depth ++ text.toList) ++
        (rowGap width (depth - 1) ++ ['\x7d', '\n']) := by
  induction texts with
  | nil => simp [rowsFrom, Directive.row, Directive.level, Directive.content, rowGap]
  | cons text texts ih =>
    rw [List.map_cons, List.cons_append, rowsFrom, String.join_cons, List.flatMap_cons,
      List.append_assoc, ← ih]
    simp [Directive.row, Directive.level, Directive.content, Directive.depthAfter, rowGap]

theorem toList_join_propertyCalls (subject : Subject) {properties : Properties}
    (h : properties.entries ≠ []) (width depth : ℕ) :
    '\n' :: (String.join (rowsFrom width depth (propertyCalls subject properties))).toList =
      rowGap width depth ++ "properties \x7b".toList ++
        ((properties.entries.flatMap fun entry =>
            rowGap width (depth + 1) ++ (propertyLine entry).toList) ++
          (rowGap width depth ++ ['\x7d', '\n'])) := by
  have hrows := join_rowsFrom width (depth + 1) (properties.entries.map propertyLine)
  rw [List.map_map, List.flatMap_map, Nat.add_sub_cancel] at hrows
  rw [propertyCalls_eq, if_neg h, rowsFrom, String.join_cons, ← hrows]
  simp [Directive.row, Directive.level, Directive.content, Directive.depthAfter, rowGap,
    Function.comp_def]

theorem join_propertyCalls_eq_empty {subject : Subject} {properties : Properties}
    {width depth : ℕ} :
    String.join (rowsFrom width depth (propertyCalls subject properties)) = "" ↔
      properties.entries = [] := by
  constructor
  · intro h
    by_contra hne
    have htext := toList_join_propertyCalls subject hne width depth
    rw [h] at htext
    simp [rowGap] at htext
  · intro h
    rw [propertyCalls_eq, if_pos h]
    rfl

theorem join_propertyCalls_inj {subject : Subject} {p q : Properties} {width depth : ℕ} :
    String.join (rowsFrom width depth (propertyCalls subject p)) =
      String.join (rowsFrom width depth (propertyCalls subject q)) ↔ p = q := by
  constructor
  · intro h
    have hnil : p.entries = [] ↔ q.entries = [] := by
      rw [← join_propertyCalls_eq_empty, h, join_propertyCalls_eq_empty]
    refine Properties.eq_of_entries ?_
    by_cases hp : p.entries = []
    · rw [hp, hnil.1 hp]
    · have htexts := congrArg (fun text : String => '\n' :: text.toList) h
      simp only [toList_join_propertyCalls subject hp,
        toList_join_propertyCalls subject (mt hnil.2 hp)] at htexts
      exact rows_inj (plain_rowGap width (depth + 1)) (by simp [rowGap])
        (List.append_cancel_left htexts)
  · exact congrArg fun p => String.join (rowsFrom width depth (propertyCalls subject p))

theorem propertyCalls_inj {subject : Subject} {p q : Properties} :
    propertyCalls subject p = propertyCalls subject q ↔ p = q := by
  constructor
  · intro h
    exact join_propertyCalls_inj.1 (congrArg (fun calls => String.join (rowsFrom 0 0 calls)) h)
  · exact congrArg (propertyCalls subject)

end Dsl

open Properties in
/-- The block of a map is a function of the map that the writes leave, and the map can be told from
it. It has a line for each key that was written, with the last value under it. -/
theorem propertyBlock_canonical (subject : Subject) (writes writes' : List (String × String)) :
    let calls := propertyCalls subject (ofList writes)
    let calls' := propertyCalls subject (ofList writes')
    let text := fun width depth => String.join (rowsFrom width depth calls)
    let text' := fun width depth => String.join (rowsFrom width depth calls')
    (ofList writes = ofList writes' ↔
      ∀ key, lastWritten writes key = lastWritten writes' key) ∧
    (calls = calls' ↔ ofList writes = ofList writes') ∧
    (∀ width depth, text width depth = text' width depth ↔ ofList writes = ofList writes') ∧
    (calls = [] ↔ writes = []) ∧
    (∀ width depth, text width depth = "" ↔ writes = []) ∧
    ∃ entries : List (String × String),
      (∀ key value, (key, value) ∈ entries ↔ lastWritten writes key = some value) ∧
      (∀ key, key ∈ entries.map (·.1) ↔ key ∈ writes.map (·.1)) ∧
      entries.Pairwise (fun a b => bytesOf a.1 < bytesOf b.1) ∧
      calls = if writes = [] then []
        else .opening "properties" ::
          (entries.map (fun (key, value) => .line (propertyKey key ++ " " ++ quote value)) ++
            [.closing]) := by
  intro calls calls' text text'
  have hempty : (ofList writes).entries = [] ↔ writes = [] :=
    Iff.trans ⟨eq_of_entries (q := empty), congrArg Properties.entries⟩ ofList_eq_empty
  refine ⟨ofList_eq_iff .., propertyCalls_inj, fun _ _ => join_propertyCalls_inj,
    (propertyCalls_inj (q := .empty)).trans ofList_eq_empty,
    fun _ _ => join_propertyCalls_eq_empty.trans hempty,
    (ofList writes).entries, fun key value => ?_, fun key => mem_keys_ofList,
    (ofList writes).ascending.imp bytesOf_lt, ?_⟩
  · rw [mem_iff_lookup (ofList writes).ascending, lookup_ofList]
  · simp only [← hempty]
    exact propertyCalls_eq subject (ofList writes)

end C4
