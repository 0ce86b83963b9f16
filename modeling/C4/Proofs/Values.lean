import C4.Proofs.TableKeys
import C4.Theme.Attribute
import Mathlib.Data.List.Forall2

/-!
# Values that are read

What a value says as a text, a number or a choice, whatever its place in the document. A reader is
exact if it takes a value for what it says and for nothing else. So a number that does not fit is
not read as one that does.
-/
namespace C4.Theme

open Toml

def SaysText (v : Value) (s : String) : Prop := ∃ span, v = .string span s

def SaysTruth (v : Value) (b : Bool) : Prop := ∃ span, v = .boolean span b

def SaysNumber (v : Value) (n : Int) : Prop := ∃ span, v = .integer span n

def SaysByte (v : Value) (n : UInt8) : Prop := SaysNumber v n.toNat

def SaysWord (v : Value) (n : UInt32) : Prop := SaysNumber v n.toNat

def SaysSignedWord (v : Value) (n : Int32) : Prop := SaysNumber v n.toInt

def Hollow (v : Value) : Prop :=
  (∃ span form, v = .table span form []) ∨ (∃ span, v = .array span []) ∨ v = .tables []

/-- The name of the choice, as a text or as the only key of a table with nothing behind it. -/
def SaysChoice {α : Type} (c : Choice α) (v : Value) (a : α) : Prop :=
  SaysText v (c.name a) ∨ ∃ span form key payload,
    v = .table span form [(key, payload)] ∧ key.text = c.name a ∧ Hollow payload

/-- The first two of some items. -/
def SaysPair {α : Type} (tells : Value → α → Prop) (v : Value) (p : α × α) : Prop :=
  ∃ x y more, items? v = some (x :: y :: more) ∧ tells x p.1 ∧ tells y p.2

def SaysList {α : Type} (tells : Value → α → Prop) (v : Value) (l : List α) : Prop :=
  ∃ items, items? v = some items ∧ List.Forall₂ tells items l

/-- Of a value in which no key is given twice the reader makes what it says, whatever bytes would be
to blame. -/
def Exact {α : Type} (decode : Decoder α) (tells : Value → α → Prop) : Prop :=
  ∀ span v, v.Distinct → ∀ a, decode span v = .ok a ↔ tells v a

section Results

variable {ε α β : Type}

theorem bind_eq_ok_iff {x : Except ε α} {f : α → Except ε β} {b : β} :
    x >>= f = .ok b ↔ ∃ a, x = .ok a ∧ f a = .ok b := by
  cases x with
  | error e => exact ⟨nofun, fun ⟨_, h, _⟩ => nomatch h⟩
  | ok a =>
    constructor
    · exact fun h => ⟨a, rfl, h⟩
    · rintro ⟨a', ha, h⟩
      cases ha
      exact h

theorem mapM_eq_ok_iff {f : α → Except ε β} {l : List α} {l' : List β} :
    l.mapM f = .ok l' ↔ List.Forall₂ (fun a b => f a = .ok b) l l' := by
  induction l generalizing l' with
  | nil =>
    rw [List.mapM_nil, List.forall₂_nil_left_iff]
    exact ⟨fun h => (Except.ok.inj h).symm, fun h => h ▸ rfl⟩
  | cons a l ih =>
    rw [List.mapM_cons, bind_eq_ok_iff, List.forall₂_cons_left_iff]
    simp only [bind_eq_ok_iff, ih]
    constructor
    · rintro ⟨b, hb, rest, hrest, h⟩
      exact ⟨b, rest, hb, hrest, (Except.ok.inj h).symm⟩
    · rintro ⟨b, rest, hb, hrest, rfl⟩
      exact ⟨b, hb, rest, hrest, rfl⟩

end Results

section Items

variable {v : Value} {items : List Value}

theorem distinct_of_items? (hv : v.Distinct) (h : items? v = some items) :
    ∀ i ∈ items, i.Distinct := by
  cases hv with
  | array span hitems =>
    cases h
    exact hitems
  | tables hitems =>
    cases h
    exact hitems
  | _ => cases h

theorem forall₂_exact {α : Type} {decode : Decoder α} {tells : Value → α → Prop}
    (h : Exact decode tells) (place : Value → Span) (hitems : ∀ i ∈ items, i.Distinct)
    {l : List α} :
    List.Forall₂ (fun i a => decode (place i) i = .ok a) items l ↔ List.Forall₂ tells items l := by
  induction items generalizing l with
  | nil => simp
  | cons i items ih =>
    obtain ⟨hi, hitems⟩ := List.forall_mem_cons.1 hitems
    simp only [List.forall₂_cons_left_iff, h _ i hi, ih hitems]

end Items

theorem exact_text : Exact text SaysText := by
  intro span v _ s
  cases v <;> simp [text, SaysText, mismatch, blame]

theorem exact_truth : Exact truth SaysTruth := by
  intro span v _ b
  cases v <;> simp [truth, SaysTruth, mismatch, blame]

theorem integerIn_eq_ok {wanted : Wanted} {low high : Int} {span : Span} {v : Value} {n : Int} :
    integerIn wanted low high span v = .ok n ↔ SaysNumber v n ∧ low ≤ n ∧ n < high := by
  cases v with
  | integer place m =>
    rw [integerIn]
    by_cases hm : low ≤ m ∧ m < high
    · rw [if_pos hm]
      constructor
      · intro h
        obtain rfl := Except.ok.inj h
        exact ⟨⟨place, rfl⟩, hm⟩
      · rintro ⟨⟨_, h⟩, -⟩
        cases h
        rfl
    · rw [if_neg hm]
      constructor
      · exact nofun
      · rintro ⟨⟨_, h⟩, hn⟩
        cases h
        exact absurd hn hm
  | _ => simp [integerIn, SaysNumber, mismatch, blame]

structure Range (low high : Int) (β : Type) where
  value : β → Int
  make : Int → β
  low_le : ∀ b, low ≤ value b
  lt_high : ∀ b, value b < high
  make_value : ∀ b, make (value b) = b
  value_make : ∀ n, low ≤ n → n < high → value (make n) = n

namespace Range

variable {low high : Int} {β : Type} (x : Range low high β)

theorem exact_integerIn (wanted : Wanted) :
    Exact (fun span v => return x.make (← integerIn wanted low high span v))
      fun v b => SaysNumber v (x.value b) := by
  intro span v _ b
  rw [bind_eq_ok_iff]
  simp only [integerIn_eq_ok]
  constructor
  · rintro ⟨n, ⟨hn, hlow, hhigh⟩, h⟩
    obtain rfl := Except.ok.inj h
    rwa [x.value_make n hlow hhigh]
  · exact fun h => ⟨x.value b, ⟨h, x.low_le b, x.lt_high b⟩, congrArg _ (x.make_value b)⟩

theorem exists_saysNumber_iff {span : Span} {n : Int} :
    (∃ b, SaysNumber (.integer span n) (x.value b)) ↔ low ≤ n ∧ n < high := by
  constructor
  · rintro ⟨b, _, h⟩
    obtain ⟨-, rfl⟩ := Value.integer.inj h
    exact ⟨x.low_le b, x.lt_high b⟩
  · exact fun ⟨hlow, hhigh⟩ => ⟨x.make n, span, by rw [x.value_make n hlow hhigh]⟩

end Range

theorem byte_ofInt_toNat (b : UInt8) : UInt8.ofInt b.toNat = b := by
  have hb : ((b.toNat : Int) % 2 ^ 8).toNat = b.toNat := by
    have := b.toNat_lt
    omega
  rw [UInt8.ofInt, hb, UInt8.ofNat_toNat]

theorem toNat_byte_ofInt (n : Int) (hlow : 0 ≤ n) (hhigh : n < 256) :
    ((UInt8.ofInt n).toNat : Int) = n := by
  have hn : n % 2 ^ 8 = n := Int.emod_eq_of_lt hlow hhigh
  have hlt : n.toNat < 2 ^ 8 := (Int.toNat_lt hlow).2 hhigh
  rw [UInt8.ofInt, hn, UInt8.toNat_ofNat_of_lt' hlt, Int.toNat_of_nonneg hlow]

theorem word_ofInt_toNat (b : UInt32) : UInt32.ofInt b.toNat = b := by
  have hb : ((b.toNat : Int) % 2 ^ 32).toNat = b.toNat := by
    have := b.toNat_lt
    omega
  rw [UInt32.ofInt, hb, UInt32.ofNat_toNat]

theorem toNat_word_ofInt (n : Int) (hlow : 0 ≤ n) (hhigh : n < 4294967296) :
    ((UInt32.ofInt n).toNat : Int) = n := by
  have hn : n % 2 ^ 32 = n := Int.emod_eq_of_lt hlow hhigh
  have hlt : n.toNat < 2 ^ 32 := (Int.toNat_lt hlow).2 hhigh
  rw [UInt32.ofInt, hn, UInt32.toNat_ofNat_of_lt' hlt, Int.toNat_of_nonneg hlow]

def bytes : Range 0 256 UInt8 where
  value b := b.toNat
  make := UInt8.ofInt
  low_le _ := Int.natCast_nonneg _
  lt_high b := Int.ofNat_lt.2 b.toNat_lt
  make_value := byte_ofInt_toNat
  value_make := toNat_byte_ofInt

def words : Range 0 4294967296 UInt32 where
  value b := b.toNat
  make := UInt32.ofInt
  low_le _ := Int.natCast_nonneg _
  lt_high b := Int.ofNat_lt.2 b.toNat_lt
  make_value := word_ofInt_toNat
  value_make := toNat_word_ofInt

def signedWords : Range (-2147483648) 2147483648 Int32 where
  value b := b.toInt
  make := Int32.ofInt
  low_le b := b.le_toInt
  lt_high b := b.toInt_lt
  make_value := Int32.ofInt_toInt
  value_make _ := Int32.toInt_ofInt_of_le

theorem exact_byte : Exact byte SaysByte := bytes.exact_integerIn _

theorem exact_word : Exact word SaysWord := words.exact_integerIn _

theorem exact_signedWord : Exact signedWord SaysSignedWord := signedWords.exact_integerIn _

structure Choice.Complete {α : Type} (c : Choice α) : Prop where
  mem : ∀ a, a ∈ c.all
  inj : Function.Injective c.name

section Choices

variable {α : Type} {c : Choice α}

theorem named_eq_ok (hc : c.Complete) {span : Span} {name : String} {a : α} :
    c.named span name = .ok a ↔ name = c.name a := by
  have hfound {b : α} (h : c.all.find? (fun a => c.name a = name) = some b) : c.name b = name := by
    simpa using List.find?_some h
  unfold Choice.named
  constructor
  · intro h
    split at h
    · next b hb =>
      obtain rfl := Except.ok.inj h
      exact (hfound hb).symm
    · cases h
  · rintro rfl
    split
    · next b hb => exact congrArg _ (hc.inj (hfound hb))
    · next hnone => simpa using List.find?_eq_none.1 hnone a (hc.mem a)

theorem nothing_eq_ok {span : Span} {v : Value} {u : Unit} : nothing span v = .ok u ↔ Hollow v := by
  unfold nothing Hollow
  split <;> simp_all [blame]

theorem exact_choice (hc : c.Complete) : Exact c.decode (SaysChoice c) := by
  intro span v _ a
  cases v with
  | string place name => simp [Choice.decode, SaysChoice, SaysText, named_eq_ok hc]
  | table place form entries =>
    rcases entries with _ | ⟨⟨key, payload⟩, _ | ⟨next, entries⟩⟩
    · simp [Choice.decode, SaysChoice, SaysText, blame]
    · rw [Choice.decode, bind_eq_ok_iff]
      simp only [named_eq_ok hc, bind_eq_ok_iff, nothing_eq_ok]
      constructor
      · rintro ⟨b, hb, -, hhollow, h⟩
        obtain rfl := Except.ok.inj h
        exact .inr ⟨place, form, key, payload, rfl, hb, hhollow⟩
      · rintro (⟨_, h⟩ | ⟨_, _, _, _, h, hkey, hhollow⟩)
        · cases h
        · cases h
          exact ⟨a, hkey, (), hhollow, rfl⟩
    · simp [Choice.decode, SaysChoice, SaysText, blame]
  | _ => simp [Choice.decode, SaysChoice, SaysText, blame]

end Choices

theorem exact_listOf {α : Type} {item : Decoder α} {tells : Value → α → Prop}
    (h : Exact item tells) : Exact (listOf item) (SaysList tells) := by
  intro span v hv l
  unfold listOf SaysList
  cases hitems : items? v with
  | none => simp [mismatch, blame]
  | some items =>
    simp only [mapM_eq_ok_iff, forall₂_exact h (placeOf span) (distinct_of_items? hv hitems)]
    simp

theorem exact_pairOf {α : Type} {item : Decoder α} {tells : Value → α → Prop}
    (h : Exact item tells) : Exact (pairOf item) (SaysPair tells) := by
  intro span v hv p
  unfold pairOf SaysPair
  cases hitems : items? v with
  | none => simp [mismatch, blame]
  | some items =>
    have hall := distinct_of_items? hv hitems
    rcases items with _ | ⟨x, _ | ⟨y, more⟩⟩
    · simp [blame]
    · simp [bind_eq_ok_iff, blame]
    · simp only [List.forall_mem_cons] at hall
      simp only [List.take_succ_cons, List.take_zero, bind_eq_ok_iff, mapM_eq_ok_iff,
        List.forall₂_cons_left_iff, List.forall₂_nil_left_iff, h _ x hall.1, h _ y hall.2.1]
      constructor
      · rintro ⟨_, ⟨a, _, hx, ⟨b, _, hy, rfl, rfl⟩, rfl⟩, hp⟩
        obtain rfl := Except.ok.inj hp
        exact ⟨x, y, more, rfl, hx, hy⟩
      · rintro ⟨_, _, _, hxy, hx, hy⟩
        cases hxy
        exact ⟨_, ⟨p.1, _, hx, ⟨p.2, _, hy, rfl, rfl⟩, rfl⟩, rfl⟩

end C4.Theme
