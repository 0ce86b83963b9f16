import C4.Proofs.Reading
import Mathlib.Data.List.Forall2

/-!
# Decoding

What can be told back from a line. A line is made of plain stretches, in which there is no double
quote, and of quoted texts between them. A backslash is not escaped, so a double quote that follows
one may end its text or belong to it, and a reader can go wrong. Still no two lines are the same.
Where two readings of a line part, the one is within a text and the other between texts. They change
places at every further quote, and at the end of the line one of them misses a closing quote.
-/
namespace C4

/-- What is cut off behind the longest run of one kind of characters is told apart. -/
theorem append_inj_of_run {p : Char → Bool} {run run' rest rest' : List Char}
    (h : run ++ rest = run' ++ rest') (hrun : ∀ c ∈ run, p c = true)
    (hrun' : ∀ c ∈ run', p c = true) (hrest : ∀ c ∈ rest.head?, p c = false)
    (hrest' : ∀ c ∈ rest'.head?, p c = false) : run = run' ∧ rest = rest' := by
  have htake {run rest : List Char} (hrun : ∀ c ∈ run, p c = true)
      (hrest : ∀ c ∈ rest.head?, p c = false) : (run ++ rest).takeWhile p = run := by
    rw [List.takeWhile_append_of_pos hrun]
    cases rest with
    | nil => simp
    | cons c rest => simp [hrest c rfl]
  have hruns : run = run' := by
    rw [← htake hrun hrest, h, htake hrun' hrest']
  subst hruns
  exact ⟨rfl, List.append_cancel_left h⟩

theorem toList_toString (n : ℕ) : (toString n).toList = Nat.toDigits 10 n := by
  rw [Nat.toString_eq_repr, Nat.toList_repr]

theorem isDigit_of_mem_toString {n : ℕ} {c : Char} (h : c ∈ (toString n).toList) :
    c.isDigit = true := by
  rw [toList_toString] at h
  exact Nat.isDigit_of_mem_toDigits (by decide) (by decide) h

section Numbers

variable {rest rest' : List Char} (hrest : ∀ c ∈ rest.head?, c.isDigit = false)
  (hrest' : ∀ c ∈ rest'.head?, c.isDigit = false)
include hrest hrest'

theorem toString_append_inj {m n : ℕ}
    (h : (toString m).toList ++ rest = (toString n).toList ++ rest') : m = n ∧ rest = rest' := by
  obtain ⟨hnumbers, hrests⟩ := append_inj_of_run h (fun _ => isDigit_of_mem_toString)
    (fun _ => isDigit_of_mem_toString) hrest hrest'
  have hvalues := congrArg (fun digits => Nat.ofDigitChars 10 digits 0) hnumbers
  simp only [toList_toString] at hvalues
  rw [Nat.ofDigitChars_toDigits (by decide) (by decide),
    Nat.ofDigitChars_toDigits (by decide) (by decide)] at hvalues
  exact ⟨hvalues, hrests⟩

theorem toString_int_append_inj {m n : ℤ}
    (h : (toString m).toList ++ rest = (toString n).toList ++ rest') : m = n ∧ rest = rest' := by
  have hnegative (n : ℕ) : (toString (Int.negSucc n)).toList = '-' :: (toString (n + 1)).toList :=
    String.toList_append
  have hsign (n : ℕ) (rest more : List Char) :
      (toString n).toList ++ rest ≠ '-' :: more := by
    intro hminus
    cases hdigits : (toString n).toList with
    | nil => exact Nat.toDigits_ne_nil (toList_toString n ▸ hdigits)
    | cons c digits =>
      have hc : c.isDigit = true :=
        isDigit_of_mem_toString (hdigits ▸ List.mem_cons_self)
      rw [hdigits] at hminus
      rw [(List.cons.inj hminus).1] at hc
      exact absurd hc (by decide)
  cases m with
  | ofNat m =>
    cases n with
    | ofNat n =>
      obtain ⟨rfl, hrests⟩ := toString_append_inj hrest hrest' (m := m) (n := n) h
      exact ⟨rfl, hrests⟩
    | negSucc n =>
      rw [hnegative] at h
      exact absurd h (hsign m _ _)
  | negSucc m =>
    cases n with
    | ofNat n =>
      rw [hnegative] at h
      exact absurd h.symm (hsign n _ _)
    | negSucc n =>
      rw [hnegative, hnegative] at h
      obtain ⟨hnumbers, hrests⟩ := toString_append_inj hrest hrest' (List.cons.inj h).2
      obtain rfl := Nat.succ.inj hnumbers
      exact ⟨rfl, hrests⟩

end Numbers

namespace Dsl

theorem escape_cons (c : Char) (rest : List Char) :
    escape (c :: rest) = if c = '"' then '\\' :: '"' :: escape rest else c :: escape rest := by
  rw [escape]

/-- No double quote is in the stretch, and one right behind it is not an escaped one. -/
structure Plain (gap : List Char) : Prop where
  quoteless : '"' ∉ gap
  harmless : endsInBackslash gap = false

instance (gap : List Char) : Decidable (Plain gap) :=
  decidable_of_iff ('"' ∉ gap ∧ endsInBackslash gap = false)
    ⟨fun h => ⟨h.1, h.2⟩, fun h => ⟨h.quoteless, h.harmless⟩⟩

theorem plain_append_blank {gap : List Char} (h : '"' ∉ gap) : Plain (gap ++ [' ']) where
  quoteless := by simpa using h
  harmless := by simp [endsInBackslash]

theorem escape_of_quoteless {gap : List Char} (h : '"' ∉ gap) : escape gap = gap := by
  induction gap with
  | nil => rfl
  | cons c gap ih =>
    obtain ⟨hc, hgap⟩ := not_or.1 (mt List.mem_cons.2 h)
    rw [escape_cons, if_neg (Ne.symm hc), ih hgap]

theorem eq_of_escape_append {text gap rest more : List Char} (hgap : Plain gap)
    (h : escape text ++ '"' :: rest = gap ++ '"' :: more) : text = gap ∧ rest = more := by
  obtain ⟨hquoteless, hharmless⟩ := hgap
  induction gap generalizing text with
  | nil =>
    cases text with
    | nil => exact ⟨rfl, (List.cons.inj h).2⟩
    | cons c text =>
      rw [escape_cons] at h
      split at h
      · exact absurd (List.cons.inj h).1 (by decide)
      · next hc => exact absurd (List.cons.inj h).1 hc
  | cons d gap ih =>
    obtain ⟨hd, hgap⟩ := not_or.1 (mt List.mem_cons.2 hquoteless)
    cases text with
    | nil => exact absurd (List.cons.inj h).1 hd
    | cons c text =>
      rw [escape_cons] at h
      split at h
      · -- The text has an escaped quote here, so the stretch would end in its backslash.
        obtain ⟨rfl, htail⟩ := List.cons.inj h
        cases gap with
        | nil => exact absurd hharmless (by decide)
        | cons e gap =>
          obtain ⟨rfl, -⟩ := List.cons.inj htail
          exact absurd List.mem_cons_self hgap
      · obtain ⟨rfl, htail⟩ := List.cons.inj h
        have hrest : endsInBackslash gap = false := by
          cases gap with
          | nil => rfl
          | cons e gap => simpa [endsInBackslash] using hharmless
        obtain ⟨rfl, hmore⟩ := ih htail hgap hrest
        exact ⟨rfl, hmore⟩

def interleave : List (List Char × List Char) → List Char → List Char
  | [], stop => stop
  | (gap, text) :: more, stop => gap ++ '"' :: (escape text ++ '"' :: interleave more stop)

theorem interleave_nil_ne {stop : List Char} (h : '"' ∉ stop) (gap rest : List Char) :
    interleave [] stop ≠ gap ++ '"' :: rest := by
  rintro rfl
  exact h (List.mem_append_right gap List.mem_cons_self)

theorem interleave_ne_escape {text stop stop' : List Char}
    {pieces pieces' : List (List Char × List Char)} (hstop : '"' ∉ stop) (hstop' : '"' ∉ stop')
    (hpieces : ∀ p ∈ pieces, Plain p.1) (hpieces' : ∀ p ∈ pieces', Plain p.1) :
    interleave pieces stop ≠ escape text ++ '"' :: interleave pieces' stop' := by
  intro h
  match pieces, hpieces, h with
  | [], _, h => exact interleave_nil_ne hstop _ _ h
  | (gap, next) :: pieces, hpieces, h =>
    -- The text that is read ends where the next one begins: now the readings have changed places.
    obtain ⟨hgap, hrest⟩ := List.forall_mem_cons.1 hpieces
    obtain ⟨-, hswap⟩ := eq_of_escape_append hgap h.symm
    exact interleave_ne_escape hstop' hstop hpieces' hrest hswap
termination_by pieces.length + pieces'.length
decreasing_by
  simp only [List.length_cons]
  omega

section Interleave

variable {text text' stop stop' : List Char} {pieces pieces' : List (List Char × List Char)}

theorem escape_append_inj (hstop : '"' ∉ stop) (hstop' : '"' ∉ stop')
    (hpieces : ∀ p ∈ pieces, Plain p.1) (hpieces' : ∀ p ∈ pieces', Plain p.1)
    (h : escape text ++ '"' :: interleave pieces stop =
      escape text' ++ '"' :: interleave pieces' stop') :
    text = text' ∧ interleave pieces stop = interleave pieces' stop' := by
  -- Two readings part where only the one takes a quote behind a backslash for an escaped one.
  induction text generalizing text' with
  | nil =>
    cases text' with
    | nil => exact ⟨rfl, (List.cons.inj h).2⟩
    | cons d text' =>
      rw [escape_cons] at h
      split at h
      · exact absurd (List.cons.inj h).1 (by decide)
      · next hd => exact absurd (List.cons.inj h).1.symm hd
  | cons c text ih =>
    cases text' with
    | nil =>
      rw [escape_cons] at h
      split at h
      · exact absurd (List.cons.inj h).1 (by decide)
      · next hc => exact absurd (List.cons.inj h).1 hc
    | cons d text' =>
      rw [escape_cons, escape_cons] at h
      split at h <;> split at h
      · next hc hd =>
        obtain ⟨rfl, hrest⟩ := ih (List.cons.inj (List.cons.inj h).2).2
        exact ⟨by rw [hc, hd], hrest⟩
      · have hends : escape text' ++ '"' :: interleave pieces' stop' =
            [] ++ '"' :: (escape text ++ '"' :: interleave pieces stop) := (List.cons.inj h).2.symm
        obtain ⟨-, hout⟩ := eq_of_escape_append (by decide) hends
        exact absurd hout (interleave_ne_escape hstop' hstop hpieces' hpieces)
      · have hends : escape text ++ '"' :: interleave pieces stop =
            [] ++ '"' :: (escape text' ++ '"' :: interleave pieces' stop') := (List.cons.inj h).2
        obtain ⟨-, hout⟩ := eq_of_escape_append (by decide) hends
        exact absurd hout (interleave_ne_escape hstop hstop' hpieces hpieces')
      · obtain ⟨rfl, htail⟩ := List.cons.inj h
        obtain ⟨rfl, hrest⟩ := ih htail
        exact ⟨rfl, hrest⟩

/-- A line determines its stretches and its texts. -/
theorem interleave_inj (hstop : '"' ∉ stop) (hstop' : '"' ∉ stop')
    (hpieces : ∀ p ∈ pieces, Plain p.1) (hpieces' : ∀ p ∈ pieces', Plain p.1)
    (h : interleave pieces stop = interleave pieces' stop') :
    pieces = pieces' ∧ stop = stop' := by
  induction pieces generalizing pieces' with
  | nil =>
    cases pieces' with
    | nil => exact ⟨rfl, h⟩
    | cons p pieces' => exact absurd h (interleave_nil_ne hstop _ _)
  | cons p pieces ih =>
    cases pieces' with
    | nil => exact absurd h.symm (interleave_nil_ne hstop' _ _)
    | cons q pieces' =>
      obtain ⟨hp, hpieces⟩ := List.forall_mem_cons.1 hpieces
      obtain ⟨hq, hpieces'⟩ := List.forall_mem_cons.1 hpieces'
      rw [interleave, interleave, ← escape_of_quoteless hp.quoteless] at h
      obtain ⟨hgap, htext⟩ := eq_of_escape_append hq h
      obtain ⟨htexts, hrest⟩ := escape_append_inj hstop hstop' hpieces hpieces' htext
      obtain ⟨rfl, hstops⟩ := ih hpieces hpieces' hrest
      exact ⟨by rw [Prod.ext hgap htexts], hstops⟩

end Interleave

theorem quote_injective : Function.Injective quote := by
  intro text other h
  have hline : interleave [([], text.toList)] [] = interleave [([], other.toList)] [] :=
    String.ofList_injective h
  obtain ⟨hpieces, -⟩ := interleave_inj (by decide) (by decide) (by simp; decide) (by simp; decide)
    hline
  exact String.toList_injective (by simpa using hpieces)

theorem written_eq_interleave (texts : List String) :
    written texts = interleave (texts.map fun text => ([' '], text.toList)) [] := by
  induction texts with
  | nil => rfl
  | cons text texts ih =>
    rw [written, List.flatMap_cons, ← written, ih, toList_quote]
    simp [interleave]

theorem written_injective : Function.Injective written := by
  intro texts others h
  have hplain (texts : List String) :
      ∀ p ∈ texts.map fun text => ([' '], text.toList), Plain p.1 := by
    simp only [List.forall_mem_map]
    intro _ _
    decide
  rw [written_eq_interleave, written_eq_interleave] at h
  obtain ⟨hpieces, -⟩ := interleave_inj (by decide) (by decide) (hplain texts) (hplain others) h
  refine List.map_injective_iff.2 (fun a b hab => ?_) hpieces
  exact String.toList_injective (Prod.ext_iff.1 hab).2

/-- Two arguments that are written in the same way: one is unset and the other is the empty text,
unless they are equal. -/
def Interchangeable (a b : Option String) : Prop :=
  a = b ∨ a = none ∧ b = some "" ∨ a = some "" ∧ b = none

theorem interchangeable_iff {a b : Option String} :
    Interchangeable a b ↔ a.getD "" = b.getD "" := by
  unfold Interchangeable
  cases a <;> cases b <;> simp [eq_comm]

/-- A header line tells its name and its arguments, but for unset ones at the end and for an unset
one that stands in for the empty text. -/
theorem elementHeader_determines (token keyword name name' : String)
    (args args' : List (Option String)) :
    let shown := args.rdropWhile Option.isNone
    let shown' := args'.rdropWhile Option.isNone
    (elementHeader token keyword name args = elementHeader token keyword name' args' ↔
      name = name' ∧ shown.map (·.getD "") = shown'.map (·.getD "")) ∧
    (elementHeader token keyword name args = elementHeader token keyword name' args' ↔
      name = name' ∧ List.Forall₂ Interchangeable shown shown') := by
  intro shown shown'
  have hlines : elementHeader token keyword name args = elementHeader token keyword name' args' ↔
      name = name' ∧ shown.map (·.getD "") = shown'.map (·.getD "") := by
    rw [← String.toList_inj, toList_elementHeader, toList_elementHeader, List.append_cancel_left_eq,
      written_injective.eq_iff, positional_eq, positional_eq, List.cons.injEq]
  refine ⟨hlines, hlines.trans (and_congr_right fun _ => ?_)⟩
  rw [← List.forall₂_eq_eq_eq, List.forall₂_map_left_iff, List.forall₂_map_right_iff]
  simp only [← interchangeable_iff]

/-- The quote that closes the first name looks like an escaped one, as the quote in the second name
is one. -/
example : elementHeader "a" "person" "\\" [some " "] ≠ elementHeader "a" "person" "\" " [none] := by
  decide

end Dsl

end C4
