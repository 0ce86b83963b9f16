import C4.Proofs.Headers
import Mathlib

/-!
# Spelling

A token is spelled with the letters and digits of a name, in their order. The name is cut into
runs, these into words, and the words are joined in camel case. Whether a letter becomes a capital
can nevertheless be told from its surroundings alone: from the letter or digit before it, from what
stands between the two, and from the character behind it.
-/
namespace C4.Dsl

def countedFrom (first : ℕ) (text : List Char) : List (Char × ℕ) :=
  (text.zipIdx first).filter fun p => p.1.isAlphanum

def counted (text : List Char) : List (Char × ℕ) := countedFrom 0 text

/-- A letter follows one of the other case from below, or a digit and a letter meet. -/
def Changes (c d : Char) : Prop :=
  c.isLower ∧ d.isUpper ∨ c.isAlpha ∧ d.isDigit ∨ c.isDigit ∧ d.isAlpha

/-- A word starts at the letter or digit of that number. -/
inductive StartsWordAt (text : List Char) : ℕ → Prop
  | first : StartsWordAt text 0
  /-- Something else stands between this one and the one before. -/
  | parted {i p q : ℕ} {c d : Char} (hc : (counted text)[i]? = some (c, p))
    (hd : (counted text)[i + 1]? = some (d, q)) (hbetween : p + 1 < q) : StartsWordAt text (i + 1)
  | change {i p : ℕ} {c d : Char} (hc : (counted text)[i]? = some (c, p))
    (hd : (counted text)[i + 1]? = some (d, p + 1)) (h : Changes c d) : StartsWordAt text (i + 1)
  /-- The last one of several capitals, if a lower-case letter comes next. -/
  | acronym {i p : ℕ} {c d e : Char} (hc : (counted text)[i]? = some (c, p))
    (hd : (counted text)[i + 1]? = some (d, p + 1)) (hcapitals : c.isUpper ∧ d.isUpper)
    (he : text[p + 2]? = some e) (hlower : e.isLower) : StartsWordAt text (i + 1)

def parts (c : Char) : List Char → Bool
  | [] => true
  | d :: rest => !d.isAlphanum || startsWord c d rest.head?

def cased (upper : Bool) (c : Char) : Char := if upper then c.toUpper else c.toLower

def spell (upper : Bool) : List Char → List Char
  | [] => []
  | c :: rest =>
    if c.isAlphanum then cased upper c :: spell (parts c rest) rest else spell upper rest

def segments (text : List Char) : List (List Char) := (runs text).flatMap words

theorem prepend_append {c : Char} {ws : List (List Char)} (h : ws ≠ [])
    (more : List (List Char)) : prepend c (ws ++ more) = prepend c ws ++ more := by
  cases ws with
  | nil => exact absurd rfl h
  | cons w ws => rfl

theorem prepend_ne_nil (c : Char) (ws : List (List Char)) : prepend c ws ≠ [] := by
  cases ws <;> exact List.cons_ne_nil _ _

theorem words_ne_nil (c : Char) (rest : List Char) : words (c :: rest) ≠ [] := by
  cases rest with
  | nil => exact List.cons_ne_nil _ _
  | cons d rest =>
    rw [words]
    split
    · exact List.cons_ne_nil _ _
    · exact prepend_ne_nil _ _

theorem exists_runs_eq_cons {c : Char} (hc : c.isAlphanum) (rest : List Char) :
    ∃ later, runs (c :: rest) = (c :: rest.takeWhile Char.isAlphanum) :: later := by
  induction rest generalizing c with
  | nil => exact ⟨[], by rw [runs, if_pos hc, List.takeWhile_nil]⟩
  | cons d rest ih =>
    rw [runs, if_pos hc]
    by_cases hd : d.isAlphanum
    · obtain ⟨later, hlater⟩ := ih hd
      exact ⟨later, by rw [if_pos hd, hlater, List.takeWhile_cons_of_pos hd]; rfl⟩
    · exact ⟨runs (d :: rest), by rw [if_neg hd, List.takeWhile_cons_of_neg hd]⟩

/-- The end of a run does not matter to the rule for several capitals: what ends it is no
lower-case letter. -/
theorem startsWord_takeWhile (c d : Char) (rest : List Char) :
    startsWord c d (rest.takeWhile Char.isAlphanum).head? = startsWord c d rest.head? := by
  cases rest with
  | nil => rfl
  | cons e rest =>
    by_cases he : e.isAlphanum
    · rw [List.takeWhile_cons_of_pos he]
      rfl
    · have hlower : e.isLower = false := by
        simp only [Char.isAlphanum, Char.isAlpha, Bool.or_eq_true, not_or] at he
        simpa using he.1.2
      rw [List.takeWhile_cons_of_neg he]
      simp [startsWord, hlower]

theorem segments_cons_of_neg {c : Char} (hc : ¬ c.isAlphanum) (rest : List Char) :
    segments (c :: rest) = segments rest := by
  cases rest <;> simp [segments, runs, hc]

theorem segments_cons {c : Char} (hc : c.isAlphanum) (rest : List Char) :
    segments (c :: rest) =
      if parts c rest then [c] :: segments rest else prepend c (segments rest) := by
  cases rest with
  | nil => simp [segments, runs, hc, words, parts]
  | cons d rest =>
    by_cases hd : d.isAlphanum
    · obtain ⟨later, hlater⟩ := exists_runs_eq_cons hd rest
      have hruns : runs (c :: d :: rest) =
          (c :: d :: rest.takeWhile Char.isAlphanum) :: later := by
        rw [runs, if_pos hc, if_pos hd, hlater]
        rfl
      have hparts : parts c (d :: rest) = startsWord c d rest.head? := by simp [parts, hd]
      rw [segments, segments, hruns, hlater, List.flatMap_cons, List.flatMap_cons, words,
        startsWord_takeWhile, hparts]
      split
      · rfl
      · rw [prepend_append (words_ne_nil _ _)]
    · have hparts : parts c (d :: rest) = true := by simp [parts, hd]
      rw [segments, runs, if_pos hc, if_neg hd, hparts, if_pos rfl]
      rfl

theorem camelCase_prepend (c : Char) (ws : List (List Char)) :
    camelCase (prepend c ws) = c.toLower :: camelCase ws := by
  cases ws <;> rfl

theorem capitalise_prepend (c : Char) (ws : List (List Char)) :
    (prepend c ws).flatMap capitalise = c.toUpper :: camelCase ws := by
  cases ws <;> rfl

/-- Joined words are spelled from left to right. Behind the first word all are capitalised, so the
induction is for both forms at once. -/
theorem spell_eq (text : List Char) : camelCase (segments text) = spell false text ∧
    (segments text).flatMap capitalise = spell true text := by
  induction text with
  | nil => exact ⟨rfl, rfl⟩
  | cons c rest ih =>
    obtain ⟨hlower, hupper⟩ := ih
    by_cases hc : c.isAlphanum
    · rw [segments_cons hc, spell, spell, if_pos hc, if_pos hc]
      cases parts c rest with
      | true => exact ⟨congrArg (c.toLower :: ·) hupper, congrArg (c.toUpper :: ·) hupper⟩
      | false =>
        rw [if_neg Bool.false_ne_true, camelCase_prepend, capitalise_prepend, hlower]
        exact ⟨rfl, rfl⟩
    · rw [segments_cons_of_neg hc, spell, spell, if_neg hc, if_neg hc]
      exact ⟨hlower, hupper⟩

theorem map_toLower_spell (upper : Bool) (text : List Char) :
    (spell upper text).map Char.toLower = (text.filter Char.isAlphanum).map Char.toLower := by
  induction text generalizing upper with
  | nil => rfl
  | cons c rest ih =>
    have hcase : (cased upper c).toLower = c.toLower := by cases upper <;> simp [cased]
    by_cases hc : c.isAlphanum <;> simp [spell, hc, ih, hcase]

theorem countedFrom_cons (first : ℕ) (c : Char) (rest : List Char) :
    countedFrom first (c :: rest) =
      if c.isAlphanum then (c, first) :: countedFrom (first + 1) rest
      else countedFrom (first + 1) rest := by
  rw [countedFrom, List.zipIdx_cons, List.filter_cons]
  rfl

theorem map_fst_countedFrom (first : ℕ) (text : List Char) :
    (countedFrom first text).map Prod.fst = text.filter Char.isAlphanum := by
  induction text generalizing first with
  | nil => rfl
  | cons c rest ih => by_cases hc : c.isAlphanum <;> simp [countedFrom_cons, hc, ih]

theorem le_of_mem_countedFrom {first : ℕ} {text : List Char} {p : Char × ℕ}
    (h : p ∈ countedFrom first text) : first ≤ p.2 :=
  List.le_snd_of_mem_zipIdx (List.mem_of_mem_filter h)

theorem getElem?_zero_spell (upper : Bool) (first : ℕ) (text : List Char) :
    (spell upper text)[0]? = ((countedFrom first text)[0]?).map fun p => cased upper p.1 := by
  induction text generalizing first with
  | nil => rfl
  | cons c rest ih =>
    rw [spell, countedFrom_cons]
    split
    · rfl
    · exact ih _

/-- The case of a letter is settled by the one before it and the places of both. -/
def follows (text : List Char) (p q : Char × ℕ) : Bool :=
  p.2 + 1 < q.2 || startsWord p.1 q.1 text[q.2 + 1]?

theorem getElem?_succ_spell (upper : Bool) (before text : List Char) {i : ℕ} {p q : Char × ℕ}
    (hp : (countedFrom before.length text)[i]? = some p)
    (hq : (countedFrom before.length text)[i + 1]? = some q) :
    p.2 < q.2 ∧ (spell upper text)[i + 1]? = some (cased (follows (before ++ text) p q) q.1) := by
  induction text generalizing before upper i with
  | nil => cases hp
  | cons c rest ih =>
    have hbefore : before ++ c :: rest = (before ++ [c]) ++ rest := by simp
    have hlength : before.length + 1 = (before ++ [c]).length := by simp
    rw [countedFrom_cons, hlength] at hp hq
    rw [spell, hbefore]
    by_cases hc : c.isAlphanum
    · rw [if_pos hc] at hp hq ⊢
      rw [List.getElem?_cons_succ] at hq ⊢
      cases i with
      | succ i => exact ih _ _ hp hq
      | zero =>
        -- The case of `q` is that which `c` leaves to the rest of the text.
        obtain rfl := Option.some.inj hp
        have hle := le_of_mem_countedFrom (List.mem_of_getElem? hq)
        rw [← hlength] at hle
        rw [getElem?_zero_spell _ (before ++ [c]).length, hq, Option.map_some]
        refine ⟨hle, congrArg some (congrArg (cased · q.1) ?_)⟩
        cases rest with
        | nil => cases hq
        | cons d rest =>
          rw [countedFrom_cons] at hq
          by_cases hd : d.isAlphanum
          · rw [if_pos hd] at hq
            obtain rfl := Option.some.inj hq
            have hnext : (before ++ [c] ++ d :: rest)[(before ++ [c]).length + 1]? = rest[0]? := by
              rw [List.getElem?_append_right (Nat.le_succ _)]
              simp
            rw [follows, hnext, ← hlength, ← List.head?_eq_getElem?]
            simp [parts, hd]
          · rw [if_neg hd] at hq
            have hlt := le_of_mem_countedFrom (List.mem_of_getElem? hq)
            rw [← hlength] at hlt
            have hbetween : before.length + 1 < q.2 := hlt
            simp [parts, hd, follows, hbetween]
    · rw [if_neg hc] at hp hq ⊢
      exact ih _ _ hp hq

theorem follows_iff {text : List Char} {i : ℕ} {p q : Char × ℕ}
    (hp : (counted text)[i]? = some p) (hq : (counted text)[i + 1]? = some q)
    (hlt : p.2 < q.2) : follows text p q ↔ StartsWordAt text (i + 1) := by
  obtain ⟨c, p⟩ := p
  obtain ⟨d, q⟩ := q
  have hword : follows text (c, p) (d, q) ↔ p + 1 < q ∨ Changes c d ∨
      (c.isUpper ∧ d.isUpper) ∧ ∃ e, text[q + 1]? = some e ∧ e.isLower := by
    simp [follows, startsWord, Changes, or_assoc, Option.any_eq_true]
  rw [hword]
  constructor
  · rintro h
    by_cases hbetween : p + 1 < q
    · exact .parted hp hq hbetween
    · obtain rfl : q = p + 1 := by
        change p < q at hlt
        omega
      rcases h with h | h | ⟨hcapitals, e, he, hlower⟩
      · exact absurd h hbetween
      · exact .change hp hq h
      · exact .acronym hp hq hcapitals he hlower
  · intro h
    cases h with
    | parted hc hd hbetween =>
      cases hp.symm.trans hc
      cases hq.symm.trans hd
      exact Or.inl hbetween
    | change hc hd h =>
      cases hp.symm.trans hc
      cases hq.symm.trans hd
      exact Or.inr (Or.inl h)
    | acronym hc hd hcapitals he hlower =>
      cases hp.symm.trans hc
      cases hq.symm.trans hd
      exact Or.inr (Or.inr ⟨hcapitals, _, he, hlower⟩)

theorem identifier_eq_element {name : String} (h : name.toList.filter Char.isAlphanum = []) :
    identifier name = "element" := by
  have hspell := map_toLower_spell false name.toList
  rw [h, List.map_nil, List.map_eq_nil_iff, ← (spell_eq _).1] at hspell
  have hnil : camelCase ((runs name.toList).flatMap words) = [] := hspell
  rw [identifier, hnil]

theorem isDigit_toLower (c : Char) : c.toLower.isDigit = c.isDigit := by
  by_cases hc : c.isUpper
  · have hdigit : c.isDigit = false := by
      simp [Char.isUpper, Char.isDigit, UInt32.le_iff_toNat_le] at hc ⊢
      omega
    have hlower : c.toLower.isLower := by simp [Char.isAlpha, hc]
    rw [hdigit]
    simp [Char.isLower, Char.isDigit, UInt32.le_iff_toNat_le] at hlower ⊢
    omega
  · rw [Char.toLower_eq_of_not_isUpper hc]

theorem toList_identifier {name : String} {c : Char} {rest : List Char}
    (h : name.toList.filter Char.isAlphanum = c :: rest) :
    (identifier name).toList = (if c.isDigit then ['_'] else []) ++ spell false name.toList := by
  have hlower := map_toLower_spell false name.toList
  have hcamel : camelCase ((runs name.toList).flatMap words) = spell false name.toList :=
    (spell_eq name.toList).1
  rw [h, List.map_cons] at hlower
  cases hspell : spell false name.toList with
  | nil =>
    rw [hspell] at hlower
    cases hlower
  | cons d more =>
    rw [hspell, List.map_cons, List.cons.injEq] at hlower
    have hdigit : d.isDigit = c.isDigit := by
      rw [← isDigit_toLower d, hlower.1, isDigit_toLower]
    rw [identifier, hcamel, hspell]
    dsimp only
    rw [hdigit]
    split <;> rw [String.toList_ofList] <;> rfl

theorem isUpper_spell_iff {text : List Char} {i : ℕ} {c d : Char}
    (hc : (text.filter Char.isAlphanum)[i]? = some c) (hd : (spell false text)[i]? = some d) :
    d.isUpper ↔ c.isAlpha ∧ i ≠ 0 ∧ StartsWordAt text i := by
  rw [← map_fst_countedFrom 0, List.getElem?_map, Option.map_eq_some_iff] at hc
  obtain ⟨q, hq, rfl⟩ := hc
  cases i with
  | zero =>
    rw [getElem?_zero_spell false 0, hq, Option.map_some] at hd
    obtain rfl := Option.some.inj hd
    simp [cased]
  | succ i =>
    obtain ⟨hi, -⟩ := List.getElem?_eq_some_iff.1 hq
    have hp := List.getElem?_eq_getElem (Nat.lt_of_succ_lt hi)
    obtain ⟨hlt, hspell⟩ := getElem?_succ_spell false [] text hp hq
    rw [hd] at hspell
    obtain rfl := Option.some.inj hspell
    rw [← follows_iff hp hq hlt, List.nil_append]
    cases follows text _ q <;> simp [cased]

theorem exists_identifier_eq_cons (name : String) :
    ∃ c rest, (identifier name).toList = c :: rest ∧ ¬ c.isDigit := by
  unfold identifier
  split
  · exact ⟨'e', "lement".toList, rfl, by decide⟩
  · next c rest _ =>
    split
    · exact ⟨'_', c :: rest, String.toList_ofList, by decide⟩
    · next hc => exact ⟨c, rest, String.toList_ofList, hc⟩

/-- A name without letters and digits gives `element`. Any other gives its letters and digits in
their order, after an underscore if a digit comes first; the capitals among them are the letters
that start a word other than the first one. -/
theorem identifier_spelled (name : String) :
    (name.toList.filter Char.isAlphanum = [] → identifier name = "element") ∧
    (∀ first rest, name.toList.filter Char.isAlphanum = first :: rest → ∃ spelled : List Char,
      (identifier name).toList = (if first.isDigit then ['_'] else []) ++ spelled ∧
      spelled.map Char.toLower = (first :: rest).map Char.toLower ∧
      ∀ i c d, (first :: rest)[i]? = some c → spelled[i]? = some d →
        (d.isUpper ↔ c.isAlpha ∧ i ≠ 0 ∧ StartsWordAt name.toList i)) ∧
    (∃ c rest, (identifier name).toList = c :: rest ∧ ¬ c.isDigit) ∧
    ∀ c ∈ (identifier name).toList, c.isAlphanum ∨ c = '_' := by
  refine ⟨identifier_eq_element, fun first rest h => ?_, exists_identifier_eq_cons name,
    fun _ => isAlphanum_of_mem_identifier⟩
  refine ⟨spell false name.toList, toList_identifier h, ?_, fun i c d hc hd => ?_⟩
  · rw [map_toLower_spell, h]
  · exact isUpper_spell_iff (h ▸ hc) hd

/-- Runs of capitals, digits at the front and in the middle, and a letter beyond ASCII. -/
theorem identifier_spelled_of_acronym :
    let name := "2nd XMLHttp-request é9b"
    name.toList.filter Char.isAlphanum = '2' :: "ndXMLHttprequest9b".toList ∧
      identifier name = "_2NdXmlHttpRequest9B" ∧ StartsWordAt name.toList 6 ∧
      ¬ StartsWordAt name.toList 5 := by
  intro name
  have hletters : name.toList.filter Char.isAlphanum = '2' :: "ndXMLHttprequest9b".toList := by
    decide +kernel
  have htoken : identifier name = "_2NdXmlHttpRequest9B" := by decide +kernel
  obtain ⟨-, hspelled, -⟩ := identifier_spelled name
  obtain ⟨spelled, htext, -, hcapitals⟩ := hspelled _ _ hletters
  obtain rfl : spelled = "2NdXmlHttpRequest9B".toList := by
    rw [htoken] at htext
    exact (List.cons.inj htext).2.symm
  have hsix := hcapitals 6 'H' 'H' rfl rfl
  have hfive := hcapitals 5 'L' 'l' rfl rfl
  refine ⟨hletters, htoken, (hsix.1 (by decide)).2.2, fun h => ?_⟩
  exact absurd (hfive.2 ⟨by decide, by decide, h⟩) (by decide)

end C4.Dsl
