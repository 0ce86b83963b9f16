import C4.Dsl.Element
import C4.Proofs.Nesting

/-!
# Headers

A document does not say outright which of its lines introduce an entity. It can be told from a
line and the block that it stands in. Inside an element's block the lines that begin with a token
and an equals sign introduce another element. That a token is never mistaken for a keyword
rests on its being free of blanks.
-/
namespace C4.Dsl

theorem mem_prepend {c x : Char} {words : List (List Char)} {word : List Char}
    (hword : word ∈ prepend c words) (hx : x ∈ word) : x = c ∨ ∃ w ∈ words, x ∈ w := by
  cases words with
  | nil =>
    obtain rfl := List.mem_singleton.1 hword
    exact Or.inl (List.mem_singleton.1 hx)
  | cons first rest =>
    rcases List.mem_cons.1 hword with rfl | hword
    · rcases List.mem_cons.1 hx with hx | hx
      · exact Or.inl hx
      · exact Or.inr ⟨first, List.mem_cons_self, hx⟩
    · exact Or.inr ⟨word, List.mem_cons_of_mem _ hword, hx⟩

theorem isAlphanum_of_mem_runs {text word : List Char} (hword : word ∈ runs text) :
    ∀ x ∈ word, x.isAlphanum := by
  -- The cases are those of `runs`: the text ends, a run goes on, a run ends, or there is none.
  induction text using runs.induct generalizing word with
  | case1 => cases hword
  | case2 c hc =>
    rw [runs, if_pos hc] at hword
    obtain rfl := List.mem_singleton.1 hword
    simpa using hc
  | case3 c hc =>
    rw [runs, if_neg hc] at hword
    cases hword
  | case4 c d rest hc hd ih =>
    rw [runs, if_pos hc, if_pos hd] at hword
    intro x hx
    rcases mem_prepend hword hx with rfl | ⟨w, hw, hxw⟩
    · exact hc
    · exact ih hw x hxw
  | case5 c d rest hc hd ih =>
    rw [runs, if_pos hc, if_neg hd] at hword
    rcases List.mem_cons.1 hword with rfl | hword
    · simpa using hc
    · exact ih hword
  | case6 c d rest hc ih =>
    rw [runs, if_neg hc] at hword
    exact ih hword

theorem mem_of_mem_words {run word : List Char} (hword : word ∈ words run) :
    ∀ x ∈ word, x ∈ run := by
  induction run using words.induct generalizing word with
  | case1 => cases hword
  | case2 c =>
    obtain rfl := List.mem_singleton.1 hword
    exact fun _ hx => hx
  | case3 c d rest hstart ih =>
    rw [words, if_pos hstart] at hword
    intro x hx
    rcases List.mem_cons.1 hword with rfl | hword
    · exact List.mem_singleton.1 hx ▸ List.mem_cons_self
    · exact List.mem_cons_of_mem _ (ih hword x hx)
  | case4 c d rest hstart ih =>
    rw [words, if_neg hstart] at hword
    intro x hx
    rcases mem_prepend hword hx with rfl | ⟨w, hw, hxw⟩
    · exact List.mem_cons_self
    · exact List.mem_cons_of_mem _ (ih hw x hxw)

theorem mem_camelCase {words : List (List Char)} {x : Char} (hx : x ∈ camelCase words) :
    ∃ word ∈ words, ∃ c ∈ word, x = c.toLower ∨ x = c.toUpper := by
  cases words with
  | nil => cases hx
  | cons first later =>
    rcases List.mem_append.1 hx with hx | hx
    · obtain ⟨c, hc, rfl⟩ := List.mem_map.1 hx
      exact ⟨first, List.mem_cons_self, c, hc, Or.inl rfl⟩
    · obtain ⟨word, hword, hx⟩ := List.mem_flatMap.1 hx
      cases word with
      | nil => cases hx
      | cons c rest =>
        refine ⟨_, List.mem_cons_of_mem _ hword, ?_⟩
        rcases List.mem_cons.1 hx with hx | hx
        · exact ⟨c, List.mem_cons_self, Or.inr hx⟩
        · obtain ⟨d, hd, rfl⟩ := List.mem_map.1 hx
          exact ⟨d, List.mem_cons_of_mem _ hd, Or.inl rfl⟩

theorem isAlphanum_of_letter {c : Char}
    (h : 65 ≤ c.toNat ∧ c.toNat ≤ 90 ∨ 97 ≤ c.toNat ∧ c.toNat ≤ 122) : c.isAlphanum := by
  unfold Char.isAlphanum Char.isAlpha Char.isUpper Char.isLower
  simp [UInt32.le_iff_toNat_le]
  omega

theorem isAlphanum_toLower {c : Char} (h : c.isAlphanum) : c.toLower.isAlphanum := by
  unfold Char.toLower
  split
  · next hc =>
    refine isAlphanum_of_letter (Or.inr ?_)
    have hlow := UInt32.le_iff_toNat_le.1 hc.1
    have hhigh := UInt32.le_iff_toNat_le.1 hc.2
    simp at *
    omega
  · exact h

theorem isAlphanum_toUpper {c : Char} (h : c.isAlphanum) : c.toUpper.isAlphanum := by
  unfold Char.toUpper
  split
  · next hc =>
    refine isAlphanum_of_letter (Or.inl ?_)
    have hlow := UInt32.le_iff_toNat_le.1 hc.1
    have hhigh := UInt32.le_iff_toNat_le.1 hc.2
    simp at *
    omega
  · exact h

theorem isAlphanum_of_mem_camelCase {text : List Char} {x : Char}
    (hx : x ∈ camelCase ((runs text).flatMap words)) : x.isAlphanum := by
  obtain ⟨word, hword, c, hc, hx⟩ := mem_camelCase hx
  obtain ⟨run, hrun, hword⟩ := List.mem_flatMap.1 hword
  have halnum := isAlphanum_of_mem_runs hrun c (mem_of_mem_words hword c hc)
  rcases hx with rfl | rfl
  · exact isAlphanum_toLower halnum
  · exact isAlphanum_toUpper halnum

theorem isAlphanum_of_mem_identifier {name : String} {x : Char}
    (hx : x ∈ (identifier name).toList) : x.isAlphanum ∨ x = '_' := by
  unfold identifier at hx
  split at hx
  · have helement : "element".toList.all Char.isAlphanum = true := by decide
    exact Or.inl (List.all_eq_true.1 helement x hx)
  · next c rest hcamel =>
    have hmem : x ∈ c :: rest → x.isAlphanum := fun h => isAlphanum_of_mem_camelCase (hcamel ▸ h)
    split at hx
    · rw [String.toList_ofList] at hx
      rcases List.mem_cons.1 hx with rfl | hx
      · exact Or.inr rfl
      · exact Or.inl (hmem hx)
    · rw [String.toList_ofList] at hx
      exact Or.inl (hmem hx)

theorem isAlphanum_of_mem_token {m : Model} {id : ElementId} {token : String}
    (h : m.token id = .ok token) {x : Char} (hx : x ∈ token.toList) : x.isAlphanum ∨ x = '_' := by
  have hidentifier : ∃ name, token = identifier name := by
    unfold Model.token at h
    repeat' split at h
    all_goals cases h
    all_goals exact ⟨_, rfl⟩
  obtain ⟨name, rfl⟩ := hidentifier
  exact isAlphanum_of_mem_identifier hx

theorem not_mem_token {m : Model} {id : ElementId} {token : String} (h : m.token id = .ok token)
    {c : Char} (hc : ¬ (c.isAlphanum ∨ c = '_')) : c ∉ token.toList :=
  fun hmem => hc (isAlphanum_of_mem_token h hmem)

def definesToken (text : String) : Bool :=
  [' ', '=', ' '].isPrefixOf (text.toList.dropWhile (· ≠ ' '))

/-- Whether a line that stands directly in the block of an entity introduces another one. All
lines inside a health check, a view or a style are about that itself. -/
def Subject.admits (text : String) : Subject → Bool
  | .workspace _ | .model | .views | .styles | .enterprise _ | .environment _ => true
  | .element _ _ => definesToken text || "healthCheck ".toList.isPrefixOf text.toList
  | .healthCheck _ | .relationship _ _ | .view _ _ | .elementStyle _ | .relationshipStyle _ => false

/-- Whether a line, in its place, introduces an entity of its own. A block of properties belongs
to the entity around it. -/
def introduces (around : Surround) (text : String) : Bool :=
  match around with
  | [] => true
  | (subject, header) :: _ =>
    if header = "properties" ∨ text = "properties" then false else subject.admits text

theorem introduces_cons (subject : Subject) (header text : String) (around : Surround) :
    introduces ((subject, header) :: around) text =
      if header = "properties" ∨ text = "properties" then false else subject.admits text := rfl

theorem definesToken_of_token {m : Model} {id : ElementId} {token : String}
    (h : m.token id = .ok token) (rest : String) :
    definesToken (token ++ " = " ++ rest) = true := by
  have htoken : ∀ x ∈ token.toList, decide (x ≠ ' ') = true := by
    intro x hx
    refine decide_eq_true ?_
    rintro rfl
    exact not_mem_token h (by decide) hx
  unfold definesToken
  rw [String.append_assoc, String.toList_append, List.dropWhile_append_of_pos htoken,
    String.toList_append]
  rfl

theorem ne_properties_of_blank {text : String} (h : ' ' ∈ text.toList) : text ≠ "properties" := by
  rintro rfl
  exact absurd h (by decide)

theorem definesToken_ne_properties {text : String} (h : definesToken text = true) :
    text ≠ "properties" := by
  rintro rfl
  exact absurd h (by decide)

theorem introduces_properties (subject : Subject) (header : String) (around : Surround) :
    introduces ((subject, header) :: around) "properties" = false := by
  rw [introduces_cons, if_pos (Or.inr rfl)]

theorem introduces_inside_properties (subject : Subject) (around : Surround) (text : String) :
    introduces ((subject, "properties") :: around) text = false := by
  rw [introduces_cons, if_pos (Or.inl rfl)]

theorem introduces_inside_element {id : ElementId} {name header text : String} {around : Surround}
    (hdefine : definesToken text = false)
    (hcheck : "healthCheck ".toList.isPrefixOf text.toList = false) :
    introduces ((.element id name, header) :: around) text = false := by
  rw [introduces_cons, Subject.admits, hdefine, hcheck]
  exact ite_self false

theorem introduces_tags (id : ElementId) (name header rest : String) (around : Surround) :
    introduces ((.element id name, header) :: around) ("tags " ++ quote rest) = false := by
  apply introduces_inside_element
  · unfold definesToken quote
    simp only [String.toList_append, String.toList_ofList]
    rfl
  · rw [String.toList_append]
    rfl

theorem introduces_instanceId (id : ElementId) (name header : String) (around : Surround)
    (number : Nat) :
    introduces ((.element id name, header) :: around) ("instanceId " ++ toString number) =
      false := by
  apply introduces_inside_element
  · unfold definesToken
    rw [String.toList_append]
    have hdrop : ("instanceId ".toList ++ (toString number).toList).dropWhile (· ≠ ' ') =
        ' ' :: (toString number).toList := rfl
    rw [hdrop, Nat.toString_eq_repr, Nat.toList_repr]
    cases hdigits : Nat.toDigits 10 number with
    | nil => rfl
    | cons digit rest =>
      have hdigit : digit.isDigit :=
        Nat.isDigit_of_mem_toDigits (by decide) (by decide) (hdigits ▸ List.mem_cons_self)
      have hne : digit ≠ '=' := by
        rintro rfl
        exact absurd hdigit (by decide)
      simp [List.isPrefixOf, Ne.symm hne]
  · rw [String.toList_append]
    rfl

end C4.Dsl
