import C4.Proofs.Fragments

/-!
# Sections

The sections of a block that hold anything follow each other, with what sets them apart between
any two of them. An outline has a section that holds items only if something of it can be seen, so
the directives of a block are divided as its items are.
-/
namespace C4

open Dsl

namespace Dsl

def enclosed (around : Surround) (subject : Subject) (header : String)
    (body : Surround → List Placed) : List Placed :=
  ⟨around, subject, .opening header⟩ ::
    (body ((subject, header) :: around) ++ [⟨(subject, header) :: around, subject, .closing⟩])

/-- The parts that hold anything, with a gap between any two of them. -/
def setApart {α : Type*} (gap : List α) (parts : List (List α)) : List α :=
  gap.intercalate (parts.filter fun part => !part.isEmpty)

def Layout.gap (l : Layout) (around : Surround) (subject : Subject) : List Placed :=
  if l.sectionSpacing then [⟨around, subject, .gap⟩] else []

def propertyDirectives (around : Surround) (subject : Subject) (properties : Properties) :
    List Placed :=
  if properties.isEmpty then []
  else enclosed around subject "properties" fun around =>
    properties.entries.map fun entry => ⟨around, subject, .line (propertyLine entry)⟩

variable {around : Surround}

theorem placedOf_block (subject : Subject) (header : String) (body : List Item) :
    placedOf around [.block subject header body] =
      enclosed around subject header fun around => placedOf around body := by
  rw [placedOf_cons, placedOf_nil, List.append_nil, placed_block]
  rfl

theorem placedOf_separator (l : Layout) (subject : Subject) :
    placedOf around (l.separator subject) = l.gap around subject := by
  unfold Layout.separator Layout.gap
  split <;> simp

theorem placedOf_propertyBlock (subject : Subject) (properties : Properties) :
    placedOf around (propertyBlock subject properties) =
      propertyDirectives around subject properties := by
  unfold propertyBlock propertyDirectives
  split
  · rfl
  · rw [placedOf_block]
    simp [placedOf, List.flatMap_map, ← List.map_eq_flatMap]

theorem infix_intercalate {α : Type*} {gap part : List α} {parts : List (List α)}
    (h : part ∈ parts) : part <:+: gap.intercalate parts := by
  induction parts with
  | nil => cases h
  | cons first parts ih =>
    cases parts with
    | nil =>
      obtain rfl := List.mem_singleton.1 h
      simp
    | cons second parts =>
      rw [List.intercalate_cons_cons]
      rcases List.mem_cons.1 h with rfl | h
      · rw [List.append_assoc]
        exact (List.prefix_append ..).isInfix
      · exact (ih h).trans (List.suffix_append ..).isInfix

theorem infix_setApart {α : Type*} {gap part : List α} {parts : List (List α)}
    (h : part ∈ parts) : part <:+: setApart gap parts := by
  by_cases hpart : part = []
  · rw [hpart]
    exact List.nil_infix
  · exact infix_intercalate (List.mem_filter.2 ⟨h, by simpa using hpart⟩)

theorem flatMap_intercalate {α β : Type*} (f : α → List β) (gap : List α)
    (parts : List (List α)) : (gap.intercalate parts).flatMap f =
      (gap.flatMap f).intercalate (parts.map (List.flatMap f)) := by
  induction parts with
  | nil => rfl
  | cons part parts ih =>
    cases parts with
    | nil => simp
    | cons second parts =>
      rw [List.map_cons, List.map_cons, List.intercalate_cons_cons, List.intercalate_cons_cons,
        List.flatMap_append, List.flatMap_append, ih, List.map_cons]

theorem flatMap_setApart {α β : Type*} {f : α → List β} {gap : List α} {parts : List (List α)}
    (h : ∀ part ∈ parts, part.flatMap f = [] → part = []) :
    (setApart gap parts).flatMap f =
      setApart (gap.flatMap f) (parts.map (List.flatMap f)) := by
  have hsame : parts.filter (fun part => !(part.flatMap f).isEmpty) =
      parts.filter fun part => !part.isEmpty := by
    refine List.filter_congr fun part hpart => ?_
    have hempty : (part.flatMap f).isEmpty = part.isEmpty := by
      rw [Bool.eq_iff_iff, List.isEmpty_iff, List.isEmpty_iff]
      exact ⟨h part hpart, fun hnil => by rw [hnil, List.flatMap_nil]⟩
    rw [hempty]
  rw [setApart, setApart, flatMap_intercalate, List.filter_map, Function.comp_def, hsame]

theorem setApart_of_skip {α β : Type*} {f : List α → β} {gap : List α}
    (hskip : ∀ before after, f (before ++ (gap ++ after)) = f (before ++ after))
    (parts : List (List α)) : f (setApart gap parts) = f parts.flatten := by
  have hjoin (before : List α) (parts : List (List α)) :
      f (before ++ gap.intercalate parts) = f (before ++ parts.flatten) := by
    induction parts generalizing before with
    | nil => rfl
    | cons part parts ih =>
      cases parts with
      | nil => simp
      | cons next parts =>
        rw [List.intercalate_cons_cons, List.flatten_cons, List.append_assoc part,
          ← List.append_assoc before, hskip, ih, List.append_assoc]
  rw [setApart, ← List.flatten_filter_not_isEmpty]
  exact hjoin [] _

theorem spaced_eq_setApart (separator : List Item) (sections : List (List Item)) :
    spaced separator sections = setApart separator sections := by
  induction sections with
  | nil => rfl
  | cons items sections ih =>
    cases items with
    | nil => exact ih
    | cons item items =>
      unfold spaced
      rw [ih]
      -- Nothing that holds anything is left exactly if nothing follows.
      cases hrest : sections.filter fun part => !part.isEmpty with
      | nil => simp [setApart, hrest]
      | cons first rest =>
        have hmem : first ∈ sections.filter fun part => !part.isEmpty :=
          hrest ▸ List.mem_cons_self
        have hfirst : first ∈ sections ∧ first ≠ [] := by simpa using hmem
        split
        · next hnil =>
          have hinside : first <:+: setApart separator sections := infix_setApart hfirst.1
          rw [hnil, List.infix_nil] at hinside
          exact absurd hinside hfirst.2
        · simp [setApart, hrest, List.intercalate_cons_cons]

theorem infix_enclosed {subject : Subject} {header : String} {body : Surround → List Placed}
    {placed : List Placed} (h : placed <:+: body ((subject, header) :: around)) :
    placed <:+: enclosed around subject header body :=
  (h.trans (List.prefix_append ..).isInfix).trans (List.suffix_cons ..).isInfix

structure Shown (items : List Item) : Prop where
  visible : fault items = none → items = [] ∨ ∀ around, placedOf around items ≠ []

theorem shown_nil : Shown [] := ⟨fun _ => Or.inl rfl⟩

theorem shown_of_mem {items : List Item} {item : Item} (hitem : item ∈ items)
    (h : ∀ around, item.placed around ≠ []) : Shown items :=
  ⟨fun _ => Or.inr fun around hnil => h around (List.flatMap_eq_nil_iff.1 hnil item hitem)⟩

theorem shown_block_of_mem {subject : Subject} {header : String} {body items : List Item}
    (h : .block subject header body ∈ items) : Shown items :=
  shown_of_mem h fun around => by simp [braced]

theorem shown_entity_of_mem {subject : Subject} {header : String} {body items : List Item}
    (h : .entity subject header body ∈ items) : Shown items :=
  shown_of_mem h fun around => by
    rw [placed_entity]
    split <;> simp [braced]

theorem shown_dangling (error : RenderError) : Shown [.dangling error] := by
  constructor
  intro hfault
  rw [fault_dangling] at hfault
  cases hfault

theorem shown_withToken {token : Except RenderError String} {draw : String → List Item}
    (h : ∀ t, Shown (draw t)) : Shown (withToken token draw) :=
  withToken_of_draw shown_dangling fun t _ => h t

theorem shown_flatMap {α : Type*} {f : α → List Item} {l : List α} (h : ∀ a, Shown (f a)) :
    Shown (l.flatMap f) := by
  constructor
  intro hfault
  by_cases hnil : ∀ a ∈ l, f a = []
  · exact Or.inl (List.flatMap_eq_nil_iff.2 hnil)
  · simp only [not_forall] at hnil
    obtain ⟨a, ha, hne⟩ := hnil
    have hnone := fault_of_isInfix (infix_flatMap f ha) hfault
    refine Or.inr fun around hplaced => ?_
    rw [placedOf_flatMap] at hplaced
    exact ((h a).visible hnone).resolve_left hne around (List.flatMap_eq_nil_iff.1 hplaced a ha)

theorem placedOf_spaced {separator : List Item} {sections : List (List Item)}
    (hfault : fault sections.flatten = none) (h : ∀ items ∈ sections, Shown items) :
    placedOf around (spaced separator sections) =
      setApart (placedOf around separator) (sections.map (placedOf around)) := by
  rw [spaced_eq_setApart]
  refine flatMap_setApart fun items hitems hnil => ?_
  have hnone := fault_of_isInfix (List.infix_of_mem_flatten hitems) hfault
  exact ((h items hitems).visible hnone).resolve_right fun hshown => hshown around hnil

theorem shown_personItems (m : Model) (id : PersonId) : Shown (personItems m id) := by
  unfold personItems
  split
  · exact shown_dangling _
  · refine shown_withToken fun token => ?_
    exact shown_entity_of_mem (List.mem_cons_of_mem _ List.mem_cons_self)

theorem shown_softwareSystemItems (m : Model) (id : SoftwareSystemId) :
    Shown (softwareSystemItems m id) := by
  unfold softwareSystemItems
  split
  · exact shown_dangling _
  · refine shown_withToken fun token => ?_
    exact shown_entity_of_mem (List.mem_cons_of_mem _ List.mem_cons_self)

theorem shown_relationshipItems (m : Model) (id : RelationshipId) :
    Shown (relationshipItems m id) := by
  unfold relationshipItems
  split
  · exact shown_dangling _
  · exact shown_withToken fun ends => shown_of_mem List.mem_cons_self fun around => by simp

theorem shown_propertyBlock (subject : Subject) (properties : Properties) :
    Shown (propertyBlock subject properties) := by
  unfold propertyBlock
  split
  · exact shown_nil
  · exact shown_block_of_mem List.mem_cons_self

theorem shown_modelSections (m : Model) : ∀ items ∈ modelSections m, Shown items := by
  rw [modelSections]
  simp only [List.forall_mem_cons]
  refine ⟨shown_propertyBlock .., shown_flatMap (shown_personItems m),
    shown_flatMap (shown_softwareSystemItems m), ?enterprise, ?environments,
    shown_flatMap (shown_relationshipItems m), List.forall_mem_nil _⟩
  case enterprise =>
    cases m.enterprise with
    | none => exact shown_nil
    | some e => exact shown_block_of_mem List.mem_cons_self
  case environments =>
    unfold environmentsItems
    split
    · exact shown_dangling _
    · exact shown_flatMap fun g =>
        shown_block_of_mem (List.mem_cons_of_mem _ List.mem_cons_self)

theorem shown_viewItems (m : Model) (vs : Views) (id : ViewId) : Shown (viewItems m vs id) := by
  have drawn {token : Except RenderError String} {subject : Subject} {header : String → String}
      {body : String → List Item} :
      Shown (withToken token fun t => [.block subject (header t) (body t)]) :=
    shown_withToken fun t => shown_block_of_mem List.mem_cons_self
  cases id with
  | systemContext | container | component | dynamic =>
    exact getD_map_of (motive := Shown) (shown_dangling _) fun v _ => drawn
  | deployment =>
    exact getD_map_of (motive := Shown) (shown_dangling _) fun v _ =>
      shown_block_of_mem List.mem_cons_self
  | filtered =>
    exact getD_map_of (motive := Shown) (shown_dangling _) fun v _ =>
      shown_block_of_mem (List.mem_append_right _ List.mem_cons_self)

theorem shown_stylesItems (s : Styles) : Shown (stylesItems s) := by
  unfold stylesItems
  split
  · exact shown_nil
  · exact shown_block_of_mem (List.mem_cons_of_mem _ List.mem_cons_self)

theorem shown_viewSections (m : Model) (vs : Views) :
    ∀ items ∈ vs.ids.map (viewItems m vs) ++ [stylesItems vs.styles], Shown items := by
  intro items hitems
  rcases List.mem_append.1 hitems with hitems | hitems
  · obtain ⟨id, -, rfl⟩ := List.mem_map.1 hitems
    exact shown_viewItems ..
  · obtain rfl := List.mem_singleton.1 hitems
    exact shown_stylesItems _

end Dsl

end C4
