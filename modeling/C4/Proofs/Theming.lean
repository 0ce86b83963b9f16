import C4.Proofs.Spacing
import C4.Theme.Basic

/-!
# Themes applied

A theme leaves a document as it was but for the styles block. There its element styles stand behind
those that have been there before, and its relationship styles at the end. The block appears with
the first style, and what sets it apart from the views appears with it.
-/
namespace C4

open Dsl

theorem Styles.isEmpty_append (s more : Styles) :
    (s.append more).isEmpty = (s.isEmpty && more.isEmpty) := by
  rw [Bool.eq_iff_iff]
  simp only [isEmpty, append, Bool.and_eq_true, List.isEmpty_iff, List.append_eq_nil_iff]
  tauto

namespace Dsl

def styleDirectives (around : Surround) (subject : Subject) (tag : String) (lines : List String) :
    List Placed :=
  enclosed around subject ("element " ++ quote tag) fun around =>
    lines.map fun line => ⟨around, subject, .line line⟩

def elementStyleBlocks (around : Surround) (styles : List ElementStyle) : List Placed :=
  styles.flatMap fun style =>
    styleDirectives around (.elementStyle style.tag) style.tag style.lines

def relationshipStyleBlocks (around : Surround) (styles : List RelationshipStyle) : List Placed :=
  styles.flatMap fun style =>
    styleDirectives around (.relationshipStyle style.tag) style.tag style.lines

variable {around : Surround}

theorem elementStyleBlocks_append (styles more : List ElementStyle) :
    elementStyleBlocks around (styles ++ more) =
      elementStyleBlocks around styles ++ elementStyleBlocks around more := List.flatMap_append

theorem relationshipStyleBlocks_append (styles more : List RelationshipStyle) :
    relationshipStyleBlocks around (styles ++ more) =
      relationshipStyleBlocks around styles ++ relationshipStyleBlocks around more :=
  List.flatMap_append

theorem placedOf_styleItem (subject : Subject) (tag : String) (lines : List String) :
    placedOf around [styleItem subject tag lines] = styleDirectives around subject tag lines := by
  unfold styleItem styleDirectives
  rw [placedOf_block]
  simp [placedOf, List.flatMap_map, ← List.map_eq_flatMap]

theorem placedOf_stylesItems (s : Styles) : placedOf around (stylesItems s) =
    if s.isEmpty then [] else enclosed around .styles "styles" fun around =>
      elementStyleBlocks around s.elements ++ relationshipStyleBlocks around s.relationships := by
  have blocks {α : Type} (around : Surround) (item : α → Item) (styles : List α) :
      placedOf around (styles.map item) = styles.flatMap fun style =>
        placedOf around [item style] := by
    rw [List.map_eq_flatMap, placedOf_flatMap]
  unfold stylesItems
  split
  · rfl
  · rw [placedOf_cons, placed_note, List.nil_append, placedOf_block]
    refine congrArg (enclosed _ _ _) (funext fun around => ?_)
    rw [placedOf_append, blocks, blocks]
    simp only [placedOf_styleItem, elementStyleBlocks, relationshipStyleBlocks]

theorem intercalate_concat {α : Type*} (gap : List α) {parts : List (List α)} (last : List α)
    (h : parts ≠ []) :
    gap.intercalate (parts ++ [last]) = gap.intercalate parts ++ gap ++ last := by
  induction parts with
  | nil => exact absurd rfl h
  | cons part parts ih =>
    cases parts with
    | nil => simp [List.intercalate_cons_cons]
    | cons next parts =>
      rw [List.cons_append, List.cons_append, List.intercalate_cons_cons,
        List.intercalate_cons_cons, ← List.cons_append, ih (List.cons_ne_nil _ _)]
      simp only [List.append_assoc]

theorem setApart_concat {α : Type*} (gap : List α) (parts : List (List α)) (last : List α) :
    setApart gap (parts ++ [last]) = setApart gap parts ++
      if last.isEmpty then [] else (if parts.all List.isEmpty then [] else gap) ++ last := by
  have hnone : parts.all List.isEmpty = true ↔ parts.filter (fun part => !part.isEmpty) = [] := by
    simp [List.filter_eq_nil_iff]
  unfold setApart
  rw [List.filter_append]
  by_cases hlast : last.isEmpty = true
  · simp [hlast]
  · rw [if_neg hlast, List.filter_cons_of_pos (by simpa using hlast), List.filter_nil]
    split
    · next hparts => simp [hnone.1 hparts]
    · next hparts =>
      rw [intercalate_concat gap last (mt hnone.2 hparts), List.append_assoc]

end Dsl

namespace Workspace

def withStyles (w : Workspace) (s : Styles) : Workspace :=
  { w with views := { w.views with styles := s } }

def themed (w : Workspace) (t : Theme) : Workspace := w.withStyles (t.apply w.views.styles)

/-- A document down to its last view. -/
def aboveStyles (w : Workspace) (l : Layout) : List Placed :=
  ⟨[], w.subject, .opening w.headerLine⟩ :: (w.modelDirectives l ++
    ⟨[(w.subject, w.headerLine)], .views, .opening "views"⟩ ::
      setApart (l.gap w.inViews .views)
        (w.views.ids.map fun id => w.slice w.inViews (.view id)))

/-- The styles block around some blocks, and what sets it apart from the views. -/
def stylesSection (w : Workspace) (l : Layout) (blocks : Surround → List Placed) : List Placed :=
  (if w.views.ids.isEmpty then [] else l.gap w.inViews .views) ++
    enclosed w.inViews .styles "styles" blocks

def belowStyles (w : Workspace) : List Placed :=
  [⟨w.inViews, .views, .closing⟩, ⟨[(w.subject, w.headerLine)], w.subject, .closing⟩]

variable {w : Workspace} {l : Layout}

theorem fault_withStyles (w : Workspace) (s : Styles) (l : Layout) :
    fault ((w.withStyles s).outline l) = fault (w.outline l) := by
  have hviews (w : Workspace) : fault [viewsBlock l w.model w.views] =
      fault (w.views.ids.map (viewItems w.model w.views)).flatten := by
    rw [viewsBlock, fault_block, fault_spaced (fault_separator l _), List.flatten_append,
      fault_append, List.flatten_singleton, fault_stylesItems, Option.or_none]
  rw [fault_outline_eq, fault_outline_eq, hviews, hviews]
  rfl

theorem all_isEmpty_slices (hfault : fault (w.outline l) = none) :
    (w.views.ids.map fun id => w.slice w.inViews (.view id)).all List.isEmpty =
      w.views.ids.isEmpty := by
  obtain ⟨-, hviews⟩ := fault_sections hfault
  have hempty : (w.viewParts w.inViews).map List.isEmpty =
      w.views.ids.map (fun _ => false) ++ [w.views.styles.isEmpty] := by
    rw [← placedOf_viewSections hviews,
      isEmpty_placedOf hviews (shown_viewSections w.model w.views)]
    exact isEmpty_viewSections w
  rw [viewParts, List.map_append, List.map_map] at hempty
  have hslices := (List.append_inj hempty (by simp)).1
  cases hids : w.views.ids with
  | nil => rfl
  | cons id ids =>
    rw [hids, List.map_cons, List.map_cons] at hslices
    have hfirst := (List.cons.inj hslices).1
    rw [List.map_cons, List.all_cons]
    simpa using fun h => absurd h (by simpa using hfirst)

theorem placed_eq_styled (hfault : fault (w.outline l) = none) : w.placed l =
    w.aboveStyles l ++ (if w.views.styles.isEmpty then [] else w.stylesSection l fun around =>
      elementStyleBlocks around w.views.styles.elements ++
        relationshipStyleBlocks around w.views.styles.relationships) ++ w.belowStyles := by
  have hblock : w.slice w.inViews .styles = if w.views.styles.isEmpty then [] else
      enclosed w.inViews .styles "styles" fun around =>
        elementStyleBlocks around w.views.styles.elements ++
          relationshipStyleBlocks around w.views.styles.relationships :=
    (placedOf_eq_slice (f := .styles) (fault_stylesItems _) _).symm.trans (placedOf_stylesItems _)
  have hviews : setApart (l.gap w.inViews .views) (w.viewParts w.inViews) =
      setApart (l.gap w.inViews .views) (w.views.ids.map fun id => w.slice w.inViews (.view id)) ++
        if w.views.styles.isEmpty then [] else w.stylesSection l fun around =>
          elementStyleBlocks around w.views.styles.elements ++
            relationshipStyleBlocks around w.views.styles.relationships := by
    rw [viewParts, setApart_concat, all_isEmpty_slices hfault, hblock]
    refine congrArg (_ ++ ·) ?_
    split
    · rfl
    · simp [stylesSection, enclosed]
  rw [placed_of_outcome_ok (outcome_ok_iff_fault.2 hfault), viewsDirectives_eq hfault, enclosed]
  rw [inViews] at hviews
  rw [hviews]
  simp only [aboveStyles, belowStyles, inViews, List.cons_append, List.append_assoc,
    List.nil_append]

end Workspace

/-- A theme adds its styles to a document and leaves it otherwise as it was. Two themes that are
applied one after the other are one theme with the styles of both. -/
theorem theme_appended (w : Workspace) (t : Theme) (l : Layout) :
    (∀ e, ((w.themed t).render l).result = .error e ↔ (w.render l).result = .error e) ∧
    (∀ text, (w.render l).result = .ok text → text = l.textOf (w.placed l) ∧
      w.placed l = w.aboveStyles l ++
        (if w.views.styles.isEmpty then [] else w.stylesSection l fun around =>
          elementStyleBlocks around w.views.styles.elements ++
            relationshipStyleBlocks around w.views.styles.relationships) ++ w.belowStyles ∧
      ((w.themed t).render l).result = .ok (l.textOf ((w.themed t).placed l)) ∧
      (w.themed t).placed l = w.aboveStyles l ++
        (if w.views.styles.isEmpty && t.styles.isEmpty then [] else w.stylesSection l fun around =>
          elementStyleBlocks around w.views.styles.elements ++
            elementStyleBlocks around t.styles.elements ++
            relationshipStyleBlocks around w.views.styles.relationships ++
            relationshipStyleBlocks around t.styles.relationships) ++ w.belowStyles) ∧
    ∀ (t' : Theme) (name description : Option String),
      (w.themed t).themed t' = w.themed ⟨name, description, t.styles.append t'.styles⟩ := by
  refine ⟨fun e => ?_, fun text htext => ?_, fun t' name description => ?_⟩
  · rw [Workspace.result_eq_error, Workspace.result_eq_error, Workspace.themed,
      Workspace.fault_withStyles]
  · have hfault : fault (w.outline l) = none :=
      Workspace.outcome_ok_iff_fault.1 (Workspace.exists_result_iff.1 ⟨text, htext⟩)
    have hthemed : fault ((w.themed t).outline l) = none :=
      (w.fault_withStyles _ l).trans hfault
    refine ⟨?_, Workspace.placed_eq_styled hfault, Workspace.result_of_fault hthemed, ?_⟩
    · exact Except.ok.inj (htext.symm.trans (Workspace.result_of_fault hfault))
    · rw [Workspace.placed_eq_styled hthemed, ← Styles.isEmpty_append]
      have hblocks (around : Surround) :
          elementStyleBlocks around (w.themed t).views.styles.elements ++
            relationshipStyleBlocks around (w.themed t).views.styles.relationships =
          elementStyleBlocks around w.views.styles.elements ++
            elementStyleBlocks around t.styles.elements ++
            relationshipStyleBlocks around w.views.styles.relationships ++
            relationshipStyleBlocks around t.styles.relationships := by
        rw [← elementStyleBlocks_append, List.append_assoc, ← relationshipStyleBlocks_append]
        rfl
      simp only [hblocks]
      rfl
  · simp only [Workspace.themed, Workspace.withStyles, Theme.apply, Styles.append,
      List.append_assoc]

/-- A view stands before the styles, which are one of each kind before the theme is applied and two
of each kind afterwards. -/
theorem theme_appended_behind_styles :
    ∃ (w : Workspace) (t : Theme), (w.render ⟨1, true⟩).result = .ok (
        "workspace \x7b\n" ++ " model \x7b\n" ++ " \x7d\n" ++ " views \x7b\n" ++
        "  deploymentView \x7b\n" ++ "   environment \"Test\"\n" ++ "  \x7d\n" ++ "\n" ++
        "  styles \x7b\n" ++ "   element \"Person\" \x7b\n" ++ "    color \"red\"\n" ++
        "   \x7d\n" ++ "   element \"Call\" \x7b\n" ++ "   \x7d\n" ++ "  \x7d\n" ++ " \x7d\n" ++
        "\x7d\n") ∧
      ((w.themed t).render ⟨1, true⟩).result = .ok (
        "workspace \x7b\n" ++ " model \x7b\n" ++ " \x7d\n" ++ " views \x7b\n" ++
        "  deploymentView \x7b\n" ++ "   environment \"Test\"\n" ++ "  \x7d\n" ++ "\n" ++
        "  styles \x7b\n" ++ "   element \"Person\" \x7b\n" ++ "    color \"red\"\n" ++
        "   \x7d\n" ++ "   element \"Person\" \x7b\n" ++ "    shape Person\n" ++ "   \x7d\n" ++
        "   element \"Call\" \x7b\n" ++ "   \x7d\n" ++ "   element \"Call\" \x7b\n" ++
        "    style \"Dashed\"\n" ++ "   \x7d\n" ++ "  \x7d\n" ++ " \x7d\n" ++ "\x7d\n") ∧
      (w.themed t).placed ⟨1, true⟩ = w.aboveStyles ⟨1, true⟩ ++
        (w.stylesSection ⟨1, true⟩ fun around =>
          elementStyleBlocks around w.views.styles.elements ++
            elementStyleBlocks around t.styles.elements ++
            relationshipStyleBlocks around w.views.styles.relationships ++
            relationshipStyleBlocks around t.styles.relationships) ++ w.belowStyles := by
  let styles := (Styles.empty.addElementStyle
    ((ElementStyle.create "Person").set (.color "red"))).addRelationshipStyle (.create "Call")
  let w : Workspace := { Workspace.empty with views :=
    { (Views.empty.addDeploymentView none .test "" "").2 with styles } }
  let t : Theme :=
    { name := none
      description := none
      styles :=
        { elements := [(ElementStyle.create "Person").set (.shape .person)]
          relationships := [(RelationshipStyle.create "Call").set (.lineStyle .dashed)] } }
  have htext : ∃ text, (w.render ⟨1, true⟩).result = .ok text :=
    Workspace.exists_result_iff.2 (by decide +kernel)
  obtain ⟨text, htext⟩ := htext
  obtain ⟨hdocument, -, hthemed, hplaced⟩ := (theme_appended w t ⟨1, true⟩).2.1 text htext
  rw [show (w.views.styles.isEmpty && t.styles.isEmpty) = false by decide +kernel,
    if_neg Bool.false_ne_true] at hplaced
  refine ⟨w, t, htext.trans (congrArg _ (hdocument.trans ?_)), hthemed.trans (congrArg _ ?_),
    hplaced⟩
  · decide +kernel
  · decide +kernel

end C4
