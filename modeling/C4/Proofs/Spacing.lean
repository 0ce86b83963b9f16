import C4.Proofs.Assembly
import C4.Proofs.Discipline
import C4.Proofs.Writing
import Mathlib.Data.List.Chain

/-!
# Spacing

What the layout decides. Two layouts of a workspace differ in the width of an indent and in blank
rows, and in nothing else. A blank row stands between two sections of a block that follow each
other and both hold something, so it is never at the edge of a block and never next to another.
-/
namespace C4

open Dsl

namespace Dsl

/-- Some directives without the blank rows among them. -/
def withoutGaps (placed : List Placed) : List Placed := placed.filter fun p => p.directive ≠ .gap

def Solid (placed : List Placed) : Prop := ∀ p ∈ placed, p.directive ≠ .gap

/-- Which directives can follow each other where a blank row stands neither at the edge of a block
nor next to another. -/
def Follows (p q : Placed) : Prop :=
  (q.directive = .gap → p.directive ≠ .gap ∧ ∀ header, p.directive ≠ .opening header) ∧
    (p.directive = .gap → q.directive ≠ .gap ∧ q.directive ≠ .closing)

structure Settled (placed : List Placed) : Prop where
  chain : placed.IsChain Follows
  first : ∀ p ∈ placed.head?, p.directive ≠ .gap ∧ p.directive ≠ .closing
  last : ∀ p ∈ placed.getLast?, p.directive ≠ .gap ∧ ∀ header, p.directive ≠ .opening header

variable {placed more gap : List Placed} {parts : List (List Placed)} {p q : Placed}

theorem follows_of_solid (hp : p.directive ≠ .gap) (hq : q.directive ≠ .gap) : Follows p q :=
  ⟨fun h => absurd h hq, fun h => absurd h hp⟩

@[simp] theorem withoutGaps_append :
    withoutGaps (placed ++ more) = withoutGaps placed ++ withoutGaps more := List.filter_append ..

theorem withoutGaps_of_solid (h : Solid placed) : withoutGaps placed = placed :=
  List.filter_eq_self.2 fun p hp => decide_eq_true (h p hp)

theorem withoutGaps_gap (l : Layout) (around : Surround) (subject : Subject) :
    withoutGaps (l.gap around subject) = [] := by
  unfold Layout.gap
  split <;> rfl

theorem withoutGaps_enclosed (around : Surround) (subject : Subject) (header : String)
    (body : Surround → List Placed) : withoutGaps (enclosed around subject header body) =
      enclosed around subject header fun around => withoutGaps (body around) := by
  simp [enclosed, withoutGaps]

theorem withoutGaps_setApart (hgap : withoutGaps gap = []) (hparts : ∀ part ∈ parts, Solid part) :
    withoutGaps (setApart gap parts) = parts.flatten := by
  refine (setApart_of_skip (f := withoutGaps) (fun before after => by simp [hgap]) parts).trans ?_
  refine withoutGaps_of_solid fun p hp => ?_
  obtain ⟨part, hpart, hp⟩ := List.mem_flatten.1 hp
  exact hparts part hpart p hp

theorem setApart_nil {α : Type*} (parts : List (List α)) : setApart [] parts = parts.flatten :=
  setApart_of_skip (f := id) (fun before after => by simp) parts

theorem Balanced.head_ne_closing {calls rest : List Directive} (h : Balanced calls) :
    calls ≠ .closing :: rest := by
  rintro rfl
  cases h

theorem Balanced.last_ne_opening {calls before : List Directive} (h : Balanced calls)
    (header : String) : calls ≠ before ++ [.opening header] := by
  rintro rfl
  have hends := h.depthAfterAll_eq 0
  rw [depthAfterAll_append] at hends
  exact absurd hends (Nat.succ_ne_zero _)

theorem isChain_of_solid (h : Solid placed) : placed.IsChain Follows := by
  induction placed with
  | nil => exact .nil
  | cons p rest ih =>
    refine List.isChain_cons.2 ⟨fun q hq => ?_, ih fun q hq => h q (List.mem_cons_of_mem _ hq)⟩
    have hq' : q ∈ rest := List.mem_of_mem_head? hq
    exact follows_of_solid (h p List.mem_cons_self) (h q (List.mem_cons_of_mem _ hq'))

theorem settled_of_balanced (hsolid : Solid placed) (h : Balanced (placed.map (·.directive))) :
    Settled placed := by
  refine ⟨isChain_of_solid hsolid, ?first, ?last⟩
  case first =>
    intro p hp
    refine ⟨hsolid p (List.mem_of_mem_head? hp), fun hclosing => ?_⟩
    obtain ⟨rest, rfl⟩ := List.head?_eq_some_iff.1 hp
    rw [List.map_cons, hclosing] at h
    exact h.head_ne_closing rfl
  case last =>
    intro p hp
    refine ⟨hsolid p (List.mem_of_mem_getLast? hp), fun header hopening => ?_⟩
    obtain ⟨before, rfl⟩ := List.getLast?_eq_some_iff.1 hp
    rw [List.map_append, List.map_singleton, hopening] at h
    exact h.last_ne_opening header rfl

theorem settled_nil : Settled [] := ⟨.nil, by simp, by simp⟩

theorem settled_append (h : Settled placed) (hmore : Settled more) : Settled (placed ++ more) := by
  refine ⟨List.isChain_append.2 ⟨h.chain, hmore.chain, fun p hp q hq => ?_⟩, fun p hp => ?_,
    fun p hp => ?_⟩
  · exact follows_of_solid (h.last p hp).1 (hmore.first q hq).1
  · rw [List.head?_append, Option.mem_def, Option.or_eq_some_iff] at hp
    exact hp.elim (h.first p) fun hp => hmore.first p hp.2
  · rw [List.getLast?_append, Option.mem_def, Option.or_eq_some_iff] at hp
    exact hp.elim (hmore.last p) fun hp => h.last p hp.2

theorem settled_append_cons (h : Settled placed) (hne : placed ≠ []) (hmore : Settled more)
    (hmorene : more ≠ []) (g : Placed) : Settled (placed ++ ([g] ++ more)) := by
  have hchain : ([g] ++ more).IsChain Follows := by
    refine List.isChain_cons.2 ⟨fun q hq => ?_, hmore.chain⟩
    exact ⟨fun hgap => absurd hgap (hmore.first q hq).1, fun _ => hmore.first q hq⟩
  refine ⟨List.isChain_append.2 ⟨h.chain, hchain, fun p hp q hq => ?_⟩, fun p hp => ?_,
    fun p hp => ?_⟩
  · obtain rfl : g = q := Option.some.inj hq
    exact ⟨fun _ => h.last p hp, fun hgap => absurd hgap (h.last p hp).1⟩
  · rw [List.head?_append_of_ne_nil _ hne] at hp
    exact h.first p hp
  · rw [← List.append_assoc, List.getLast?_append_of_ne_nil _ hmorene] at hp
    exact hmore.last p hp

theorem settled_intercalate (hgap : gap.length ≤ 1)
    (hparts : ∀ part ∈ parts, part ≠ [] ∧ Settled part) : Settled (gap.intercalate parts) := by
  induction parts with
  | nil => exact settled_nil
  | cons part parts ih =>
    obtain ⟨hne, hpart⟩ := hparts part List.mem_cons_self
    have hrest := ih fun part hmem => hparts part (List.mem_cons_of_mem _ hmem)
    cases parts with
    | nil => simpa using hpart
    | cons next parts =>
      have hnext : next ≠ [] := (hparts next (by simp)).1
      have hmore : gap.intercalate (next :: parts) ≠ [] := by
        intro hnil
        have hinside : next <:+: gap.intercalate (next :: parts) :=
          infix_intercalate List.mem_cons_self
        rw [hnil, List.infix_nil] at hinside
        exact hnext hinside
      rw [List.intercalate_cons_cons, List.append_assoc]
      match gap, hgap with
      | [], _ => exact settled_append hpart hrest
      | [g], _ => exact settled_append_cons hpart hne hrest hmore g

theorem settled_setApart (l : Layout) (around : Surround) (subject : Subject)
    (hparts : ∀ part ∈ parts, Settled part) : Settled (setApart (l.gap around subject) parts) := by
  refine settled_intercalate ?_ fun part hpart => ?_
  · unfold Layout.gap
    split <;> simp
  · obtain ⟨hmem, hne⟩ := List.mem_filter.1 hpart
    exact ⟨by simpa using hne, hparts part hmem⟩

theorem settled_enclosed {around : Surround} {subject : Subject} {header : String}
    {body : Surround → List Placed} (h : Settled (body ((subject, header) :: around))) :
    Settled (enclosed around subject header body) := by
  let brace : Placed := ⟨(subject, header) :: around, subject, .closing⟩
  have hend : (body ((subject, header) :: around) ++ [brace]).IsChain Follows := by
    refine List.isChain_append.2 ⟨h.chain, .singleton _, fun p hp q hq => ?_⟩
    obtain rfl := Option.some.inj hq
    exact follows_of_solid (h.last p hp).1 Directive.noConfusion
  refine ⟨List.isChain_cons.2 ⟨fun q hq => ?_, hend⟩, fun p hp => ?_, fun p hp => ?_⟩
  · have hq' : q.directive ≠ .gap := by
      rw [List.head?_append, Option.mem_def, Option.or_eq_some_iff] at hq
      rcases hq with hq | ⟨-, hq⟩
      · exact (h.first q hq).1
      · obtain rfl := Option.some.inj hq
        exact Directive.noConfusion
    exact follows_of_solid Directive.noConfusion hq'
  · obtain rfl := Option.some.inj hp
    exact ⟨Directive.noConfusion, Directive.noConfusion⟩
  · rw [enclosed, ← List.cons_append, List.getLast?_concat] at hp
    obtain rfl := Option.some.inj hp
    exact ⟨Directive.noConfusion, fun _ => Directive.noConfusion⟩

def ink (text : String) : List Char := text.toList.filter fun c => c ≠ ' ' ∧ c ≠ '\n'

@[simp] theorem ink_append (text rest : String) : ink (text ++ rest) = ink text ++ ink rest := by
  simp [ink]

theorem ink_row (width depth : ℕ) (directive : Directive) :
    ink (directive.row width depth) = ink directive.content := by
  have hindent : ink (String.ofList (List.replicate (directive.level depth * width) ' ')) = [] := by
    simp [ink]
  have hend : ink "\n" = [] := by decide
  rw [Directive.row, ink_append, ink_append, hindent, hend, List.nil_append, List.append_nil]

theorem textOf_cons (l : Layout) (p : Placed) (rest : List Placed) :
    l.textOf (p :: rest) = p.directive.row l.indentWidth p.around.length ++ l.textOf rest := by
  rw [Layout.textOf, List.flatMap_cons, String.join_append, join_pieces]
  rfl

theorem ink_textOf (l : Layout) (placed : List Placed) :
    ink (l.textOf placed) = (withoutGaps placed).flatMap fun p => ink p.directive.content := by
  induction placed with
  | nil => rfl
  | cons p rest ih =>
    rw [textOf_cons, ink_append, ink_row, ih]
    by_cases hgap : p.directive = .gap
    · have hdrop : withoutGaps (p :: rest) = withoutGaps rest :=
        List.filter_cons_of_neg (by simp [hgap])
      have hnone : ink p.directive.content = [] := by
        rw [hgap]
        rfl
      rw [hdrop, hnone, List.nil_append]
    · have hkeep : withoutGaps (p :: rest) = p :: withoutGaps rest :=
        List.filter_cons_of_pos (by simp [hgap])
      rw [hkeep, List.flatMap_cons]

theorem isEmpty_modelSections (m : Model) :
    (modelSections m).map List.isEmpty =
      [m.properties.isEmpty,
        (m.personIds.filter fun id => m.isOutside (.person id)).isEmpty,
        (m.softwareSystemIds.filter fun id => m.isOutside (.softwareSystem id)).isEmpty,
        m.enterprise.isNone, m.topLevel.isEmpty, m.relationshipIds.isEmpty] := by
  rw [isEmpty_of_holds (holds_modelSections m)]
  simp [modelSectionScripts]

theorem isEmpty_viewSections (w : Workspace) :
    (w.views.ids.map (viewItems w.model w.views) ++ [stylesItems w.views.styles]).map
      List.isEmpty = w.views.ids.map (fun _ => false) ++ [w.views.styles.isEmpty] := by
  rw [isEmpty_of_holds (holds_viewSections w.model w.views)]
  simp [viewSectionScripts, Function.comp_def]

section Placed

variable {sections : List (List Item)} (hfault : fault sections.flatten = none)
include hfault

theorem isEmpty_placedOf (h : ∀ items ∈ sections, Shown items) (around : Surround) :
    (sections.map (placedOf around)).map List.isEmpty = sections.map List.isEmpty := by
  rw [List.map_map]
  refine List.map_congr_left fun items hitems => ?_
  have hnone := fault_of_isInfix (List.infix_of_mem_flatten hitems) hfault
  rcases (h items hitems).visible hnone with rfl | hshown
  · rfl
  · have hne : items ≠ [] := by
      rintro rfl
      exact hshown around rfl
    rw [Function.comp_apply, List.isEmpty_eq_false_iff.2 (hshown around),
      List.isEmpty_eq_false_iff.2 hne]

theorem settled_of_written {texts : List (List String)} (h : List.Forall₂ Written sections texts)
    (horderly : ∀ items ∈ sections, Orderly (eventsOf items)) (around : Surround) :
    ∀ part ∈ sections.map (placedOf around), Solid part ∧ Settled part := by
  induction h with
  | nil => exact List.forall_mem_nil _
  | cons hsection _ ih =>
    rw [List.flatten_cons, fault_append, Option.or_eq_none_iff] at hfault
    obtain ⟨hown, hrest⟩ := List.forall_mem_cons.1 horderly
    have hsolid := hsection.solid around
    refine List.forall_mem_cons.2 ⟨⟨hsolid, settled_of_balanced hsolid ?_⟩, ih hfault.2 hrest⟩
    rw [← placedFrom_eventsOf, ← callsOf_eq_map_placedFrom hfault.1]
    exact hown.balances hfault.1

end Placed

end Dsl

namespace Workspace

variable {w : Workspace} {l : Layout}

/-- How a finished document is set out. -/
structure SetOut (w : Workspace) (l : Layout) : Prop where
  text : (w.render l).result = .ok (l.textOf (w.placed l))
  /-- What the sections of a document are put together from has no blank rows. -/
  solid : ∀ part ∈ w.modelParts w.inModel ++ w.viewParts w.inViews, Solid part
  modelParts : (w.modelParts w.inModel).map List.isEmpty =
    [w.model.properties.isEmpty,
      (w.model.personIds.filter fun id => w.model.isOutside (.person id)).isEmpty,
      (w.model.softwareSystemIds.filter fun id => w.model.isOutside (.softwareSystem id)).isEmpty,
      w.model.enterprise.isNone, w.model.topLevel.isEmpty, w.model.relationshipIds.isEmpty]
  viewParts : (w.viewParts w.inViews).map List.isEmpty =
    w.views.ids.map (fun _ => false) ++ [w.views.styles.isEmpty]
  unspaced : l.sectionSpacing = false → Solid (w.placed l)
  /-- One blank row stands between any two parts that follow each other and hold something. -/
  spaced : l.sectionSpacing = true →
    w.placed l = enclosed [] w.subject w.headerLine fun around =>
      enclosed around .model "model" (fun around =>
        [⟨around, .model, .gap⟩].intercalate
          ((w.modelParts around).filter fun part => !part.isEmpty)) ++
      enclosed around .views "views" (fun around =>
        [⟨around, .views, .gap⟩].intercalate
          ((w.viewParts around).filter fun part => !part.isEmpty))
  edges : (w.placed l).IsChain Follows

def bare (w : Workspace) : List Placed := enclosed [] w.subject w.headerLine fun around =>
  enclosed around .model "model" (fun around => (w.modelParts around).flatten) ++
  enclosed around .views "views" (fun around => (w.viewParts around).flatten)

theorem fault_outline_layout (w : Workspace) (l l' : Layout) :
    fault (w.outline l) = fault (w.outline l') := by
  rw [fault_outline_eq, fault_outline_eq, modelBlock, modelBlock, viewsBlock, viewsBlock,
    fault_block, fault_block, fault_block, fault_block, fault_spaced (fault_separator l _),
    fault_spaced (fault_separator l' _), fault_spaced (fault_separator l _),
    fault_spaced (fault_separator l' _)]

theorem result_eq_error {e : RenderError} :
    (w.render l).result = .error e ↔ fault (w.outline l) = some e := by
  rw [Delivery.result, outcome_eq_fault]
  cases fault (w.outline l) <;> simp [outcomeOf, Except.map]

section Finished

variable (hfault : fault (w.outline l) = none)
include hfault

theorem settled_of_mem_modelParts (around : Surround) :
    ∀ part ∈ w.modelParts around, Solid part ∧ Settled part := by
  obtain ⟨hmodel, -⟩ := fault_sections hfault
  rw [← placedOf_modelSections hmodel]
  exact settled_of_written hmodel (written_modelSections w)
    (orderly_of_holds (holds_modelSections w.model) (orderly_modelSectionScripts w.model)) around

theorem settled_of_mem_viewParts (around : Surround) :
    ∀ part ∈ w.viewParts around, Solid part ∧ Settled part := by
  obtain ⟨-, hviews⟩ := fault_sections hfault
  rw [← placedOf_viewSections hviews]
  exact settled_of_written hviews (written_viewSections w w.views.ids)
    (orderly_of_holds (holds_viewSections w.model w.views)
      (orderly_viewSectionScripts w.model w.views)) around

theorem withoutGaps_placed : withoutGaps (w.placed l) = w.bare := by
  rw [placed_eq_enclosed hfault, withoutGaps_enclosed]
  refine congrArg (enclosed _ _ _) (funext fun around => ?_)
  rw [withoutGaps_append, withoutGaps_enclosed, withoutGaps_enclosed]
  refine congrArg₂ (· ++ ·) (congrArg (enclosed _ _ _) (funext fun around => ?_))
    (congrArg (enclosed _ _ _) (funext fun around => ?_))
  · exact withoutGaps_setApart (withoutGaps_gap ..)
      fun part hpart => (settled_of_mem_modelParts hfault around part hpart).1
  · exact withoutGaps_setApart (withoutGaps_gap ..)
      fun part hpart => (settled_of_mem_viewParts hfault around part hpart).1

theorem settled_placed : Settled (w.placed l) := by
  rw [placed_eq_enclosed hfault]
  refine settled_enclosed (settled_append (settled_enclosed ?_) (settled_enclosed ?_))
  · exact settled_setApart l _ _
      fun part hpart => (settled_of_mem_modelParts hfault _ part hpart).2
  · exact settled_setApart l _ _
      fun part hpart => (settled_of_mem_viewParts hfault _ part hpart).2

theorem SetOut.of_fault : w.SetOut l := by
  obtain ⟨hmodel, hviews⟩ := fault_sections hfault
  refine ⟨?text, ?solid, ?modelParts, ?viewParts, ?unspaced, ?spaced, (settled_placed hfault).chain⟩
  case text => exact result_of_fault hfault
  case solid =>
    refine List.forall_mem_append.2 ⟨fun part hpart => ?_, fun part hpart => ?_⟩
    · exact (settled_of_mem_modelParts hfault _ part hpart).1
    · exact (settled_of_mem_viewParts hfault _ part hpart).1
  case modelParts =>
    rw [← placedOf_modelSections hmodel, isEmpty_placedOf hmodel (shown_modelSections w.model)]
    exact isEmpty_modelSections w.model
  case viewParts =>
    rw [← placedOf_viewSections hviews,
      isEmpty_placedOf hviews (shown_viewSections w.model w.views)]
    exact isEmpty_viewSections w
  case unspaced =>
    intro hoff p hp
    have hgap (around : Surround) (subject : Subject) : l.gap around subject = [] :=
      if_neg (ne_true_of_eq_false hoff)
    have hbare : w.placed l = w.bare := by
      rw [placed_eq_enclosed hfault, bare]
      simp only [hgap, setApart_nil]
    rw [hbare, ← withoutGaps_placed hfault] at hp
    exact of_decide_eq_true (List.mem_filter.1 hp).2
  case spaced =>
    intro hon
    have hgap (around : Surround) (subject : Subject) :
        l.gap around subject = [⟨around, subject, .gap⟩] := if_pos hon
    rw [placed_eq_enclosed hfault]
    simp only [hgap, setApart]

end Finished

end Workspace

/-- Two layouts fail alike or differ in white space only. -/
theorem layouts_agree (w : Workspace) (l l' : Layout) :
    (∀ e, (w.render l).result = .error e ↔ (w.render l').result = .error e) ∧
    ∀ text, (w.render l).result = .ok text → ∃ text', (w.render l').result = .ok text' ∧
      ink text = ink text' ∧ withoutGaps (w.placed l) = withoutGaps (w.placed l') ∧
      w.SetOut l ∧ w.SetOut l' := by
  refine ⟨fun e => ?_, fun text htext => ?_⟩
  · rw [Workspace.result_eq_error, Workspace.result_eq_error, w.fault_outline_layout l l']
  · have hfault : fault (w.outline l) = none :=
      Workspace.outcome_ok_iff_fault.1 (Workspace.exists_result_iff.1 ⟨text, htext⟩)
    have hfault' : fault (w.outline l') = none := (w.fault_outline_layout l' l).trans hfault
    have hset := Workspace.SetOut.of_fault hfault
    have hset' := Workspace.SetOut.of_fault hfault'
    have hsame : withoutGaps (w.placed l) = withoutGaps (w.placed l') :=
      (Workspace.withoutGaps_placed hfault).trans (Workspace.withoutGaps_placed hfault').symm
    obtain rfl : l.textOf (w.placed l) = text := Except.ok.inj (hset.text.symm.trans htext)
    refine ⟨_, hset'.text, ?_, hsame, hset, hset'⟩
    rw [ink_textOf, ink_textOf, hsame]

/-- Of the six sections of this model three hold something; the views block holds the styles. -/
theorem layouts_agree_of_three_sections :
    ∃ (w : Workspace) (text spaced : String), w.model.Reachable ∧
      (w.render ⟨4, false⟩).result = .ok text ∧ (w.render ⟨2, true⟩).result = .ok spaced ∧
      spaced = "workspace \x7b\n" ++ "  model \x7b\n" ++ "    properties \x7b\n" ++
        "      stage \"test\"\n" ++ "    \x7d\n" ++ "\n" ++ "    user = person \"User\"\n" ++
        "    clerk = person \"Clerk\"\n" ++ "\n" ++ "    user -> clerk\n" ++ "  \x7d\n" ++
        "  views \x7b\n" ++ "    styles \x7b\n" ++ "      element \"Person\" \x7b\n" ++
        "      \x7d\n" ++ "    \x7d\n" ++ "  \x7d\n" ++ "\x7d\n" ∧
      ink text = ink spaced ∧
      withoutGaps (w.placed ⟨4, false⟩) = withoutGaps (w.placed ⟨2, true⟩) ∧
      w.SetOut ⟨4, false⟩ ∧ w.SetOut ⟨2, true⟩ ∧ Solid (w.placed ⟨4, false⟩) ∧
      (w.modelParts w.inModel).map List.isEmpty = [false, false, true, true, true, false] := by
  let history : List Edit := [.setProperty "stage" "test", .addPerson "User" "",
    .addPerson "Clerk" "", .addRelationship (.person ⟨0⟩) (.person ⟨1⟩)]
  let w : Workspace := { Workspace.empty with
    model := (Model.empty.performAll history).getD .empty
    views := { Views.empty with styles := Styles.empty.addElementStyle (.create "Person") } }
  have hm : w.model.Reachable := ⟨history, rfl⟩
  have htext : ∃ text, (w.render ⟨4, false⟩).result = .ok text :=
    Workspace.exists_result_iff.2 (by decide +kernel)
  have hspaced : (w.render ⟨2, true⟩).result = .ok ("workspace \x7b\n" ++ "  model \x7b\n" ++
      "    properties \x7b\n" ++ "      stage \"test\"\n" ++ "    \x7d\n" ++ "\n" ++
      "    user = person \"User\"\n" ++ "    clerk = person \"Clerk\"\n" ++ "\n" ++
      "    user -> clerk\n" ++ "  \x7d\n" ++ "  views \x7b\n" ++ "    styles \x7b\n" ++
      "      element \"Person\" \x7b\n" ++ "      \x7d\n" ++ "    \x7d\n" ++ "  \x7d\n" ++
      "\x7d\n") := by decide +kernel
  obtain ⟨text, htext⟩ := htext
  obtain ⟨text', htext', hink, hsame, hset, hset'⟩ :=
    (layouts_agree w ⟨4, false⟩ ⟨2, true⟩).2 text htext
  obtain rfl := Except.ok.inj (htext'.symm.trans hspaced)
  exact ⟨w, text, _, hm, htext, hspaced, rfl, hink, hsame, hset, hset', hset.unspaced rfl,
    hset.modelParts⟩

end C4
