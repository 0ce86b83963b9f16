import C4.Proofs.FailFast
import C4.Proofs.Verdict

/-!
# Fragments

A single entity is rendered by itself, outside of any block. What it consists of does not depend
on where it stands: among some blocks it has the same directives, each as many levels deeper as
there are blocks around it.
-/
namespace C4

open Dsl

namespace Dsl

/-- A directive in its place when what it is a part of stands in some blocks. -/
def Placed.within (around : Surround) (p : Placed) : Placed :=
  { p with around := p.around ++ around }

theorem placedOf_append_around {items : List Item} (inner around : Surround)
    (h : ∀ item ∈ items, ∀ inner,
      item.placed (inner ++ around) = (item.placed inner).map (Placed.within around)) :
    placedOf (inner ++ around) items = (placedOf inner items).map (Placed.within around) := by
  rw [placedOf, placedOf, List.map_flatMap]
  exact List.flatMap_congr fun item hitem => h item hitem inner

theorem placed_append_around (item : Item) (inner around : Surround) :
    item.placed (inner ++ around) = (item.placed inner).map (Placed.within around) := by
  have braces (subject : Subject) (header : String) (body : List Item)
      (h : ∀ item ∈ body, ∀ inner,
        item.placed (inner ++ around) = (item.placed inner).map (Placed.within around))
      (inner : Surround) : braced (inner ++ around) subject header body =
        (braced inner subject header body).map (Placed.within around) := by
    have hbody := placedOf_append_around ((subject, header) :: inner) around h
    rw [List.cons_append] at hbody
    rw [braced, hbody]
    simp [braced, Placed.within]
  -- The body of a block has the block in front of what is around it, so the induction is for all
  -- `inner` at once.
  induction item using Item.induction generalizing inner with
  | line | gap => simp [Placed.within]
  | note | dangling => simp
  | entity subject header body ih =>
    rw [placed_entity, placed_entity]
    split
    · rfl
    · exact braces subject header body ih inner
  | block subject header body ih =>
    rw [placed_block, placed_block]
    exact braces subject header body ih inner

theorem placedOf_eq_map_within (around : Surround) (items : List Item) :
    placedOf around items = (placedOf [] items).map (Placed.within around) :=
  placedOf_append_around [] around fun item _ inner => placed_append_around item inner around

theorem placedOf_flatMap {α : Type*} (around : Surround) (f : α → List Item) (l : List α) :
    placedOf around (l.flatMap f) = l.flatMap fun a => placedOf around (f a) :=
  List.flatMap_assoc

theorem fault_of_isInfix {items more : List Item} (hinside : items <:+: more)
    (h : fault more = none) : fault items = none := by
  obtain ⟨before, after, rfl⟩ := hinside
  rw [fault_append, fault_append] at h
  exact (Option.or_eq_none_iff.1 (Option.or_eq_none_iff.1 h).1).2

theorem infix_flatMap {α β : Type*} (f : α → List β) {l : List α} {a : α} (ha : a ∈ l) :
    f a <:+: l.flatMap f := by
  rw [List.flatMap_def]
  exact List.infix_of_mem_flatten (List.mem_map_of_mem ha)

theorem placedOf_flatMap_eq {α : Type*} {around : Surround} {f : α → List Item}
    {g : α → List Placed} {l : List α} (hfault : fault (l.flatMap f) = none)
    (h : ∀ a ∈ l, fault (f a) = none → placedOf around (f a) = g a) :
    placedOf around (l.flatMap f) = l.flatMap g := by
  rw [placedOf_flatMap]
  exact List.flatMap_congr fun a ha => h a ha (fault_of_isInfix (infix_flatMap f ha) hfault)

def Layout.textOf (l : Layout) (placed : List Placed) : String :=
  String.join (placed.flatMap fun p => p.directive.pieces l.indentUnit p.around.length)

theorem result_perform (l : Layout) {script : Script} (h : firstStop script = none) :
    (perform l .unlimited 0 script).1.result = .ok (l.textOf (placedFrom [] script)) := by
  obtain ⟨hwritten, houtcome⟩ := deliver_unlimited (signals l.indentUnit 0 script)
  refine Delivery.result_eq_ok.2 ⟨?_, ?_⟩
  · exact houtcome.trans (outcomeOf_eq_ok.2 ((stopOf_signals ..).trans h))
  · have hpieces := piecesOf_signals l.indentUnit [] script
    rw [chunksOf, beforeStop_of_none h] at hpieces
    refine congrArg String.join (hwritten.trans ?_)
    rw [List.length_nil] at hpieces
    rw [hpieces]
    simp [Placed.chunks, List.map_flatMap, Function.comp_def]

end Dsl

def Reference.fragment : Reference → Fragment
  | element id => .element id
  | relationship id => .relationship id

namespace Workspace

/-- The directives of a fragment that is rendered by itself, up to the first reference that leads
nowhere. -/
def fragmentPlaced (w : Workspace) (f : Fragment) : List Placed :=
  placedFrom [] (beforeStop (f.script w))

/-- What a fragment comes to among some blocks, each directive as many levels deeper. -/
def slice (w : Workspace) (around : Surround) (f : Fragment) : List Placed :=
  (w.fragmentPlaced f).map (Placed.within around)

def Renders (w : Workspace) (l : Layout) (f : Fragment) : Prop :=
  (w.renderFragment f l).result = .ok (l.textOf (w.fragmentPlaced f))

variable {w : Workspace} {f : Fragment}

theorem fragmentPlaced_of_fault (h : fault (f.outline w) = none) :
    w.fragmentPlaced f = placedOf [] (f.outline w) := by
  rw [fragmentPlaced, ← f.eventsOf_outline w, beforeStop_of_none h, placedFrom_eventsOf]

theorem renders_of_fault (h : fault (f.outline w) = none) (l : Layout) : w.Renders l f := by
  have hstop : firstStop (f.script w) = none := (f.eventsOf_outline w) ▸ h
  rw [Renders, fragmentPlaced, beforeStop_of_none hstop]
  exact result_perform l hstop

theorem fault_of_renderFragment {l : Layout} {text : String}
    (h : (w.renderFragment f l).result = .ok text) : fault (f.outline w) = none := by
  rw [fault, f.eventsOf_outline]
  exact firstStop_of_result h

theorem placedOf_eq_slice (h : fault (f.outline w) = none) (around : Surround) :
    placedOf around (f.outline w) = w.slice around f := by
  rw [slice, fragmentPlaced_of_fault h, ← placedOf_eq_map_within]

theorem placed_of_fault {l : Layout} (h : fault (w.outline l) = none) :
    w.placed l = placedOf [] (w.outline l) := by
  rw [placed, ← w.eventsOf_outline l, beforeStop_of_none h, placedFrom_eventsOf]

theorem result_of_fault {l : Layout} (h : fault (w.outline l) = none) :
    (w.render l).result = .ok (l.textOf (w.placed l)) := by
  have hstop : firstStop (w.script l) = none := (w.eventsOf_outline l) ▸ h
  rw [placed, beforeStop_of_none hstop]
  exact result_perform l hstop

end Workspace

end C4
