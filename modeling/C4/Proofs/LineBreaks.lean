import C4.Proofs.Assembly
import C4.Proofs.Writing

/-!
# Line breaks

The line feeds of a finished document. Each call on the writer ends its row with one. All others
come from the texts that the document shows, which are written as they are stored but for their
quotes.
-/
namespace C4

open Dsl

namespace Dsl

theorem contentBreaks_enclosed (around : Surround) (subject : Subject) (header : String)
    (body : Surround → List Placed) : contentBreaks (enclosed around subject header body) =
      breaks header + contentBreaks (body ((subject, header) :: around)) := by
  simp [enclosed, breaks_content_opening, breaks_content_closing]

theorem contentBreaks_gap (l : Layout) (around : Surround) (subject : Subject) :
    contentBreaks (l.gap around subject) = 0 := by
  unfold Layout.gap
  split <;> rfl

theorem contentBreaks_setApart {gap : List Placed} (h : contentBreaks gap = 0)
    (parts : List (List Placed)) :
    contentBreaks (setApart gap parts) = contentBreaks parts.flatten :=
  setApart_of_skip (fun before after => by simp [h]) parts

theorem contentBreaks_sections {sections : List (List Item)} {texts : List (List String)}
    (h : List.Forall₂ Written sections texts) (hfault : fault sections.flatten = none)
    (around : Surround) :
    contentBreaks (sections.map (placedOf around)).flatten = breaksIn texts.flatten := by
  induction h with
  | nil => rfl
  | cons hsection _ ih =>
    rw [List.flatten_cons, fault_append, Option.or_eq_none_iff] at hfault
    rw [List.map_cons, List.flatten_cons, List.flatten_cons, contentBreaks_append, breaksIn_append,
      hsection.count hfault.1, ih hfault.2]

end Dsl

namespace Workspace

variable {w : Workspace} {l : Layout}

theorem breaks_headerLine (w : Workspace) : breaks w.headerLine = breaksIn w.headerTexts := by
  unfold headerLine headerTexts
  cases w.base <;> simp

theorem breaksIn_texts (w : Workspace) : breaksIn w.texts = breaksIn w.headerTexts +
    breaksIn (w.model.properties.texts ++ w.textsIn (w.model.elementContents ++
      w.model.relationshipIds.flatMap w.model.relationshipContents)) +
    breaksIn (w.textsIn (w.views.ids.flatMap w.views.viewContents ++
      Views.stylesContents w.views.styles)) := by
  have hown : w.textsOf w.subject = w.headerTexts := rfl
  have hmodel : w.textsOf .model = w.model.properties.texts := rfl
  have hviews : w.textsOf .views = [] := rfl
  simp only [texts, contents, textsIn_cons, textsIn_append, breaksIn_append, hown, hmodel, hviews]
  simp [Nat.add_assoc]

theorem contentBreaks_placed (hfault : fault (w.outline l) = none) :
    contentBreaks (w.placed l) = breaksIn w.texts := by
  obtain ⟨hmodel, hviews⟩ := fault_sections hfault
  rw [placed_eq_enclosed hfault, contentBreaks_enclosed, contentBreaks_append,
    contentBreaks_enclosed, contentBreaks_enclosed, contentBreaks_setApart (contentBreaks_gap ..),
    contentBreaks_setApart (contentBreaks_gap ..), ← placedOf_modelSections hmodel,
    ← placedOf_viewSections hviews, contentBreaks_sections (written_modelSections w) hmodel,
    contentBreaks_sections (written_viewSections w _) hviews, breaks_headerLine, breaksIn_texts]
  have hmodelHeader : breaks "model" = 0 := by decide
  have hviewsHeader : breaks "views" = 0 := by decide
  simp only [Model.elementContents, List.flatten_append, List.flatten_cons, List.flatten_nil,
    ← List.flatMap_def, ← textsIn_flatMap, textsIn_append, breaksIn_append, breaksIn_nil]
  omega

def calls (w : Workspace) (l : Layout) : List Directive := callsOf (w.script l)

end Workspace

namespace Dsl

theorem breaks_row (width depth : ℕ) (call : Directive) :
    breaks (call.row width depth) = breaks call.content + 1 := by
  have hindent : breaks (String.ofList (List.replicate (call.level depth * width) ' ')) = 0 :=
    breaks_of_not_mem (by simp [List.mem_replicate])
  have hend : breaks "\n" = 1 := by decide
  rw [Directive.row, breaks_append, breaks_append, hindent, hend, Nat.zero_add]

theorem breaks_join_rowsFrom (width depth : ℕ) (calls : List Directive) :
    breaks (String.join (rowsFrom width depth calls)) =
      calls.length + breaksIn (calls.map Directive.content) := by
  induction calls generalizing depth with
  | nil => rfl
  | cons call rest ih =>
    rw [rowsFrom, String.join_cons, breaks_append, breaks_row, ih, List.length_cons,
      List.map_cons, breaksIn_cons]
    omega

theorem forall_mem_rowsFrom {P : String → Prop} {Q : Directive → Prop} {width : ℕ}
    (h : ∀ depth call, P (call.row width depth) ↔ Q call) (depth : ℕ) (calls : List Directive) :
    (∀ row ∈ rowsFrom width depth calls, P row) ↔ ∀ call ∈ calls, Q call := by
  induction calls generalizing depth with
  | nil => simp [rowsFrom]
  | cons call rest ih => rw [rowsFrom, List.forall_mem_cons, List.forall_mem_cons, h, ih]

end Dsl

theorem Workspace.breaks_calls {w : Workspace} {l : Layout} (hfault : fault (w.outline l) = none) :
    breaksIn ((w.calls l).map Directive.content) = breaksIn w.texts := by
  have hstop : firstStop (w.script l) = none := w.eventsOf_outline l ▸ hfault
  rw [← contentBreaks_placed hfault, placed, beforeStop_of_none hstop, calls,
    callsOf_eq_map_placedFrom hstop [], List.map_map]
  rfl

/-- Each call is one row, and there are more line feeds in a document than calls exactly if some
text that it shows has a line feed: every one of them gets into the document. -/
theorem line_feeds_counted (w : Workspace) (l : Layout) {text : String}
    (htext : (w.render l).result = .ok text) :
    text = String.join (rowsFrom l.indentWidth 0 (w.calls l)) ∧
    breaks text = (w.calls l).length + breaksIn w.texts ∧
    (breaks text = (w.calls l).length ↔ ∀ stored ∈ w.texts, '\n' ∉ stored.toList) ∧
    ((∀ row ∈ rowsFrom l.indentWidth 0 (w.calls l), breaks row = 1) ↔
      ∀ stored ∈ w.texts, '\n' ∉ stored.toList) := by
  have hfault : fault (w.outline l) = none :=
    Workspace.outcome_ok_iff_fault.1 (Workspace.exists_result_iff.1 ⟨text, htext⟩)
  have hrows : text = String.join (rowsFrom l.indentWidth 0 (w.calls l)) :=
    rows_of_result htext
  have hcalls := Workspace.breaks_calls hfault
  have hcount : breaks text = (w.calls l).length + breaksIn w.texts := by
    rw [hrows, breaks_join_rowsFrom, hcalls]
  have hrow (depth : ℕ) (call : Directive) :
      breaks (call.row l.indentWidth depth) = 1 ↔ breaks call.content = 0 := by
    rw [breaks_row]
    omega
  refine ⟨hrows, hcount, ?_, ?_⟩
  · rw [← breaksIn_eq_zero_iff, hcount]
    omega
  · rw [forall_mem_rowsFrom hrow, ← breaksIn_eq_zero_iff, ← hcalls, breaksIn_eq_zero_iff]
    simp [breaks, List.count_eq_zero]

/-- Of the two texts of this person only the description goes over two rows. -/
theorem line_feeds_counted_of_description :
    ∃ (w : Workspace) (text : String), w.model.Reachable ∧
      (w.render .standard).result = .ok text ∧
      text = "workspace \x7b\n" ++ "    model \x7b\n" ++
        "        user = person \"User\" \"Reads\nand writes\"\n" ++ "    \x7d\n" ++
        "    views \x7b\n" ++ "    \x7d\n" ++ "\x7d\n" ∧
      (w.calls .standard).length = 7 ∧ breaksIn w.texts = 1 ∧ breaks text = 8 := by
  let history : List Edit := [.addPerson "User" "Reads\nand writes"]
  let w : Workspace := { Workspace.empty with
    model := (Model.empty.performAll history).getD .empty }
  have htext : (w.render .standard).result = .ok ("workspace \x7b\n" ++ "    model \x7b\n" ++
      "        user = person \"User\" \"Reads\nand writes\"\n" ++ "    \x7d\n" ++
      "    views \x7b\n" ++ "    \x7d\n" ++ "\x7d\n") := by decide +kernel
  have hcalls : (w.calls .standard).length = 7 := by decide +kernel
  have hstored : breaksIn w.texts = 1 := by decide +kernel
  obtain ⟨-, hcount, -, -⟩ := line_feeds_counted w .standard htext
  rw [hcalls, hstored] at hcount
  exact ⟨w, _, ⟨history, rfl⟩, htext, rfl, hcalls, hstored, hcount⟩

/-- A name can bring rows of its own, here a closing brace that no call has made. -/
theorem line_feed_of_name_kept :
    ∃ (w : Workspace) (text : String), w.model.Reachable ∧
      (w.render .standard).result = .ok text ∧
      text = "workspace \x7b\n" ++ "    model \x7b\n" ++
        "        eve = person \"Eve\n" ++ "\x7d\n" ++ "\"\n" ++ "    \x7d\n" ++
        "    views \x7b\n" ++ "    \x7d\n" ++ "\x7d\n" ∧
      breaks text ≠ (w.calls .standard).length := by
  let history : List Edit := [.addPerson "Eve\n\x7d\n" ""]
  exact ⟨{ Workspace.empty with model := (Model.empty.performAll history).getD .empty }, _,
    ⟨history, rfl⟩, by decide +kernel, rfl, by decide +kernel⟩

end C4
