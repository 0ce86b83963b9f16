import C4.Proofs.Delivery
import Mathlib.Data.Nat.Notation

/-!
# Calls

The calls of a script on the writer, which counts the blocks that are open, and the rows that come
of them. Calls are balanced if each block is opened before it is closed, and what lies between is
balanced again.
-/
namespace C4.Dsl

/-- What is called until a reference leads nowhere. -/
def callsOf : Script → List Directive
  | [] => []
  | .write _ directive :: rest => directive :: callsOf rest
  | .note _ :: rest => callsOf rest
  | .stop _ :: _ => []

def depthAfterAll (depth : ℕ) (calls : List Directive) : ℕ := calls.foldl Directive.depthAfter depth

namespace Directive

def level (depth : ℕ) : Directive → ℕ
  | closing => depth - 1
  | gap => 0
  | _ => depth

def content : Directive → String
  | line text => text
  | opening header => if header.isEmpty then "\x7b" else header ++ " \x7b"
  | closing => "\x7d"
  | gap => ""

def row (width depth : ℕ) (directive : Directive) : String :=
  String.ofList (List.replicate (directive.level depth * width) ' ') ++ directive.content ++ "\n"

end Directive

def rowsFrom (width : ℕ) : ℕ → List Directive → List String
  | _, [] => []
  | depth, call :: rest => call.row width depth :: rowsFrom width (call.depthAfter depth) rest

inductive Balanced : List Directive → Prop
  | nil : Balanced []
  | line {text : String} {rest : List Directive} (hrest : Balanced rest) :
    Balanced (.line text :: rest)
  | gap {rest : List Directive} (hrest : Balanced rest) : Balanced (.gap :: rest)
  | block {header : String} {body rest : List Directive} (hbody : Balanced body)
    (hrest : Balanced rest) : Balanced (.opening header :: (body ++ .closing :: rest))

theorem depthAfterAll_append (depth : ℕ) (calls more : List Directive) :
    depthAfterAll depth (calls ++ more) = depthAfterAll (depthAfterAll depth calls) more :=
  List.foldl_append

theorem Balanced.append {calls more : List Directive} (h : Balanced calls)
    (hmore : Balanced more) : Balanced (calls ++ more) := by
  induction h with
  | nil => exact hmore
  | line _ ih => exact .line ih
  | gap _ ih => exact .gap ih
  | block hbody _ _ ih =>
    rw [List.cons_append, List.append_assoc, List.cons_append]
    exact .block hbody ih

theorem Balanced.depthAfterAll_eq {calls : List Directive} (h : Balanced calls) (depth : ℕ) :
    depthAfterAll depth calls = depth := by
  induction h generalizing depth with
  | nil => rfl
  | line _ ih => exact ih depth
  | gap _ ih => exact ih depth
  | @block header body rest _ _ ihbody ihrest =>
    have hopen : depthAfterAll depth (.opening header :: (body ++ .closing :: rest)) =
      depthAfterAll (depth + 1) (body ++ .closing :: rest) := rfl
    rw [hopen, depthAfterAll_append, ihbody]
    exact ihrest depth

theorem Balanced.exists_opening {calls : List Directive} (h : Balanced calls) :
    ∀ before after, calls = before ++ .closing :: after →
      ∃ outer header body, before = outer ++ .opening header :: body ∧ Balanced body := by
  have pass (call : Directive) {rest : List Directive} (hcall : call ≠ .closing)
      (hrest : ∀ before after, rest = before ++ .closing :: after →
        ∃ outer header body, before = outer ++ .opening header :: body ∧ Balanced body) :
      ∀ before after, call :: rest = before ++ .closing :: after →
        ∃ outer header body, before = outer ++ .opening header :: body ∧ Balanced body := by
    intro before after hsplit
    cases before with
    | nil => exact absurd (List.cons.inj hsplit).1 hcall
    | cons first before =>
      obtain ⟨rfl, htail⟩ := List.cons.inj hsplit
      obtain ⟨outer, header, body, rfl, hbody⟩ := hrest before after htail
      exact ⟨call :: outer, header, body, rfl, hbody⟩
  induction h with
  | nil =>
    intro before after hsplit
    cases before <;> cases hsplit
  | line _ ih => exact pass _ Directive.noConfusion ih
  | gap _ ih => exact pass _ Directive.noConfusion ih
  | @block header body rest hbody _ ihbody ihrest =>
    intro before after hsplit
    cases before with
    | nil => cases hsplit
    | cons first before =>
      obtain ⟨rfl, htail⟩ := List.cons.inj hsplit
      -- The brace is one of the body, the one that closes this very block, or a later one.
      rcases List.append_eq_append_iff.1 htail with ⟨inner, rfl, hinner⟩ | ⟨inner, hinner, hrest⟩
      · cases inner with
        | nil => exact ⟨[], header, body, by simp, hbody⟩
        | cons close inner =>
          obtain ⟨rfl, hlater⟩ := List.cons.inj hinner
          obtain ⟨outer, header', body', rfl, hbody'⟩ := ihrest inner after hlater
          exact ⟨.opening header :: (body ++ .closing :: outer), header', body', by simp, hbody'⟩
      · cases inner with
        | nil => exact ⟨[], header, body, by simp [hinner], hbody⟩
        | cons close inner =>
          obtain ⟨rfl, -⟩ := List.cons.inj hrest
          obtain ⟨outer, header', body', rfl, hbody'⟩ := ihbody before inner hinner
          exact ⟨.opening header :: outer, header', body', rfl, hbody'⟩

theorem Balanced.le_depthAfterAll {calls : List Directive} (h : Balanced calls) (depth : ℕ)
    {before after : List Directive} (hsplit : calls = before ++ after) :
    depth ≤ depthAfterAll depth before := by
  induction h generalizing depth before after with
  | nil =>
    obtain ⟨rfl, -⟩ := List.append_eq_nil_iff.1 hsplit.symm
    exact Nat.le_refl _
  | line _ ih | gap _ ih =>
    cases before with
    | nil => exact Nat.le_refl _
    | cons first before =>
      obtain ⟨rfl, htail⟩ := List.cons.inj hsplit
      have hrest := ih depth htail
      exact hrest
  | @block header body rest hbody _ ihbody ihrest =>
    cases before with
    | nil => exact Nat.le_refl _
    | cons first before =>
      obtain ⟨rfl, htail⟩ := List.cons.inj hsplit
      have hopen (inner : List Directive) : depthAfterAll depth (.opening header :: inner) =
        depthAfterAll (depth + 1) inner := rfl
      rw [hopen]
      rcases List.append_eq_append_iff.1 htail with ⟨inner, rfl, hinner⟩ | ⟨inner, hinner, -⟩
      · rw [depthAfterAll_append, hbody.depthAfterAll_eq]
        cases inner with
        | nil => exact Nat.le_succ depth
        | cons close inner =>
          obtain ⟨rfl, hlater⟩ := List.cons.inj hinner
          exact ihrest depth hlater
      · exact Nat.le_of_succ_le (ihbody (depth + 1) hinner)

theorem callsOf_append {events : List Event} (h : firstStop events = none) (more : List Event) :
    callsOf (events ++ more) = callsOf events ++ callsOf more := by
  induction events with
  | nil => rfl
  | cons event rest ih =>
    cases event with
    | write subject directive => exact congrArg (directive :: ·) (ih h)
    | note record => exact ih h
    | stop error => cases h

theorem callsOf_eq_map_placedFrom {events : List Event} (h : firstStop events = none)
    (around : Surround) : callsOf events = (placedFrom around events).map (·.directive) := by
  induction events generalizing around with
  | nil => rfl
  | cons event rest ih =>
    cases event with
    | write subject directive => exact congrArg (directive :: ·) (ih h _)
    | note record => exact ih h around
    | stop error => cases h

theorem callsOf_between {script : Script} (h : firstStop script = none) (opener closer : Subject)
    (header : String) :
    callsOf (Script.opening opener header ++ script ++ Script.closing closer) =
      .opening header :: (callsOf script ++ [.closing]) := by
  rw [List.append_assoc]
  exact congrArg (.opening header :: ·) (callsOf_append h _)

theorem firstStop_between (script : Script) (opener closer : Subject) (header : String) :
    firstStop (Script.opening opener header ++ script ++ Script.closing closer) =
      firstStop script := by
  rw [firstStop_append, firstStop_append]
  exact Option.or_none

theorem exists_token_of_firstStop {token : Except RenderError String} {draw : String → Script}
    (h : firstStop (Script.withToken token draw) = none) : ∃ t, token = .ok t := by
  cases token with
  | error e => cases h
  | ok t => exact ⟨t, rfl⟩

theorem join_indentUnit (l : Layout) (count : ℕ) :
    String.join (List.replicate count l.indentUnit) =
      String.ofList (List.replicate (count * l.indentWidth) ' ') := by
  induction count with
  | zero => rw [Nat.zero_mul, List.replicate_zero, String.join_nil, List.replicate_zero,
      String.ofList_nil]
  | succ count ih =>
    rw [List.replicate_succ, String.join_cons, ih, Layout.indentUnit, ← String.ofList_append,
      List.replicate_append_replicate, Nat.succ_mul, Nat.add_comm]

theorem join_pieces (l : Layout) (depth : ℕ) (directive : Directive) :
    String.join (directive.pieces l.indentUnit depth) = directive.row l.indentWidth depth := by
  cases directive <;>
    simp [Directive.pieces, Directive.row, Directive.level, Directive.content, String.join_append,
      String.join_cons, join_indentUnit, String.append_assoc]

theorem join_signals (l : Layout) (depth : ℕ) (events : List Event) :
    String.join ((piecesOf (signals l.indentUnit depth events)).map (·.2)) =
      String.join (rowsFrom l.indentWidth depth (callsOf events)) := by
  induction events generalizing depth with
  | nil => rfl
  | cons event rest ih =>
    cases event with
    | write subject directive =>
      have htexts : ((directive.pieces l.indentUnit depth).map (subject, ·)).map (·.2) =
          directive.pieces l.indentUnit depth := by simp [Function.comp_def]
      rw [signals, piecesOf_append_pieces, List.map_append, htexts, String.join_append,
        join_pieces, ih, callsOf, rowsFrom, String.join_cons]
    | note record => exact ih depth
    | stop error => rfl

theorem rows_of_result {l : Layout} {depth : ℕ} {script : Script} {text : String}
    (h : (perform l .unlimited depth script).1.result = .ok text) :
    text = String.join (rowsFrom l.indentWidth depth (callsOf script)) := by
  obtain ⟨-, htext⟩ := Delivery.result_eq_ok.1 h
  obtain ⟨hwritten, -⟩ := deliver_unlimited (signals l.indentUnit depth script)
  rw [← htext, ← join_signals, ← hwritten]
  rfl

end C4.Dsl
