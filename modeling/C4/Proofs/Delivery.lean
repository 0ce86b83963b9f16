import C4.Dsl.Delivery
import C4.Proofs.Nesting

/-!
# Delivery

What a sink receives of a script. The pieces of a script up to the first reference that leads
nowhere are what an unlimited sink is handed. A sink that takes some of them and refuses the next
one is handed a prefix, and the error bears the subject of the piece that was refused.
-/
namespace C4.Dsl

def Placed.chunks (unit : String) (p : Placed) : List (Placed × String) :=
  (p.directive.pieces unit p.around.length).map (p, ·)

def chunksOf (unit : String) (around : Surround) (events : List Event) : List (Placed × String) :=
  (placedFrom around (beforeStop events)).flatMap (Placed.chunks unit)

def outcomeOf (error : Option RenderError) : Except RenderError Unit :=
  match error with
  | none => .ok ()
  | some e => .error e

theorem outcomeOf_eq_ok {error : Option RenderError} : outcomeOf error = .ok () ↔ error = none := by
  cases error <;> simp [outcomeOf]

theorem Delivery.result_eq_ok {d : Delivery} {text : String} :
    d.result = .ok text ↔ d.outcome = .ok () ∧ d.text = text := by
  unfold Delivery.result
  cases d.outcome <;> simp [Except.map]

def piecesOf : List Signal → List (Subject × String)
  | [] => []
  | .piece subject text :: rest => (subject, text) :: piecesOf rest
  | .note _ :: rest => piecesOf rest
  | .stop _ :: _ => []

def stopOf : List Signal → Option RenderError
  | [] => none
  | .piece _ _ :: rest => stopOf rest
  | .note _ :: rest => stopOf rest
  | .stop error :: _ => some error

theorem piecesOf_append_pieces (subject : Subject) (texts : List String) (rest : List Signal) :
    piecesOf (texts.map (.piece subject) ++ rest) = texts.map (subject, ·) ++ piecesOf rest := by
  induction texts with
  | nil => rfl
  | cons text texts ih => exact congrArg ((subject, text) :: ·) ih

theorem stopOf_append_pieces (subject : Subject) (texts : List String) (rest : List Signal) :
    stopOf (texts.map (.piece subject) ++ rest) = stopOf rest := by
  induction texts with
  | nil => rfl
  | cons text texts ih => exact ih

theorem length_surround (around : Surround) (subject : Subject) (directive : Directive) :
    (directive.surround around subject).length = directive.depthAfter around.length := by
  cases directive with
  | line text => rfl
  | opening header => rfl
  | closing => exact List.length_tail
  | gap => rfl

theorem piecesOf_signals (unit : String) (around : Surround) (events : List Event) :
    piecesOf (signals unit around.length events) =
      (chunksOf unit around events).map fun chunk => (chunk.1.subject, chunk.2) := by
  induction events generalizing around with
  | nil => rfl
  | cons event rest ih =>
    cases event with
    | write subject directive =>
      rw [signals, piecesOf_append_pieces, ← length_surround around subject, ih]
      have hchunks : chunksOf unit around (.write subject directive :: rest) =
          Placed.chunks unit ⟨around, subject, directive⟩ ++
            chunksOf unit (directive.surround around subject) rest := rfl
      rw [hchunks, List.map_append, Placed.chunks, List.map_map]
      rfl
    | note record => exact ih around
    | stop error => rfl

theorem stopOf_signals (unit : String) (depth : Nat) (events : List Event) :
    stopOf (signals unit depth events) = firstStop events := by
  induction events generalizing depth with
  | nil => rfl
  | cons event rest ih =>
    cases event with
    | write subject directive =>
      rw [signals, stopOf_append_pieces, ih]
      rfl
    | note record => exact ih depth
    | stop error => rfl

namespace Sink

variable {σ : Type}

def after (sink : Sink σ) : σ → List String → σ
  | state, [] => state
  | state, text :: rest => sink.after (sink.accept state text).1 rest

/-- Of the texts that it is offered a sink takes so many and refuses the next one. -/
inductive TakesOnly (sink : Sink σ) : σ → Nat → List String → Prop
  | none {state : σ} {count : Nat} : TakesOnly sink state count []
  | refused {state : σ} {text : String} {rest : List String}
    (h : (sink.accept state text).2 = false) : TakesOnly sink state 0 (text :: rest)
  | taken {state : σ} {count : Nat} {text : String} {rest : List String}
    (h : (sink.accept state text).2 = true)
    (hrest : TakesOnly sink (sink.accept state text).1 count rest) :
    TakesOnly sink state (count + 1) (text :: rest)

theorem TakesOnly.refused_of_zero {sink : Sink σ} {state : σ} {text : String} {rest : List String}
    (h : sink.TakesOnly state 0 (text :: rest)) : (sink.accept state text).2 = false := by
  cases h with
  | refused h => exact h

theorem TakesOnly.taken_of_succ {sink : Sink σ} {state : σ} {count : Nat} {text : String}
    {rest : List String} (h : sink.TakesOnly state (count + 1) (text :: rest)) :
    (sink.accept state text).2 = true ∧ sink.TakesOnly (sink.accept state text).1 count rest := by
  cases h with
  | taken h hrest => exact ⟨h, hrest⟩

theorem takesOnly_unlimited (texts : List String) :
    unlimited.TakesOnly () texts.length texts := by
  induction texts with
  | nil => exact .none
  | cons text rest ih => exact .taken rfl ih

theorem takesOnly_limited (taken count bytes : Nat) (texts : List String) :
    (limited (some (taken + count)) none).TakesOnly (taken, bytes) count texts := by
  induction texts generalizing taken count bytes with
  | nil => exact .none
  | cons text rest ih =>
    cases count with
    | zero => exact .refused (by simp [limited])
    | succ count =>
      refine .taken (by simp [limited]) ?_
      have h := ih (taken + 1) count (bytes + text.utf8ByteSize)
      rwa [Nat.add_right_comm] at h

end Sink

section Deliver

variable {σ : Type} (sink : Sink σ)

theorem deliver_refused {state : σ} {count : Nat} {items : List Signal}
    (h : sink.TakesOnly state count ((piecesOf items).map (·.2)))
    {subject : Subject} {text : String} (hpiece : (piecesOf items)[count]? = some (subject, text)) :
    (deliver sink state items).1.written = ((piecesOf items).map (·.2)).take count ∧
      (deliver sink state items).1.outcome = .error (.refused subject) ∧
      (deliver sink state items).2 =
        sink.after state (((piecesOf items).map (·.2)).take (count + 1)) := by
  -- Each piece that is taken uses up one of the `count`; notes are passed over.
  induction items generalizing state count with
  | nil => cases hpiece
  | cons signal rest ih =>
    cases signal with
    | note record => exact ih h hpiece
    | stop error => cases hpiece
    | piece subject' text' =>
      cases count with
      | zero =>
        cases hpiece
        have hrefuse : (sink.accept state text).2 = false := h.refused_of_zero
        rcases haccept : sink.accept state text with ⟨state', taken⟩
        rw [haccept] at hrefuse
        subst hrefuse
        simp [deliver, haccept, piecesOf, Sink.after]
      | succ count =>
        obtain ⟨htake, h⟩ := h.taken_of_succ
        obtain ⟨hwritten, houtcome, hlast⟩ := ih h hpiece
        rcases haccept : sink.accept state text' with ⟨state', taken⟩
        rw [haccept] at htake hwritten houtcome hlast
        subst htake
        simp [deliver, haccept, piecesOf, Sink.after, hwritten, houtcome, hlast]

theorem deliver_taken {state : σ} {count : Nat} {items : List Signal}
    (h : sink.TakesOnly state count ((piecesOf items).map (·.2)))
    (hcount : (piecesOf items).length ≤ count) :
    (deliver sink state items).1.written = (piecesOf items).map (·.2) ∧
      (deliver sink state items).1.outcome = outcomeOf (stopOf items) ∧
      (deliver sink state items).2 = sink.after state ((piecesOf items).map (·.2)) := by
  induction items generalizing state count with
  | nil => exact ⟨rfl, rfl, rfl⟩
  | cons signal rest ih =>
    cases signal with
    | note record => exact ih h hcount
    | stop error => exact ⟨rfl, rfl, rfl⟩
    | piece subject text =>
      cases count with
      | zero => exact absurd hcount (Nat.not_succ_le_zero _)
      | succ count =>
        obtain ⟨htake, h⟩ := h.taken_of_succ
        obtain ⟨hwritten, houtcome, hlast⟩ := ih h (Nat.le_of_succ_le_succ hcount)
        rcases haccept : sink.accept state text with ⟨state', taken⟩
        rw [haccept] at htake hwritten houtcome hlast
        subst htake
        simp [deliver, haccept, piecesOf, stopOf, Sink.after, hwritten, houtcome, hlast]

end Deliver

theorem deliver_unlimited (items : List Signal) :
    (deliver .unlimited () items).1.written = (piecesOf items).map (·.2) ∧
      (deliver .unlimited () items).1.outcome = outcomeOf (stopOf items) := by
  have hcount : (piecesOf items).length ≤ ((piecesOf items).map (·.2)).length := by simp
  obtain ⟨hwritten, houtcome, -⟩ := deliver_taken _ (Sink.takesOnly_unlimited _) hcount
  exact ⟨hwritten, houtcome⟩

theorem firstStop_of_result {l : Layout} {depth : Nat} {script : Script} {text : String}
    (h : (perform l .unlimited depth script).1.result = .ok text) : firstStop script = none := by
  obtain ⟨houtcome, -⟩ := Delivery.result_eq_ok.1 h
  obtain ⟨-, hstop⟩ := deliver_unlimited (signals l.indentUnit depth script)
  rw [stopOf_signals] at hstop
  exact outcomeOf_eq_ok.1 (hstop.symm.trans houtcome)

end C4.Dsl
