import C4.Diagnostic.Excerpt
import C4.Diagnostic.Frame

/-!
# Line positions

An excerpt and a frame count lines in two ways. For an excerpt only a line feed ends a line;
for a frame other characters do so as well, and a text that has ended with a line is not
followed by an empty one. Both give a place the same line and column exactly when the frame
counts the characters before it, every line before it ends in a line feed, and there is a line
that it stands in.
-/
namespace C4

namespace Position

def nextLine (p : Position) : Position := { p with line := p.line + 1 }

def shift (p : Position) : Position :=
  if p.line = 0 then { p with column := p.column + 1 } else p

theorem nextLine_inj {p q : Position} : p.nextLine = q.nextLine ↔ p = q := by
  cases p
  cases q
  simp [nextLine]

@[simp] theorem line_nextLine (p : Position) : p.nextLine.line = p.line + 1 := rfl

@[simp] theorem line_shift (p : Position) : p.shift.line = p.line := by
  unfold shift
  split <;> rfl

theorem shift_inj {p q : Position} : p.shift = q.shift ↔ p = q := by
  obtain ⟨line, column⟩ := p
  obtain ⟨line', column'⟩ := q
  by_cases h : line = 0
  · by_cases h' : line' = 0
    · simp [shift, h, h']
    · simp [shift, h, h', Ne.symm h']
  · by_cases h' : line' = 0
    · simp [shift, h, h']
    · simp [shift, h, h']

theorem shift_ne_zero (p : Position) : p.shift ≠ ⟨0, 0⟩ := by
  obtain ⟨line, column⟩ := p
  by_cases h : line = 0
  · simp [shift, h]
  · simp [shift, h]

end Position

namespace Diagnostic

open Position

def placeAfter (text : List Char) : Position :=
  ⟨text.count '\n', (text.reverse.takeWhile (· ≠ '\n')).length⟩

@[simp] theorem placeAfter_nil : placeAfter [] = ⟨0, 0⟩ := rfl

theorem takeWhile_append_of_mem {α : Type} {p : α → Bool} {a : α} {l : List α} (ha : a ∈ l)
    (hp : p a = false) (more : List α) : (l ++ more).takeWhile p = l.takeWhile p := by
  induction l with
  | nil => cases ha
  | cons b l ih =>
    rcases List.mem_cons.1 ha with rfl | ha
    · simp [hp]
    · cases hb : p b with
      | false => simp [hb]
      | true => simp [hb, ih ha]

theorem takeWhile_reverse_of_not_mem {text : List Char} (h : '\n' ∉ text) (more : List Char) :
    (text.reverse ++ more).takeWhile (· ≠ '\n') = text.reverse ++ more.takeWhile (· ≠ '\n') := by
  apply List.takeWhile_append_of_pos
  intro c hc
  have hne : c ≠ '\n' := fun heq => h (heq ▸ List.mem_reverse.1 hc)
  exact decide_eq_true hne

theorem takeWhile_reverse_self {text : List Char} (h : '\n' ∉ text) :
    text.reverse.takeWhile (· ≠ '\n') = text.reverse := by
  simpa using takeWhile_reverse_of_not_mem h []

theorem placeAfter_newline (text : List Char) :
    placeAfter ('\n' :: text) = (placeAfter text).nextLine := by
  have hcolumn : (text.reverse ++ ['\n']).takeWhile (· ≠ '\n') =
      text.reverse.takeWhile (· ≠ '\n') := by
    by_cases hmem : '\n' ∈ text
    · exact takeWhile_append_of_mem (List.mem_reverse.2 hmem) rfl _
    · rw [takeWhile_reverse_of_not_mem hmem, takeWhile_reverse_self hmem]
      simp
  unfold placeAfter nextLine
  rw [List.count_cons_self, List.reverse_cons, hcolumn]

theorem placeAfter_cons {c : Char} (hc : c ≠ '\n') (text : List Char) :
    placeAfter (c :: text) = (placeAfter text).shift := by
  unfold placeAfter shift
  rw [List.count_cons_of_ne hc, List.reverse_cons]
  by_cases hmem : '\n' ∈ text
  · have hpos : text.count '\n' ≠ 0 := fun h => List.count_eq_zero.1 h hmem
    rw [takeWhile_append_of_mem (List.mem_reverse.2 hmem) rfl, if_neg hpos]
  · rw [if_pos (List.count_eq_zero.2 hmem), takeWhile_reverse_of_not_mem hmem,
      takeWhile_reverse_self hmem]
    simp [hc]

def byteCount : List Char → Nat
  | [] => 0
  | c :: rest => c.utf8Size + byteCount rest

theorem length_le_byteCount (text : List Char) : text.length ≤ byteCount text := by
  induction text with
  | nil => exact Nat.le_refl _
  | cons c text ih =>
    have hc := c.utf8Size_pos
    rw [byteCount, List.length_cons]
    omega

theorem byteCount_eq_length_iff (text : List Char) :
    byteCount text = text.length ↔ ∀ c ∈ text, c.utf8Size = 1 := by
  induction text with
  | nil => simp [byteCount]
  | cons c text ih =>
    have hc := c.utf8Size_pos
    have htext := length_le_byteCount text
    rw [List.forall_mem_cons, ← ih, byteCount, List.length_cons]
    omega

theorem before_append (text rest : List Char) :
    Excerpt.before (text ++ rest) (byteCount text) = text := by
  induction text with
  | nil => cases rest <;> simp [Excerpt.before, byteCount]
  | cons c text ih =>
    have hc := c.utf8Size_pos
    rw [List.cons_append, Excerpt.before, byteCount, if_neg (by omega),
      Nat.add_sub_cancel_left, ih]

theorem position_append (text rest : List Char) :
    Excerpt.position (text ++ rest) (byteCount text) = placeAfter text := by
  rw [Excerpt.position, before_append, placeAfter]

/-- The line and the column of a character, as a frame counts. -/
def placeOf? (text : List Char) (n : Nat) : Option Position :=
  (Frame.spot (Frame.lines text) n).map Frame.Spot.position

@[simp] theorem placeOf?_nil (n : Nat) : placeOf? [] n = none := rfl

/-- A carriage return ends a line unless it belongs to the line feed after it. -/
def EndsHere (c : Char) (rest : List Char) : Prop :=
  Frame.endsLine c = true ∧ (c = '\r' → rest.head? ≠ some '\n')

instance (c : Char) (rest : List Char) : Decidable (EndsHere c rest) :=
  inferInstanceAs (Decidable (_ ∧ _))

theorem endsHere_newline (rest : List Char) : EndsHere '\n' rest :=
  ⟨rfl, fun h => absurd h (by decide)⟩

theorem lines_of_endsHere {c : Char} {rest : List Char} (h : EndsHere c rest) :
    Frame.lines (c :: rest) = [c] :: Frame.lines rest := by
  rw [Frame.lines.eq_def]
  split
  · next heq => cases heq
  · next heq =>
    cases heq
    exact absurd rfl (h.2 rfl)
  · next heq =>
    cases heq
    rw [if_pos h.1]

theorem lines_of_not_endsHere {c : Char} {rest line : List Char} {later : List (List Char)}
    (h : ¬EndsHere c rest) (hrest : Frame.lines rest = line :: later) :
    Frame.lines (c :: rest) = (c :: line) :: later := by
  rw [Frame.lines.eq_def]
  split
  · next heq => cases heq
  · next heq =>
    cases heq
    rw [lines_of_endsHere (endsHere_newline _)] at hrest
    cases hrest
    rfl
  · next hpair heq =>
    cases heq
    have hc : Frame.endsLine c ≠ true := by
      intro hc
      apply h
      refine ⟨hc, ?_⟩
      rintro rfl hhead
      obtain ⟨more, rfl⟩ := List.head?_eq_some_iff.1 hhead
      exact hpair more rfl rfl
    rw [if_neg hc, hrest]

theorem lines_singleton (c : Char) : Frame.lines [c] = [[c]] := by
  by_cases hc : Frame.endsLine c = true
  · exact lines_of_endsHere ⟨hc, by simp⟩
  · simp [Frame.lines, hc]

theorem lines_cons (c : Char) (rest : List Char) :
    ∃ line later, Frame.lines (c :: rest) = (c :: line) :: later := by
  induction rest generalizing c with
  | nil => exact ⟨[], [], lines_singleton c⟩
  | cons d rest ih =>
    by_cases h : EndsHere c (d :: rest)
    · exact ⟨[], _, lines_of_endsHere h⟩
    · obtain ⟨line, later, hlines⟩ := ih d
      exact ⟨_, _, lines_of_not_endsHere h hlines⟩

theorem exists_line {text : List Char} (h : text ≠ []) :
    ∃ line later, Frame.lines text = line :: later ∧ line ≠ [] := by
  obtain ⟨c, rest, rfl⟩ := List.exists_cons_of_ne_nil h
  obtain ⟨line, later, hlines⟩ := lines_cons c rest
  exact ⟨_, _, hlines, List.cons_ne_nil _ _⟩

theorem placeOf?_zero {text : List Char} (h : text ≠ []) : placeOf? text 0 = some ⟨0, 0⟩ := by
  obtain ⟨line, later, hlines, hline⟩ := exists_line h
  rw [placeOf?, hlines]
  cases later with
  | nil => rfl
  | cons next later =>
    rw [Frame.spot, if_pos (List.length_pos_iff.2 hline)]
    · rfl
    · simp

theorem placeOf?_singleton (c : Char) (n : Nat) :
    placeOf? [c] n = if n ≤ 1 then some ⟨0, n⟩ else none := by
  rw [placeOf?, lines_singleton, Frame.spot]
  by_cases h : n ≤ 1 <;> simp [h]

theorem placeOf?_of_endsHere {c : Char} {rest : List Char} (h : EndsHere c rest)
    (hrest : rest ≠ []) (n : Nat) :
    placeOf? (c :: rest) (n + 1) = (placeOf? rest n).map nextLine := by
  obtain ⟨line, later, hlines, -⟩ := exists_line hrest
  rw [placeOf?, placeOf?, lines_of_endsHere h, hlines, Frame.spot]
  · simp [Function.comp_def, nextLine]
  · simp

theorem placeOf?_of_not_endsHere {c : Char} {rest : List Char} (h : ¬EndsHere c rest)
    (hrest : rest ≠ []) (n : Nat) :
    placeOf? (c :: rest) (n + 1) = (placeOf? rest n).map shift := by
  obtain ⟨line, later, hlines, -⟩ := exists_line hrest
  rw [placeOf?, placeOf?, lines_of_not_endsHere h hlines, hlines]
  cases later with
  | nil =>
    by_cases hn : n ≤ line.length
    · simp [Frame.spot, hn, shift]
    · simp [Frame.spot, hn]
  | cons next later =>
    by_cases hn : n < line.length
    · simp [Frame.spot, hn, shift]
    · simp [Frame.spot, hn, Function.comp_def, shift]

/-- Whatever ends a line before the place, for more to come, is a line feed. -/
def EndsInLineFeeds (before rest : List Char) : Prop :=
  ∀ start c more, before = start ++ c :: more → more ++ rest ≠ [] →
    EndsHere c (more ++ rest) → c = '\n'

theorem endsInLineFeeds_cons {c : Char} {before rest : List Char} :
    EndsInLineFeeds (c :: before) rest ↔
      (before ++ rest ≠ [] → EndsHere c (before ++ rest) → c = '\n') ∧
        EndsInLineFeeds before rest := by
  constructor
  · intro h
    constructor
    · exact h [] c before rfl
    · intro start d more hsplit
      exact h (c :: start) d more (by rw [hsplit, List.cons_append])
  · rintro ⟨hfirst, hrest⟩ start d more hsplit
    cases start with
    | nil =>
      cases hsplit
      exact hfirst
    | cons e start =>
      obtain ⟨rfl, htail⟩ := List.cons.inj hsplit
      exact hrest start d more htail

/-- There is a line at the place: the text goes on, or it has not just ended with a line. -/
def InLine (before rest : List Char) : Prop :=
  rest = [] → ∃ c, before.getLast? = some c ∧ c ≠ '\n'

theorem inLine_cons {c : Char} {before rest : List Char} (h : before ++ rest ≠ []) :
    InLine (c :: before) rest ↔ InLine before rest := by
  cases before with
  | nil => simp_all [InLine]
  | cons d before => simp [InLine]

theorem placeAfter_singleton (c : Char) :
    placeAfter [c] = if c = '\n' then ⟨1, 0⟩ else ⟨0, 1⟩ := by
  by_cases hc : c = '\n'
  · rw [hc, placeAfter_newline]
    rfl
  · rw [placeAfter_cons hc, if_neg hc]
    rfl

/-- A frame is never on an earlier line than an excerpt, but behind a last line feed, where the
excerpt begins a line of which the frame knows nothing. -/
theorem line_le_or_column_lt {before rest : List Char} {n : Nat} {p : Position}
    (hn : before.length ≤ n) (h : placeOf? (before ++ rest) n = some p) :
    (placeAfter before).line ≤ p.line ∨ (placeAfter before).column < p.column := by
  induction before generalizing n p with
  | nil => exact .inl (Nat.zero_le _)
  | cons c before ih =>
    rw [List.length_cons] at hn
    obtain ⟨n, rfl⟩ : ∃ m, n = m + 1 := ⟨n - 1, by omega⟩
    rw [List.cons_append] at h
    by_cases hmore : before ++ rest = []
    · obtain ⟨rfl, rfl⟩ := List.append_eq_nil_iff.1 hmore
      rw [List.append_nil, placeOf?_singleton] at h
      rw [placeAfter_singleton]
      split at h
      · cases h
        split
        · exact .inr (Nat.succ_pos n)
        · exact .inl (Nat.zero_le _)
      · cases h
    · by_cases hends : EndsHere c (before ++ rest)
      · rw [placeOf?_of_endsHere hends hmore] at h
        obtain ⟨q, hq, rfl⟩ := Option.map_eq_some_iff.1 h
        have hrest := ih (Nat.le_of_succ_le_succ hn) hq
        by_cases hc : c = '\n'
        · rw [hc, placeAfter_newline]
          simpa [nextLine] using hrest
        · rw [placeAfter_cons hc]
          by_cases hzero : (placeAfter before).line = 0
          · simp [hzero]
          · simp only [shift, hzero, if_false, nextLine]
            omega
      · have hc : c ≠ '\n' := by
          rintro rfl
          exact hends (endsHere_newline _)
        rw [placeOf?_of_not_endsHere hends hmore] at h
        obtain ⟨q, hq, rfl⟩ := Option.map_eq_some_iff.1 h
        have hrest := ih (Nat.le_of_succ_le_succ hn) hq
        rw [placeAfter_cons hc]
        by_cases hzero : (placeAfter before).line = 0
        · simp [hzero]
        · by_cases hline : q.line = 0
          · simp only [shift, hzero, hline, if_false, if_true]
            omega
          · simp only [shift, hzero, hline, if_false]
            omega

theorem nextLine_ne_shift {before rest : List Char} {n : Nat} {p : Position}
    (hn : before.length ≤ n) (h : placeOf? (before ++ rest) n = some p) :
    p.nextLine ≠ (placeAfter before).shift := by
  intro heq
  have hline : p.line + 1 = (placeAfter before).line := by
    rw [← line_shift (placeAfter before), ← heq, line_nextLine]
  have hshift : (placeAfter before).shift = placeAfter before := by
    rw [shift, if_neg (by omega)]
  have hcolumn : p.column = (placeAfter before).column := by
    rw [← hshift, ← heq]
    rfl
  have hle := line_le_or_column_lt hn h
  omega

theorem placeOf?_succ_ne_zero (c : Char) (rest : List Char) (n : Nat) :
    placeOf? (c :: rest) (n + 1) ≠ some ⟨0, 0⟩ := by
  intro h
  by_cases hrest : rest = []
  · rw [hrest, placeOf?_singleton] at h
    split at h <;> simp at h
  · by_cases hhere : EndsHere c rest
    · rw [placeOf?_of_endsHere hhere hrest] at h
      obtain ⟨q, -, hq⟩ := Option.map_eq_some_iff.1 h
      exact absurd (congrArg Position.line hq) (Nat.succ_ne_zero _)
    · rw [placeOf?_of_not_endsHere hhere hrest] at h
      obtain ⟨q, -, hq⟩ := Option.map_eq_some_iff.1 h
      exact shift_ne_zero q hq

theorem endsInLineFeeds_nil (rest : List Char) : EndsInLineFeeds [] rest := by
  intro start c more hsplit
  simp at hsplit

/-- The frame finds the place that the excerpt gives to what follows a text, if and only if it
is asked for the number of characters in this text, and the lines end alike. -/
theorem placeOf?_eq_iff {before rest : List Char} {n : Nat} (hn : before.length ≤ n) :
    placeOf? (before ++ rest) n = some (placeAfter before) ↔
      n = before.length ∧ EndsInLineFeeds before rest ∧ InLine before rest := by
  induction before generalizing n with
  | nil =>
    cases rest with
    | nil => simp [InLine]
    | cons c rest =>
      cases n with
      | zero => simp [placeOf?_zero, endsInLineFeeds_nil, InLine]
      | succ n => simp [placeOf?_succ_ne_zero]
  | cons c before ih =>
    rw [List.length_cons] at hn
    obtain ⟨n, rfl⟩ : ∃ m, n = m + 1 := ⟨n - 1, by omega⟩
    rw [List.cons_append, List.length_cons, Nat.add_right_cancel_iff, endsInLineFeeds_cons]
    by_cases hmore : before ++ rest = []
    · obtain ⟨rfl, rfl⟩ := List.append_eq_nil_iff.1 hmore
      rw [List.append_nil, placeOf?_singleton, placeAfter_singleton]
      by_cases hc : c = '\n'
      · simp [hc, InLine]
      · simp [hc, InLine, endsInLineFeeds_nil]
    · have hrest := ih (Nat.le_of_succ_le_succ hn)
      rw [inLine_cons hmore]
      by_cases hhere : EndsHere c (before ++ rest)
      · rw [placeOf?_of_endsHere hhere hmore]
        by_cases hc : c = '\n'
        · rw [hc, placeAfter_newline, ← Option.map_some, Option.map_inj_right, hrest]
          · simp
          · exact fun _ _ => nextLine_inj.1
        · -- The frame has begun a line here, and never falls behind again.
          have hne : (placeOf? (before ++ rest) n).map nextLine ≠
              some (placeAfter (c :: before)) := by
            rw [placeAfter_cons hc]
            intro h
            obtain ⟨q, hq, hplace⟩ := Option.map_eq_some_iff.1 h
            exact nextLine_ne_shift (Nat.le_of_succ_le_succ hn) hq hplace
          simp [hne, hmore, hhere, hc]
      · have hc : c ≠ '\n' := by
          rintro rfl
          exact hhere (endsHere_newline _)
        rw [placeOf?_of_not_endsHere hhere hmore, placeAfter_cons hc, ← Option.map_some,
          Option.map_inj_right, hrest]
        · simp [hhere]
        · exact fun _ _ => shift_inj.1

end Diagnostic

end C4
