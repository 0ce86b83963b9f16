import C4.Toml.Document

/-!
# Line ends of TOML documents

A TOML document ends its lines in line feeds, with or without a carriage return before them.
No reader takes a carriage return that stands alone, a vertical tab or a form feed, so no text
that is read to its end holds one.
-/
namespace C4.Toml

open Reader

def returns : List Char := ['\r', '\x0b', '\x0c']

inductive Regular : List Char → Prop
  | nil : Regular []
  | pair {rest : List Char} (h : Regular rest) : Regular ('\r' :: '\n' :: rest)
  | cons {c : Char} {rest : List Char} (hc : c ∉ returns) (h : Regular rest) :
    Regular (c :: rest)

theorem Regular.append {text more : List Char} (h : Regular text) (hmore : Regular more) :
    Regular (text ++ more) := by
  induction h with
  | nil => exact hmore
  | pair _ ih => exact .pair ih
  | cons hc _ ih => exact .cons hc ih

theorem regular_of_forall {text : List Char} (h : ∀ c ∈ text, c ∉ returns) :
    Regular text := by
  induction text with
  | nil => exact .nil
  | cons c text ih =>
    obtain ⟨hc, htext⟩ := List.forall_mem_cons.1 h
    exact .cons hc (ih htext)

theorem Regular.next {start more : List Char} {c : Char} (h : Regular (start ++ c :: more))
    (hc : c ∈ returns) : c = '\r' ∧ more.head? = some '\n' := by
  generalize htext : start ++ c :: more = text at h
  induction h generalizing start with
  | nil => simp at htext
  | @pair rest _ ih =>
    cases start with
    | nil =>
      cases htext
      exact ⟨rfl, rfl⟩
    | cons d start =>
      obtain ⟨-, htail⟩ := List.cons.inj htext
      cases start with
      | nil =>
        cases htail
        exact absurd hc (by decide)
      | cons e start => exact ih (List.cons.inj htail).2
  | @cons d rest hd _ ih =>
    cases start with
    | nil =>
      cases htext
      exact absurd hc hd
    | cons e start => exact ih (List.cons.inj htext).2

def Keeps {α : Type} (r : Reader α) : Prop :=
  ∀ c a c', r c = some (a, c') → ∃ taken, c.rest = taken ++ c'.rest ∧ Regular taken

section Combinators

variable {α β : Type} {r s : Reader α}

theorem keeps_pure (a : α) : Keeps (pure a : Reader α) := by
  intro c b c' h
  cases h
  exact ⟨[], rfl, .nil⟩

theorem keeps_failure : Keeps (failure : Reader α) := by
  intro c a c' h
  cases h

theorem keeps_get : Keeps (get : Reader Cursor) := by
  intro c a c' h
  cases h
  exact ⟨[], rfl, .nil⟩

theorem keeps_bind {f : α → Reader β} (hr : Keeps r) (hf : ∀ a, Keeps (f a)) :
    Keeps (r >>= f) := by
  intro c b c' h
  obtain ⟨⟨a, d⟩, hread, hnext⟩ := Option.bind_eq_some_iff.1 h
  obtain ⟨taken, htaken, hregular⟩ := hr c a d hread
  obtain ⟨more, hmore, hregular'⟩ := hf a d b c' hnext
  exact ⟨taken ++ more, by rw [htaken, hmore, List.append_assoc], hregular.append hregular'⟩

theorem keeps_map (hr : Keeps r) (f : α → β) : Keeps (f <$> r) := by
  intro c b c' h
  obtain ⟨⟨a, d⟩, hread, hnext⟩ := Option.bind_eq_some_iff.1 h
  cases hnext
  exact hr c a _ hread

theorem keeps_orElse (hr : Keeps r) (hs : Keeps s) : Keeps (r <|> s) := by
  intro c a c' h
  change (r c <|> s c) = some (a, c') at h
  cases hread : r c with
  | none =>
    rw [hread] at h
    exact hs c a c' h
  | some p =>
    rw [hread] at h
    cases h
    exact hr c a c' hread

theorem keeps_ite {p : Prop} [Decidable p] (hr : Keeps r) (hs : Keeps s) :
    Keeps (if p then r else s) := by
  split
  · exact hr
  · exact hs

def Spares (p : Char → Bool) : Prop := ∀ c ∈ returns, p c = false

instance : DecidablePred Spares := fun p => List.decidableBAll (fun c => p c = false) returns

theorem not_mem_returns {p : Char → Bool} (hp : Spares p) {c : Char}
    (hc : p c = true) : c ∉ returns := by
  intro hmem
  rw [hp c hmem] at hc
  cases hc

theorem keeps_satisfy {p : Char → Bool} (hp : Spares p) :
    Keeps (satisfy p) := by
  intro c a c' h
  unfold satisfy at h
  split at h
  · cases h
  · next d rest hrest =>
    split at h
    · next hd =>
      cases h
      exact ⟨[a], hrest, .cons (not_mem_returns hp hd) .nil⟩
    · cases h

theorem keeps_satisfy_bind {p : Char → Bool} {f : Char → Reader β} (hf : ∀ d, Keeps (f d))
    (hreturns : ∀ d ∈ returns, f d = failure) : Keeps (satisfy p >>= f) := by
  intro c b c' h
  obtain ⟨⟨a, d⟩, hread, hnext⟩ := Option.bind_eq_some_iff.1 h
  have ha : a ∉ returns := by
    intro hmem
    change f a d = _ at hnext
    rw [hreturns a hmem] at hnext
    cases hnext
  have hread' : satisfy (· = a) c = some (a, d) := by
    unfold satisfy at hread ⊢
    split at hread
    · cases hread
    · split at hread
      · cases hread
        simp
      · cases hread
  obtain ⟨taken, htaken, hregular⟩ := keeps_satisfy (p := (· = a)) (by
    intro e he
    exact decide_eq_false fun heq => ha (heq ▸ he)) c a d hread'
  obtain ⟨more, hmore, hregular'⟩ := hf a d b c' hnext
  exact ⟨taken ++ more, by rw [htaken, hmore, List.append_assoc], hregular.append hregular'⟩

theorem rest_of_char {d : Char} {c c' : Cursor} {u : Unit} (h : char d c = some (u, c')) :
    c.rest = d :: c'.rest := by
  obtain ⟨⟨a, e⟩, hread, hnext⟩ := Option.bind_eq_some_iff.1 h
  cases hnext
  unfold satisfy at hread
  split at hread
  · cases hread
  · next hrest =>
    split at hread
    · next ha =>
      cases hread
      rw [hrest, of_decide_eq_true ha]
    · cases hread

theorem keeps_char {d : Char} (hd : d ∉ returns) : Keeps (char d) := by
  apply keeps_bind
  · apply keeps_satisfy
    intro c hc
    exact decide_eq_false fun heq => hd (heq ▸ hc)
  · exact fun _ => keeps_pure ()

theorem keeps_literal {text : String} (h : Spares text.toList.contains) :
    Keeps (literal text) := by
  have hchars : ∀ c ∈ text.toList, c ∉ returns := fun c hc =>
    not_mem_returns h (List.contains_iff_mem.2 hc)
  unfold literal
  generalize text.toList = chars at hchars
  induction chars with
  | nil => exact keeps_pure ()
  | cons c rest ih =>
    obtain ⟨hc, hrest⟩ := List.forall_mem_cons.1 hchars
    exact keeps_bind (keeps_char hc) fun _ => ih hrest

theorem keeps_takeWhile {p : Char → Bool} (hp : Spares p) :
    Keeps (takeWhile p) := by
  intro c a c' h
  cases h
  refine ⟨c.rest.takeWhile p, ?_, ?_⟩
  · obtain ⟨more, hmore⟩ : c.rest.takeWhile p <+: c.rest := List.takeWhile_prefix p
    have hdrop := congrArg (List.drop (c.rest.takeWhile p).length) hmore
    rw [List.drop_left] at hdrop
    change c.rest = c.rest.takeWhile p ++ c.rest.drop (c.rest.takeWhile p).length
    rw [← hdrop, hmore]
  · apply regular_of_forall
    intro d hd
    exact not_mem_returns hp (List.all_eq_true.1 List.all_takeWhile d hd)

theorem keeps_atMost (hr : Keeps r) (limit : Nat) : Keeps (atMost limit r) := by
  induction limit with
  | zero => exact keeps_pure _
  | succ limit ih =>
    apply keeps_orElse
    · exact keeps_bind hr fun _ => keeps_bind ih fun _ => keeps_pure _
    · exact keeps_pure _

theorem keeps_many (hr : Keeps r) : Keeps (many r) :=
  keeps_bind keeps_get fun _ => keeps_atMost hr _

theorem keeps_perhaps (hr : Keeps r) : Keeps (perhaps r) :=
  keeps_orElse (keeps_map hr some) (keeps_pure none)

theorem keeps_position : Keeps position := keeps_bind keeps_get fun _ => keeps_pure _

theorem keeps_peek : Keeps peek := keeps_bind keeps_get fun _ => keeps_pure _

theorem keeps_located (hr : Keeps r) : Keeps (located r) :=
  keeps_bind keeps_position fun _ => keeps_bind hr fun _ => keeps_bind keeps_position fun _ =>
    keeps_pure _

theorem keeps_exactly (hr : Keeps r) (n : Nat) : Keeps (exactly n r) := by
  induction n with
  | zero => exact keeps_pure _
  | succ n ih => exact keeps_bind hr fun _ => keeps_bind ih fun _ => keeps_pure _

end Combinators

theorem keeps_blanks : Keeps blanks :=
  keeps_bind (keeps_takeWhile (by decide)) fun _ => keeps_pure _

theorem keeps_newline : Keeps newline := by
  apply keeps_orElse
  · exact keeps_char (by decide)
  · intro c u c' h
    obtain ⟨⟨_, d⟩, hreturn, hnext⟩ := Option.bind_eq_some_iff.1 h
    obtain ⟨⟨_, e⟩, hfeed, hend⟩ := Option.bind_eq_some_iff.1 hnext
    cases hend
    have hrest : c.rest = ['\r', '\n'] ++ c'.rest := by
      rw [rest_of_char hreturn, rest_of_char hfeed]
      rfl
    exact ⟨_, hrest, .pair .nil⟩

theorem keeps_comment : Keeps comment :=
  keeps_bind (keeps_char (by decide)) fun _ => keeps_bind (keeps_takeWhile (by decide)) fun _ =>
    keeps_pure _

theorem keeps_endOfText : Keeps endOfText :=
  keeps_bind keeps_peek fun _ => keeps_ite keeps_failure (keeps_pure _)

theorem keeps_endOfLine : Keeps endOfLine :=
  keeps_bind keeps_blanks fun _ => keeps_bind (keeps_perhaps keeps_comment) fun _ =>
    keeps_orElse keeps_newline keeps_endOfText

theorem keeps_emptyLines : Keeps (many do
    let _ ← perhaps comment
    newline
    blanks) :=
  keeps_many <| keeps_bind (keeps_perhaps keeps_comment) fun _ => keeps_bind keeps_newline fun _ =>
    keeps_blanks

theorem keeps_looseSpace : Keeps looseSpace :=
  keeps_bind keeps_blanks fun _ => keeps_bind keeps_emptyLines fun _ => keeps_pure _

theorem keeps_codePoint (digits : Nat) : Keeps (codePoint digits) :=
  keeps_bind (keeps_exactly (keeps_satisfy (by decide)) _) fun _ =>
    keeps_ite (keeps_pure _) keeps_failure

theorem keeps_escapeSequence : Keeps escapeSequence := by
  refine keeps_bind (keeps_char (by decide)) fun _ => keeps_satisfy_bind ?_ ?_
  · intro d
    split <;> first | exact keeps_pure _ | exact keeps_codePoint _ | exact keeps_failure
  · intro d hd
    simp only [returns, List.mem_cons, List.not_mem_nil, or_false] at hd
    rcases hd with rfl | rfl | rfl <;> rfl

theorem keeps_basicChar : Keeps (satisfy isBasicChar <|> escapeSequence) :=
  keeps_orElse (keeps_satisfy (by decide)) keeps_escapeSequence

theorem keeps_basicString : Keeps basicString :=
  keeps_bind (keeps_char (by decide)) fun _ => keeps_bind (keeps_many keeps_basicChar) fun _ =>
    keeps_bind (keeps_char (by decide)) fun _ => keeps_pure _

theorem keeps_literalString : Keeps literalString :=
  keeps_bind (keeps_char (by decide)) fun _ => keeps_bind (keeps_takeWhile (by decide)) fun _ =>
    keeps_bind (keeps_char (by decide)) fun _ => keeps_pure _

theorem keeps_hiddenLineBreak : Keeps hiddenLineBreak := by
  refine keeps_bind (keeps_char (by decide)) fun _ => keeps_bind keeps_blanks fun _ =>
    keeps_bind keeps_newline fun _ => keeps_bind (keeps_many ?_) fun _ => keeps_pure _
  exact keeps_orElse keeps_newline <| keeps_bind (keeps_satisfy (by decide)) fun _ => keeps_pure _

theorem keeps_lineBreak : Keeps lineBreak := keeps_bind keeps_newline fun _ => keeps_pure _

theorem keeps_untilTripleQuote {quote : Char} {piece : Reader (List Char)}
    (hquote : quote ∉ returns) (hpiece : Keeps piece) (limit : Nat) :
    Keeps (untilTripleQuote quote piece limit) := by
  induction limit with
  | zero => exact keeps_failure
  | succ limit ih =>
    apply keeps_bind
    · apply keeps_takeWhile
      intro c hc
      exact decide_eq_false fun heq => hquote (heq ▸ hc)
    · intro quotes
      apply keeps_ite
      · exact keeps_bind hpiece fun _ => keeps_bind ih fun _ => keeps_pure _
      · exact keeps_ite (keeps_pure _) keeps_failure

theorem keeps_tripleQuoted {quote : Char} {piece : Reader (List Char)}
    (hquote : quote ∉ returns) (hpiece : Keeps piece) : Keeps (tripleQuoted quote piece) :=
  keeps_bind (keeps_exactly (keeps_char hquote) _) fun _ =>
    keeps_bind (keeps_perhaps keeps_newline) fun _ => keeps_bind keeps_get fun _ =>
      keeps_bind (keeps_untilTripleQuote hquote hpiece _) fun _ => keeps_pure _

theorem keeps_anyString : Keeps anyString := by
  refine keeps_orElse (keeps_tripleQuoted (by decide) ?_) <| keeps_orElse keeps_basicString <|
    keeps_orElse (keeps_tripleQuoted (by decide) ?_) keeps_literalString
  · exact keeps_orElse keeps_hiddenLineBreak <| keeps_orElse keeps_lineBreak <|
      keeps_bind keeps_basicChar fun _ => keeps_pure _
  · exact keeps_orElse keeps_lineBreak <|
      keeps_bind (keeps_satisfy (by decide)) fun _ => keeps_pure _

theorem keeps_bareKey : Keeps bareKey :=
  keeps_bind (keeps_satisfy (by decide)) fun _ => keeps_bind (keeps_takeWhile (by decide)) fun _ =>
    keeps_pure _

theorem keeps_simpleKey : Keeps simpleKey :=
  keeps_bind keeps_blanks fun _ => keeps_bind
    (keeps_located <| keeps_orElse keeps_basicString <|
      keeps_orElse keeps_literalString keeps_bareKey) fun _ =>
    keeps_bind keeps_blanks fun _ => keeps_pure _

theorem keeps_dottedKey : Keeps dottedKey :=
  keeps_bind keeps_simpleKey fun _ => keeps_bind
    (keeps_many <| keeps_bind (keeps_char (by decide)) fun _ => keeps_simpleKey) fun _ =>
    keeps_ite (keeps_pure _) keeps_failure

theorem keeps_digits {p : Char → Bool} (hp : Spares p) : Keeps (digits p) :=
  keeps_bind (keeps_satisfy hp) fun _ => keeps_bind
    (keeps_many <| keeps_orElse (keeps_satisfy hp) <|
      keeps_bind (keeps_char (by decide)) fun _ => keeps_satisfy hp) fun _ => keeps_pure _

theorem keeps_sign : Keeps sign :=
  keeps_orElse (keeps_bind (keeps_char (by decide)) fun _ => keeps_pure _) <|
    keeps_orElse (keeps_bind (keeps_char (by decide)) fun _ => keeps_pure _) (keeps_pure _)

theorem keeps_decimalDigits : Keeps decimalDigits := by
  refine keeps_bind keeps_peek fun next => ?_
  split
  · exact keeps_bind (keeps_satisfy (by decide)) fun _ => keeps_pure _
  · exact keeps_digits (by decide)

theorem keeps_inRange (n : Int) : Keeps (inRange n) := keeps_ite (keeps_pure _) keeps_failure

theorem keeps_based {mark : String} {base : Nat} {p : Char → Bool}
    (hmark : Spares mark.toList.contains) (hp : Spares p) :
    Keeps (based mark base p) :=
  keeps_bind (keeps_literal hmark) fun _ => keeps_bind (keeps_digits hp) fun _ => keeps_inRange _

theorem keeps_integer : Keeps integer :=
  keeps_orElse (keeps_based (by decide) (by decide)) <|
    keeps_orElse (keeps_based (by decide) (by decide)) <|
      keeps_orElse (keeps_based (by decide) (by decide)) <|
        keeps_bind keeps_sign fun _ => keeps_bind keeps_decimalDigits fun _ => keeps_inRange _

theorem keeps_fraction : Keeps fraction :=
  keeps_bind (keeps_char (by decide)) fun _ => keeps_digits (by decide)

theorem keeps_exponent : Keeps exponent :=
  keeps_bind (keeps_satisfy (by decide)) fun _ => keeps_bind keeps_sign fun _ =>
    keeps_bind (keeps_digits (by decide)) fun _ => keeps_pure _

theorem keeps_decimalFloat : Keeps decimalFloat :=
  keeps_bind keeps_sign fun _ => keeps_bind keeps_decimalDigits fun _ =>
    keeps_bind (keeps_perhaps keeps_fraction) fun _ =>
      keeps_bind (keeps_perhaps keeps_exponent) fun _ =>
        keeps_ite (keeps_bind keeps_failure fun _ => keeps_ite keeps_failure (keeps_pure _))
          (keeps_ite keeps_failure (keeps_pure _))

theorem keeps_specialFloat : Keeps specialFloat :=
  keeps_bind keeps_sign fun _ =>
    keeps_orElse (keeps_bind (keeps_literal (by decide)) fun _ => keeps_pure _)
      (keeps_bind (keeps_literal (by decide)) fun _ => keeps_pure _)

theorem keeps_field {width low high : Nat} : Keeps (field width low high) :=
  keeps_bind (keeps_exactly (keeps_satisfy (by decide)) _) fun _ =>
    keeps_ite (keeps_pure _) keeps_failure

theorem keeps_date : Keeps date :=
  keeps_bind keeps_field fun _ => keeps_bind (keeps_char (by decide)) fun _ =>
    keeps_bind keeps_field fun _ => keeps_bind (keeps_char (by decide)) fun _ =>
      keeps_bind keeps_field fun _ => keeps_pure _

theorem keeps_time : Keeps time :=
  keeps_bind keeps_field fun _ => keeps_bind (keeps_char (by decide)) fun _ =>
    keeps_bind keeps_field fun _ => keeps_bind (keeps_char (by decide)) fun _ =>
      keeps_bind keeps_field fun _ => keeps_bind
        (keeps_perhaps <| keeps_bind (keeps_char (by decide)) fun _ =>
          keeps_bind (keeps_satisfy (by decide)) fun _ => keeps_takeWhile (by decide)) fun _ =>
        keeps_pure _

theorem keeps_zone : Keeps zone :=
  keeps_orElse (keeps_bind (keeps_satisfy (by decide)) fun _ => keeps_pure _) <|
    keeps_bind (keeps_satisfy (by decide)) fun _ => keeps_bind keeps_field fun _ =>
      keeps_bind (keeps_char (by decide)) fun _ => keeps_bind keeps_field fun _ =>
        keeps_pure _

theorem keeps_dateTime : Keeps dateTime :=
  keeps_orElse
    (keeps_bind keeps_date fun _ => keeps_bind
      (keeps_perhaps <| keeps_bind (keeps_satisfy (by decide)) fun _ =>
        keeps_bind keeps_time fun _ => keeps_perhaps keeps_zone) fun _ => keeps_pure _)
    keeps_time

theorem keeps_spelling {r : Reader Unit} (hr : Keeps r) : Keeps (spelling r) :=
  keeps_bind keeps_get fun _ => keeps_bind hr fun _ => keeps_bind keeps_get fun _ => keeps_pure _

theorem keeps_boolean : Keeps boolean :=
  keeps_orElse (keeps_bind (keeps_literal (by decide)) fun _ => keeps_pure _)
    (keeps_bind (keeps_literal (by decide)) fun _ => keeps_pure _)

theorem keeps_scalar : Keeps scalar := by
  have hvalue {α : Type} {r : Reader α} (hr : Keeps r) (f : Span → α → Value) :
      Keeps (do let (s, v) ← located r; return f s v) :=
    keeps_bind (keeps_located hr) fun _ => keeps_pure _
  exact keeps_orElse (hvalue keeps_anyString _) <|
    keeps_orElse (hvalue (keeps_spelling keeps_dateTime) _) <|
      keeps_orElse (hvalue (keeps_orElse keeps_decimalFloat keeps_specialFloat) _) <|
        keeps_orElse (hvalue keeps_integer _) (hvalue keeps_boolean _)

section Nested

variable {value : Reader Value}

theorem keeps_arrayItems (hvalue : Keeps value) (limit : Nat) :
    Keeps (arrayItems value limit) := by
  induction limit with
  | zero => exact keeps_failure
  | succ limit ih =>
    have hlast (v : Value) : Keeps (do char ']'; return [v]) :=
      keeps_bind (keeps_char (by decide)) fun _ => keeps_pure _
    refine keeps_bind keeps_looseSpace fun _ => keeps_bind keeps_peek fun next => ?_
    apply keeps_ite
    · exact keeps_bind (keeps_char (by decide)) fun _ => keeps_pure _
    · refine keeps_bind hvalue fun v => keeps_bind keeps_looseSpace fun _ =>
        keeps_bind keeps_peek fun next => keeps_ite ?_ (hlast v)
      exact keeps_bind (keeps_char (by decide)) fun _ => keeps_bind ih fun _ => keeps_pure _

theorem keeps_pairWith (hvalue : Keeps value) : Keeps (pairWith value) :=
  keeps_bind keeps_dottedKey fun _ => keeps_bind (keeps_char (by decide)) fun _ =>
    keeps_bind keeps_blanks fun _ => keeps_bind hvalue fun _ => keeps_pure _

theorem keeps_inlinePairs (hvalue : Keeps value) (limit : Nat) :
    Keeps (inlinePairs value limit) := by
  induction limit with
  | zero => exact keeps_failure
  | succ limit ih =>
    refine keeps_bind (keeps_pairWith hvalue) fun p => keeps_bind keeps_blanks fun _ =>
      keeps_bind keeps_peek fun next => ?_
    apply keeps_ite
    · exact keeps_bind (keeps_char (by decide)) fun _ => keeps_bind ih fun _ => keeps_pure _
    · exact keeps_bind (keeps_char (by decide)) fun _ => keeps_pure _

theorem keeps_inlineTable (hvalue : Keeps value) : Keeps (inlineTable value) := by
  refine keeps_bind (keeps_char (by decide)) fun _ => keeps_bind keeps_blanks fun _ =>
    keeps_bind keeps_peek fun next => ?_
  apply keeps_ite
  · exact keeps_bind (keeps_char (by decide)) fun _ => keeps_pure _
  · refine keeps_bind keeps_get fun _ => keeps_bind (keeps_inlinePairs hvalue _) fun pairs => ?_
    split
    · exact keeps_failure
    · exact keeps_pure _

end Nested

theorem keeps_valueWithin (depth : Nat) : Keeps (valueWithin depth) := by
  induction depth with
  | zero => exact keeps_scalar
  | succ depth ih =>
    refine keeps_bind keeps_peek fun next => ?_
    split
    · refine keeps_bind (keeps_located ?_) fun _ => keeps_pure _
      exact keeps_bind (keeps_char (by decide)) fun _ => keeps_bind keeps_get fun _ =>
        keeps_arrayItems ih _
    · exact keeps_bind (keeps_located (keeps_inlineTable ih)) fun _ => keeps_pure _
    · exact keeps_scalar

theorem keeps_pair : Keeps pair :=
  keeps_bind (keeps_pairWith (keeps_valueWithin _)) fun _ => keeps_bind keeps_endOfLine fun _ =>
    keeps_pure _

theorem keeps_header : Keeps header := by
  refine keeps_bind keeps_get fun c => keeps_bind (keeps_located ?_) fun _ =>
    keeps_bind keeps_endOfLine fun _ => keeps_pure _
  exact keeps_bind (keeps_exactly (keeps_char (by decide)) _) fun _ =>
    keeps_bind keeps_dottedKey fun _ =>
      keeps_bind (keeps_exactly (keeps_char (by decide)) _) fun _ => keeps_pure _

theorem keeps_between : Keeps between :=
  keeps_bind keeps_blanks fun _ => keeps_bind keeps_emptyLines fun _ => keeps_pure _

theorem keeps_pairs : Keeps pairs :=
  keeps_many <| keeps_bind keeps_pair fun _ => keeps_bind keeps_between fun _ => keeps_pure _

theorem keeps_document : Keeps document := by
  refine keeps_bind (keeps_perhaps (keeps_char (by decide))) fun _ =>
    keeps_bind keeps_between fun _ => keeps_bind keeps_pairs fun top =>
      keeps_bind (keeps_many ?_) fun sections => keeps_bind (keeps_perhaps keeps_comment) fun _ =>
        keeps_bind keeps_endOfText fun _ => keeps_pure _
  exact keeps_bind keeps_header fun _ => keeps_bind keeps_between fun _ =>
    keeps_bind keeps_pairs fun _ => keeps_pure _

def Finishes {α : Type} (r : Reader α) : Prop := ∀ c a c', r c = some (a, c') → c'.rest = []

theorem finishes_bind {α β : Type} {r : Reader α} {f : α → Reader β} (hf : ∀ a, Finishes (f a)) :
    Finishes (r >>= f) := by
  intro c b c' h
  obtain ⟨⟨a, d⟩, -, hnext⟩ := Option.bind_eq_some_iff.1 h
  exact hf a d b c' hnext

theorem finishes_endOfText {α : Type} (a : α) :
    Finishes (do endOfText; return a : Reader α) := by
  intro c b c' h
  obtain ⟨⟨_, d⟩, hend, hnext⟩ := Option.bind_eq_some_iff.1 h
  cases hnext
  have hread : endOfText c =
      (if c.rest.head?.isSome then failure else pure () : Reader Unit) c := rfl
  rw [hread] at hend
  cases hrest : c.rest with
  | nil =>
    rw [hrest] at hend
    cases hend
    exact hrest
  | cons e rest =>
    rw [hrest] at hend
    cases hend

theorem finishes_document : Finishes document :=
  finishes_bind fun _ => finishes_bind fun _ => finishes_bind fun _ => finishes_bind fun _ =>
    finishes_bind fun _ => finishes_endOfText _

theorem regular_of_parse {text : String} {t : Table} (h : parse text = some t) :
    Regular text.toList := by
  obtain ⟨⟨table, c⟩, hread, -⟩ := Option.bind_eq_some_iff.1 h
  obtain ⟨taken, htaken, hregular⟩ := keeps_document _ _ _ hread
  have hrest := finishes_document _ _ _ hread
  rw [hrest, List.append_nil] at htaken
  change text.toList = taken at htaken
  rw [htaken]
  exact hregular

end C4.Toml
