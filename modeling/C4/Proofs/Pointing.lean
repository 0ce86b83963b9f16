import C4.Proofs.Decoding
import C4.Proofs.LineEnds
import C4.Proofs.LinePositions
import C4.Theme.Report

/-!
# Pointing at the fault of a theme

The message about a theme names a line and a column, and the framed report names them again,
be the text no TOML or no theme.
They are the same exactly when everything before the fault takes one byte a character, since
the report takes bytes for characters; and then only if the fault, measured in bytes, does not
reach beyond the text, or the report names no place at all.
-/
namespace C4.Theme

open Diagnostic

/-- The message names the place. -/
def Says (message : String) (p : Position) : Prop :=
  ∃ rest, message = "Failed to parse theme TOML: TOML parse error at line " ++
    p.text ", column " ++ "\n" ++ rest

/-- The report names the place in its head line. -/
def Shows (file report : String) (p : Position) : Prop :=
  ∃ digits rest, report = Frame.title ++ Frame.top digits (Frame.place file p) ++ rest

/-- The report points where the message points. -/
def PointsAlike (file : String) (t : Trouble) : Prop :=
  ∃ p, Says t.message p ∧ Shows file (t.report file) p

theorem text_append_inj {p q : Position} {between : String} {rest rest' : List Char}
    (h : (p.text between).toList ++ rest = (q.text between).toList ++ rest')
    (hbetween : ∃ c ∈ between.toList.head?, c.isDigit = false)
    (hrest : ∀ c ∈ rest.head?, c.isDigit = false)
    (hrest' : ∀ c ∈ rest'.head?, c.isDigit = false) : p = q := by
  have hhead (more : List Char) : ∀ c ∈ (between.toList ++ more).head?, c.isDigit = false := by
    obtain ⟨d, hd, hdigit⟩ := hbetween
    intro c hc
    rw [List.head?_append, hd, Option.some_or] at hc
    cases hc
    exact hdigit
  simp only [Position.text, String.toList_append, List.append_assoc] at h
  obtain ⟨hline, hmore⟩ := toString_append_inj (hhead _) (hhead _) h
  obtain ⟨hcolumn, -⟩ := toString_append_inj hrest hrest' (List.append_cancel_left hmore)
  obtain ⟨line, column⟩ := p
  obtain ⟨line', column'⟩ := q
  simp only [Nat.add_right_cancel_iff] at hline hcolumn
  rw [hline, hcolumn]

theorem says_inj {message : String} {p q : Position} (hp : Says message p)
    (hq : Says message q) : p = q := by
  obtain ⟨rest, hp⟩ := hp
  obtain ⟨rest', hq⟩ := hq
  have h := congrArg String.toList (hp.symm.trans hq)
  simp only [String.toList_append, List.append_assoc] at h
  apply text_append_inj (List.append_cancel_left h)
  · exact ⟨',', rfl, rfl⟩
  · intro c hc
    cases hc
    rfl
  · intro c hc
    cases hc
    rfl

theorem head?_paint {p : Char → Bool} (hp : p '\x1b' = false) {color : Frame.Color}
    {text : String} {rest : List Char} :
    ∀ c ∈ ((Frame.paint color text).toList ++ rest).head?, p c = false := by
  intro c hc
  have hhead : ((Frame.paint color text).toList ++ rest).head? = some '\x1b' := by
    simp [Frame.paint]
  rw [hhead] at hc
  cases hc
  exact hp

theorem shows_inj {file report : String} {p q : Position} (hp : Shows file report p)
    (hq : Shows file report q) : p = q := by
  obtain ⟨digits, rest, hp⟩ := hp
  obtain ⟨digits', rest', hq⟩ := hq
  have h := congrArg String.toList (hp.symm.trans hq)
  simp only [Frame.top, Frame.place, String.toList_append, List.append_assoc] at h
  have hspaces (n : Nat) : ∀ c ∈ (spaces n).toList, decide (c = ' ') = true := by
    intro c hc
    rw [spaces, String.toList_ofList] at hc
    exact decide_eq_true (List.eq_of_mem_replicate hc)
  obtain ⟨-, hplaces⟩ := append_inj_of_run (p := (· = ' ')) (List.append_cancel_left h) (hspaces _)
    (hspaces _) (head?_paint rfl) (head?_paint rfl)
  have htexts := List.append_cancel_left <| List.append_cancel_left <| List.append_cancel_left <|
    List.append_cancel_left <| List.append_cancel_left hplaces
  apply text_append_inj htexts
  · exact ⟨':', rfl, rfl⟩
  · exact head?_paint rfl
  · exact head?_paint rfl

theorem exists_excerpt (d : Diagnostic) :
    ∃ rest, d.excerpt = Excerpt.place d ++ "\n" ++ rest := by
  unfold Diagnostic.excerpt
  simp only [String.append_assoc]
  exact ⟨_, rfl⟩

variable {t : Trouble} {d : Diagnostic}

theorem Trouble.message_of_diagnostic (ht : t.diagnostic? = some d) :
    t.message = "Failed to parse theme TOML: " ++ d.excerpt := by
  cases t with
  | unreadable reason => cases ht
  | malformed | faulty =>
    cases ht
    rfl

theorem Trouble.report_of_diagnostic (ht : t.diagnostic? = some d) (file : String) :
    t.report file = d.frame file := by
  rw [Trouble.report, ht]

theorem exists_diagnostic {explain : String → Complaint} {source : String}
    (h : ofTextBy explain source = .error t) : ∃ d, t.diagnostic? = some d ∧ d.source = source := by
  unfold ofTextBy at h
  split at h
  · cases h
    exact ⟨_, rfl, rfl⟩
  · next table _ =>
    cases htable : ofTable table with
    | ok theme =>
      rw [htable] at h
      cases h
    | error fault =>
      rw [htable] at h
      cases h
      exact ⟨_, rfl, rfl⟩

theorem says_message (ht : t.diagnostic? = some d) :
    Says t.message (Excerpt.position d.source.toList d.span.start) := by
  obtain ⟨rest, hrest⟩ := exists_excerpt d
  have hplace : Excerpt.place d = "TOML parse error at line " ++
    (Excerpt.position d.source.toList d.span.start).text ", column " := rfl
  have hopening : "Failed to parse theme TOML: TOML parse error at line " =
    "Failed to parse theme TOML: " ++ "TOML parse error at line " := by decide
  refine ⟨rest, ?_⟩
  rw [Trouble.message_of_diagnostic ht, hrest, hplace, hopening]
  simp only [String.append_assoc]

theorem not_shows_title (file : String) (p : Position) : ¬Shows file Frame.title p := by
  rintro ⟨digits, rest, h⟩
  have hlength := congrArg String.length h
  simp only [String.length_append, Frame.top, spaces, String.length_ofList,
    List.length_replicate] at hlength
  omega

theorem shows_report_iff (ht : t.diagnostic? = some d) (file : String) {p : Position} :
    Shows file (t.report file) p ↔
      placeOf? d.source.toList d.span.start = some p ∧ d.span.stop ≤ d.source.length + 1 := by
  have hplace : placeOf? d.source.toList d.span.start = (Frame.start d).map (·.position) := rfl
  rw [Trouble.report_of_diagnostic ht, hplace, Diagnostic.frame]
  cases hstart : Frame.start d with
  | none => simp [not_shows_title]
  | some s =>
    by_cases hstop : d.source.length + 1 < d.span.stop
    · simp [hstop, not_shows_title, Nat.not_le.2 hstop]
    · have hwithin : d.span.stop ≤ d.source.length + 1 := Nat.not_lt.1 hstop
      have hshown : Shows file (Frame.title ++
          Frame.top (gutter s.position.line) (Frame.place file s.position) ++
          Frame.body s (d.span.stop - d.span.start) d.message ++
          Frame.bottom (gutter s.position.line)) s.position :=
        ⟨gutter s.position.line, _, String.append_assoc⟩
      simp only [hstop, if_false, Option.map_some, Option.some.injEq, hwithin, and_true]
      constructor
      · exact shows_inj hshown
      · rintro rfl
        exact hshown

theorem pointsAlike_iff (ht : t.diagnostic? = some d) (file : String) :
    PointsAlike file t ↔
      placeOf? d.source.toList d.span.start =
          some (Excerpt.position d.source.toList d.span.start) ∧
        d.span.stop ≤ d.source.length + 1 := by
  constructor
  · rintro ⟨p, hsaid, hshown⟩
    rw [← says_inj (says_message ht) hsaid] at hshown
    exact (shows_report_iff ht file).1 hshown
  · intro h
    exact ⟨_, says_message ht, (shows_report_iff ht file).2 h⟩

section Spans

variable {source : String} {before inside after : List Char}

theorem endsInLineFeeds_of_parse (hsource : source.toList = before ++ (inside ++ after))
    {t : Toml.Table} (h : Toml.parse source = some t) (hbefore : ∀ c ∈ before, c.utf8Size = 1) :
    EndsInLineFeeds before (inside ++ after) := by
  intro start c more hsplit _ hends
  have hc : c.utf8Size = 1 := by
    apply hbefore
    rw [hsplit]
    exact List.mem_append_right _ List.mem_cons_self
  have hregular : Toml.Regular (start ++ c :: (more ++ (inside ++ after))) := by
    have hwhole := Toml.regular_of_parse h
    rw [hsource, hsplit, List.append_assoc] at hwhole
    exact hwhole
  by_cases hreturns : c ∈ Toml.returns
  · obtain ⟨hreturn, hhead⟩ := hregular.next hreturns
    exact absurd hhead (hends.2 hreturn)
  · -- The other characters that end a line take more than one byte.
    have hline := hends.1
    simp only [Toml.returns, List.mem_cons, List.not_mem_nil, or_false, not_or] at hreturns
    simp only [Frame.endsLine, Bool.or_eq_true, decide_eq_true_eq, hreturns, or_false] at hline
    rcases hline with ((rfl | rfl) | rfl) | rfl
    · rfl
    · exact absurd hc (by decide)
    · exact absurd hc (by decide)
    · exact absurd hc (by decide)

/-- The message names the place of the fault. The report names the place of the character
whose number is that of the first byte, or no place at all. A text that is sound TOML has no other
line ends than line feeds. -/
theorem points_alike_iff (file : String) (ht : t.diagnostic? = some d)
    (hsource : d.source.toList = before ++ (inside ++ after))
    (hspan : d.span = ⟨byteCount before, byteCount before + byteCount inside⟩) :
    Says t.message (placeAfter before) ∧
    (∀ p, Shows file (t.report file) p ↔
      placeOf? d.source.toList (byteCount before) = some p ∧
        byteCount before + byteCount inside ≤ d.source.length + 1) ∧
    (PointsAlike file t ↔
      (∀ c ∈ before, c.utf8Size = 1) ∧ byteCount inside ≤ (inside ++ after).length + 1 ∧
        InLine before (inside ++ after) ∧ EndsInLineFeeds before (inside ++ after)) ∧
    (∀ explain fault, t = .faulty d.source fault → ofTextBy explain d.source = .error t →
      (PointsAlike file t ↔
        (∀ c ∈ before, c.utf8Size = 1) ∧ byteCount inside ≤ (inside ++ after).length + 1 ∧
          InLine before (inside ++ after))) := by
  have hstart : d.span.start = byteCount before := by rw [hspan]
  have hstop : d.span.stop = byteCount before + byteCount inside := by rw [hspan]
  have hposition : Excerpt.position d.source.toList d.span.start = placeAfter before := by
    rw [hstart, hsource, position_append]
  have hlength : d.source.length = before.length + (inside ++ after).length := by
    rw [← String.length_toList, hsource, List.length_append]
  have halike : PointsAlike file t ↔
      (∀ c ∈ before, c.utf8Size = 1) ∧ byteCount inside ≤ (inside ++ after).length + 1 ∧
        InLine before (inside ++ after) ∧ EndsInLineFeeds before (inside ++ after) := by
    rw [pointsAlike_iff ht, hposition, hstart, hstop, hsource,
      placeOf?_eq_iff (length_le_byteCount before), byteCount_eq_length_iff, hlength]
    constructor
    · rintro ⟨⟨hascii, hends, hline⟩, hwithin⟩
      have hcount := (byteCount_eq_length_iff before).2 hascii
      exact ⟨hascii, by omega, hline, hends⟩
    · rintro ⟨hascii, hwithin, hline, hends⟩
      have hcount := (byteCount_eq_length_iff before).2 hascii
      exact ⟨⟨hascii, hends, hline⟩, by omega⟩
  refine ⟨hposition ▸ says_message ht, ?shown, halike, ?sound⟩
  case shown =>
    intro p
    rw [shows_report_iff ht, hstart, hstop]
  case sound =>
    rintro explain fault rfl hfaulty
    obtain ⟨table, htable⟩ : ∃ table, Toml.parse d.source = some table := by
      cases htable : Toml.parse d.source with
      | some table => exact ⟨table, rfl⟩
      | none =>
        rw [ofTextBy, htable] at hfaulty
        cases hfaulty
    rw [halike]
    constructor
    · rintro ⟨hascii, hwithin, hline, -⟩
      exact ⟨hascii, hwithin, hline⟩
    · rintro ⟨hascii, hwithin, hline⟩
      exact ⟨hascii, hwithin, hline, endsInLineFeeds_of_parse hsource htable hascii⟩

end Spans

def isFaultyAt (source : String) (span : Span) : Bool :=
  match ofText source with
  | .error (.faulty shown fault) => shown = source && fault.span = span
  | _ => false

theorem exists_fault {source : String} {span : Span} (h : isFaultyAt source span = true) :
    ∃ fault, ofText source = .error (.faulty source fault) ∧ fault.span = span := by
  unfold isFaultyAt at h
  split at h
  · next shown fault heq =>
    rw [Bool.and_eq_true, decide_eq_true_eq, decide_eq_true_eq] at h
    obtain ⟨rfl, hspan⟩ := h
    exact ⟨fault, heq, hspan⟩
  · cases h

/-- A shape that does not exist and a bracket that is missing, in texts of one byte a character. -/
theorem points_alike_iff_of_shape :
    (∃ source fault, ofText source = .error (.faulty source fault) ∧
      PointsAlike "ops.toml" (.faulty source fault)) ∧
    ∃ (source : String) (explain : String → Complaint) (t : Trouble), source = "[[element" ∧
      explain source = ⟨⟨9, 9⟩, "invalid table header\nexpected `.`, `]]`"⟩ ∧
      ofTextBy explain source = .error t ∧ Says t.message ⟨0, 9⟩ ∧ PointsAlike "ops.toml" t := by
  constructor
  · obtain ⟨fault, hfault, hspan⟩ : ∃ fault,
        ofText "[[element]]\ntag = \"e\"\nshape = \"Blob\"\n" =
          .error (.faulty "[[element]]\ntag = \"e\"\nshape = \"Blob\"\n" fault) ∧
        fault.span = ⟨30, 36⟩ := exists_fault (by decide +kernel)
    have hsource : "[[element]]\ntag = \"e\"\nshape = \"Blob\"\n".toList =
        "[[element]]\ntag = \"e\"\nshape = ".toList ++ ("\"Blob\"".toList ++ ['\n']) := by decide
    have hline : InLine "[[element]]\ntag = \"e\"\nshape = ".toList
        ("\"Blob\"".toList ++ ['\n']) := fun h => absurd h (by simp)
    obtain ⟨-, -, -, halike⟩ :=
      points_alike_iff "ops.toml" (t := .faulty _ fault) rfl hsource (hspan.trans (by decide))
    have hascii : ∀ c ∈ "[[element]]\ntag = \"e\"\nshape = ".toList, c.utf8Size = 1 :=
      List.forall_iff_forall_mem.1 (by decide)
    exact ⟨_, fault, hfault,
      (halike unexplained fault rfl hfault).2 ⟨hascii, by decide, hline⟩⟩
  · let complaint : Complaint := ⟨⟨9, 9⟩, "invalid table header\nexpected `.`, `]]`"⟩
    have hfail : ofTextBy (fun _ => complaint) "[[element" =
        .error (@Trouble.malformed "[[element" complaint) := by
      have hnone : Toml.parse "[[element" = none := by decide +kernel
      rw [ofTextBy, hnone]
    have hascii : ∀ c ∈ "[[element".toList, c.utf8Size = 1 :=
      List.forall_iff_forall_mem.1 (by decide)
    have hline : InLine "[[element".toList [] := fun _ => ⟨'t', by decide, by decide⟩
    have hplain : ∀ c ∈ "[[element".toList, Frame.endsLine c = false :=
      List.forall_iff_forall_mem.1 (by decide)
    have hends : EndsInLineFeeds "[[element".toList [] := by
      intro start c more hsplit _ hends
      have hc := hplain c (hsplit ▸ List.mem_append_right _ List.mem_cons_self)
      rw [hends.1] at hc
      cases hc
    have hsource : "[[element".toList = "[[element".toList ++ ([] ++ []) := by decide
    obtain ⟨hsaid, -, halike, -⟩ := points_alike_iff "ops.toml"
      (t := @Trouble.malformed "[[element" complaint) rfl hsource (by decide)
    exact ⟨"[[element", fun _ => complaint, _, rfl, rfl, hfail, hsaid,
      halike.2 ⟨hascii, by decide, hline, hends⟩⟩

/-- The letter before the fault takes two bytes, so the report points one character too far. -/
theorem pointed_beside_shape :
    ∃ source fault, ofText source = .error (.faulty source fault) ∧
      Says (Trouble.faulty source fault).message ⟨2, 8⟩ ∧
      Shows "ops.toml" ((Trouble.faulty source fault).report "ops.toml") ⟨2, 9⟩ ∧
      ¬PointsAlike "ops.toml" (.faulty source fault) := by
  obtain ⟨fault, hfault, hspan⟩ : ∃ fault,
      ofText "[[element]]\ntag = \"é\"\nshape = \"Blob\"\n" =
        .error (.faulty "[[element]]\ntag = \"é\"\nshape = \"Blob\"\n" fault) ∧
      fault.span = ⟨31, 37⟩ := exists_fault (by decide +kernel)
  have hposition : Excerpt.position "[[element]]\ntag = \"é\"\nshape = \"Blob\"\n".toList 31 =
      ⟨2, 8⟩ := by decide
  have hplace : placeOf? "[[element]]\ntag = \"é\"\nshape = \"Blob\"\n".toList 31 =
      some ⟨2, 9⟩ := by decide
  let t : Trouble := .faulty "[[element]]\ntag = \"é\"\nshape = \"Blob\"\n" fault
  have ht : t.diagnostic? = some ⟨"[[element]]\ntag = \"é\"\nshape = \"Blob\"\n", fault.span,
    fault.cause.message⟩ := rfl
  have hsaid := says_message ht
  rw [hspan, hposition] at hsaid
  have hwithin : 37 ≤ "[[element]]\ntag = \"é\"\nshape = \"Blob\"\n".length + 1 := by decide
  have hshown := (shows_report_iff ht "ops.toml").2 (by rw [hspan]; exact ⟨hplace, hwithin⟩)
  refine ⟨_, fault, hfault, hsaid, hshown, ?_⟩
  rintro ⟨p, hsaid', hshown'⟩
  have heq := (says_inj hsaid hsaid').trans (shows_inj hshown' hshown)
  exact absurd heq (by decide)

end C4.Theme
