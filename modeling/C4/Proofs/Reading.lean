import C4.Dsl.Quoted
import Mathlib.Data.List.DropRight

/-!
# Reading quoted arguments

A reader of the output format knows one escape: a backslash directly before a double quote.
It finds the end of a quoted text, and the text, exactly when the text does not end in a
backslash. One that does swallows its closing quote, and there is no way to write it, for the
reader never returns such a text.
-/
namespace C4.Dsl

def readBody : List Char → Option (List Char × List Char)
  | [] => none
  | '\\' :: '"' :: rest => (readBody rest).map fun read => ('"' :: read.1, read.2)
  | '"' :: rest => some ([], rest)
  | c :: rest => (readBody rest).map fun read => (c :: read.1, read.2)

def readQuoted : List Char → Option (String × List Char)
  | '"' :: rest => (readBody rest).map fun read => (String.ofList read.1, read.2)
  | _ => none

def endsInBackslash (text : List Char) : Bool := text.getLast? = some '\\'

theorem readBody_length {input text rest : List Char} (h : readBody input = some (text, rest)) :
    rest.length < input.length := by
  induction input using readBody.induct generalizing text with
  | case1 => simp [readBody] at h
  | case2 input ih =>
    rw [readBody] at h
    obtain ⟨read, hread, hpair⟩ := Option.map_eq_some_iff.1 h
    cases hpair
    have hlt := ih hread
    simp only [List.length_cons]
    omega
  | case3 input =>
    rw [readBody] at h
    cases h
    simp
  | case4 c input hescape hquote ih =>
    rw [readBody.eq_4 c input hescape hquote] at h
    obtain ⟨read, hread, hpair⟩ := Option.map_eq_some_iff.1 h
    cases hpair
    have hlt := ih hread
    simp only [List.length_cons]
    omega

theorem readQuoted_length {input rest : List Char} {text : String}
    (h : readQuoted input = some (text, rest)) : rest.length < input.length := by
  unfold readQuoted at h
  split at h
  · next body =>
    obtain ⟨read, hread, hpair⟩ := Option.map_eq_some_iff.1 h
    cases hpair
    have hlt := readBody_length hread
    simp only [List.length_cons]
    omega
  · cases h

theorem readBody_escape {text : List Char} (h : endsInBackslash text = false) (rest : List Char) :
    readBody (escape text ++ '"' :: rest) = some (text, rest) := by
  induction text with
  | nil => simp [escape, readBody]
  | cons c text ih =>
    have htext : endsInBackslash text = false := by
      cases text with
      | nil => rfl
      | cons d text => simpa [endsInBackslash] using h
    by_cases hc : c = '"'
    · simp [escape, hc, readBody, ih htext]
    · -- What follows a backslash is not a double quote, not even the closing one.
      have hescape (more : List Char) (hbackslash : c = '\\')
          (hmore : escape text ++ '"' :: rest = '"' :: more) : False := by
        cases text with
        | nil => simp [endsInBackslash, hbackslash] at h
        | cons d text =>
          by_cases hd : d = '"'
          · simp [escape, hd] at hmore
          · simp [escape, hd] at hmore
      rw [escape, if_neg hc, List.cons_append, readBody.eq_4 _ _ hescape hc, ih htext]
      rfl

theorem eq_of_readBody_nil {input rest : List Char} (h : readBody input = some ([], rest)) :
    input = '"' :: rest := by
  unfold readBody at h
  split at h
  · cases h
  · obtain ⟨read, -, hpair⟩ := Option.map_eq_some_iff.1 h
    cases hpair
  · cases h
    rfl
  · obtain ⟨read, -, hpair⟩ := Option.map_eq_some_iff.1 h
    cases hpair

theorem endsInBackslash_of_readBody {input text rest : List Char}
    (h : readBody input = some (text, rest)) : endsInBackslash text = false := by
  induction input using readBody.induct generalizing text with
  | case1 => simp [readBody] at h
  | case2 input ih =>
    rw [readBody] at h
    obtain ⟨⟨read, left⟩, hread, hpair⟩ := Option.map_eq_some_iff.1 h
    cases hpair
    have hlast := ih hread
    cases read with
    | nil => rfl
    | cons c read => simpa [endsInBackslash] using hlast
  | case3 input =>
    rw [readBody] at h
    cases h
    rfl
  | case4 c input hescape hquote ih =>
    rw [readBody.eq_4 c input hescape hquote] at h
    obtain ⟨⟨read, left⟩, hread, hpair⟩ := Option.map_eq_some_iff.1 h
    cases hpair
    have hlast := ih hread
    cases read with
    | nil =>
      have hinput := eq_of_readBody_nil hread
      have hc : c ≠ '\\' := fun hc => hescape _ hc hinput
      simpa [endsInBackslash] using hc
    | cons d read => simpa [endsInBackslash] using hlast

theorem toList_quote (text : String) :
    (quote text).toList = '"' :: (escape text.toList ++ ['"']) := by
  simp [quote]

theorem readQuoted_quote {text : String} (h : endsInBackslash text.toList = false)
    (rest : List Char) : readQuoted ((quote text).toList ++ rest) = some (text, rest) := by
  rw [toList_quote, List.cons_append, List.append_assoc, List.singleton_append, readQuoted,
    readBody_escape h]
  simp

theorem endsInBackslash_of_readQuoted {input rest : List Char} {text : String}
    (h : readQuoted input = some (text, rest)) : endsInBackslash text.toList = false := by
  unfold readQuoted at h
  split at h
  · obtain ⟨read, hread, hpair⟩ := Option.map_eq_some_iff.1 h
    cases hpair
    rw [String.toList_ofList]
    exact endsInBackslash_of_readBody hread
  · cases h

/-- The quoted texts of which a line consists, each of them after a space. -/
def readArguments : List Char → Option (List String)
  | [] => some []
  | ' ' :: rest =>
    match _hread : readQuoted rest with
    | none => none
    | some (text, left) => (readArguments left).map (text :: ·)
  | _ :: _ => none
termination_by input => input.length
decreasing_by
  have hlt := readQuoted_length _hread
  simp only [List.length_cons]
  omega

theorem readArguments_space {input left : List Char} {text : String}
    (h : readQuoted input = some (text, left)) :
    readArguments (' ' :: input) = (readArguments left).map (text :: ·) := by
  rw [readArguments]
  split
  · next hnone => rw [h] at hnone; cases hnone
  · next hsome => rw [h] at hsome; cases hsome; rfl

theorem endsInBackslash_of_readArguments {input : List Char} {texts : List String}
    (h : readArguments input = some texts) :
    ∀ text ∈ texts, endsInBackslash text.toList = false := by
  induction input using readArguments.induct generalizing texts with
  | case1 =>
    rw [readArguments] at h
    cases h
    exact List.forall_mem_nil _
  | case2 rest hnone =>
    rw [readArguments] at h
    split at h
    · cases h
    · next hsome => rw [hnone] at hsome; cases hsome
  | case3 rest text left hread ih =>
    rw [readArguments_space hread] at h
    obtain ⟨more, hmore, rfl⟩ := Option.map_eq_some_iff.1 h
    exact List.forall_mem_cons.2 ⟨endsInBackslash_of_readQuoted hread, ih hmore⟩
  | case4 c rest hspace =>
    rw [readArguments.eq_3 c rest hspace] at h
    cases h

def written (texts : List String) : List Char := texts.flatMap fun t => ' ' :: (quote t).toList

theorem readArguments_written_iff (texts : List String) :
    readArguments (written texts) = some texts ↔
      ∀ text ∈ texts, endsInBackslash text.toList = false := by
  constructor
  · exact endsInBackslash_of_readArguments
  · intro h
    induction texts with
    | nil => simp [written, readArguments]
    | cons text texts ih =>
      obtain ⟨htext, htexts⟩ := List.forall_mem_cons.1 h
      rw [written, List.flatMap_cons, List.cons_append,
        readArguments_space (readQuoted_quote htext _)]
      change (readArguments (written texts)).map _ = _
      rw [ih htexts]
      rfl

theorem toList_arguments (args : List (Option String)) :
    (arguments args).toList = written (positional args) := by
  rw [arguments, written]
  induction positional args with
  | nil => rfl
  | cons text texts ih => simp [String.join_cons, ih]

theorem toList_elementHeader (token keyword name : String) (args : List (Option String)) :
    (elementHeader token keyword name args).toList =
      (token ++ " = " ++ keyword).toList ++ written (name :: positional args) := by
  have hspace : " ".toList = [' '] := rfl
  simp only [elementHeader, String.toList_append, toList_arguments, written, List.flatMap_cons,
    hspace, List.append_assoc, List.cons_append, List.nil_append]

theorem positional_eq (args : List (Option String)) :
    positional args = (args.rdropWhile Option.isNone).map (·.getD "") := by
  induction args with
  | nil => rfl
  | cons argument rest ih =>
    have hcons : (argument :: rest).rdropWhile Option.isNone =
        if rest.rdropWhile Option.isNone = [] then [argument].rdropWhile Option.isNone
        else argument :: rest.rdropWhile Option.isNone := by
      simp only [List.rdropWhile, List.reverse_cons, List.dropWhile_append, List.reverse_eq_nil_iff,
        List.isEmpty_iff]
      split <;> simp
    rw [hcons]
    unfold positional
    rw [ih]
    cases hrest : rest.rdropWhile Option.isNone with
    | nil => cases argument <;> simp [List.rdropWhile_singleton]
    | cons last more => cases argument <;> simp

theorem drop_length_append (text more : String) :
    (text ++ more).toList.drop text.length = more.toList := by
  rw [String.toList_append, ← String.length_toList, List.drop_left]

/-- Every text and every line of arguments is read as it was written, if and only if nothing
that was written ends in a backslash. No text of the format is read as one that does. -/
theorem arguments_read_iff (text : String) (args : List (Option String)) :
    (∀ rest, readQuoted ((quote text).toList ++ rest) = some (text, rest) ↔
      endsInBackslash text.toList = false) ∧
    (∀ line,
      let texts := (args.rdropWhile Option.isNone).map (·.getD "")
      readArguments ((line ++ arguments args).toList.drop line.length) = some texts ↔
        ∀ text ∈ texts, endsInBackslash text.toList = false) ∧
    (∀ token keyword name,
      let texts := name :: (args.rdropWhile Option.isNone).map (·.getD "")
      readArguments ((elementHeader token keyword name args).toList.drop
          (token ++ " = " ++ keyword).length) = some texts ↔
        ∀ text ∈ texts, endsInBackslash text.toList = false) ∧
    ∀ input rest, readQuoted input = some (text, rest) →
      endsInBackslash text.toList = false := by
  refine ⟨?_, ?_, ?_, ?_⟩
  · intro rest
    constructor
    · exact endsInBackslash_of_readQuoted
    · intro h
      exact readQuoted_quote h rest
  · intro line texts
    rw [drop_length_append, toList_arguments, positional_eq]
    exact readArguments_written_iff texts
  · intro token keyword name texts
    rw [toList_elementHeader, positional_eq, ← String.length_toList, List.drop_left]
    exact readArguments_written_iff texts
  · intro input rest h
    exact endsInBackslash_of_readQuoted h

/-- A text that ends in a double quote is written with a backslash, but does not end in one. -/
theorem arguments_read_iff_of_quotation :
    readArguments ((elementHeader "u" "person" "say \"hi\"" [none, some "C:\\temp"]).toList.drop
      ("u" ++ " = " ++ "person").length) = some ["say \"hi\"", "", "C:\\temp"] ∧
    readQuoted "\"a\\\" b\" c".toList = some ("a\" b", [' ', 'c']) ∧
    endsInBackslash "a\" b".toList = false := by
  have hquotation : readQuoted "\"a\\\" b\" c".toList = some ("a\" b", [' ', 'c']) := by decide
  obtain ⟨-, -, hheader, hread⟩ := arguments_read_iff "a\" b" [none, some "C:\\temp"]
  exact ⟨(hheader "u" "person" "say \"hi\"").2 (by decide), hquotation, hread _ _ hquotation⟩

/-- The backslash and the closing quote are taken for a double quote, so the text goes on into
what follows. -/
theorem backslash_swallows_quote :
    (¬∀ text, readQuoted (quote text).toList = some (text, [])) ∧
    readQuoted (quote "C:\\").toList = none ∧
    readQuoted (arguments [some "C:\\", some "x"]).toList.tail =
      some ("C:\" ", ['x', '"']) ∧
    readArguments (arguments [some "C:\\", some "x"]).toList = none := by
  have hnone : readQuoted (quote "C:\\").toList = none := by decide
  have hswallowed : readQuoted (arguments [some "C:\\", some "x"]).toList.tail =
      some ("C:\" ", ['x', '"']) := by decide
  have hspace : (arguments [some "C:\\", some "x"]).toList =
      ' ' :: (arguments [some "C:\\", some "x"]).toList.tail := by decide
  refine ⟨?_, hnone, hswallowed, ?_⟩
  · intro h
    rw [h "C:\\"] at hnone
    cases hnone
  · rw [hspace, readArguments_space hswallowed, readArguments]
    · rfl
    · simp

end C4.Dsl
