import C4.CommandLine.Folder
import C4.Proofs.Theming

/-!
# Runs in a folder

A run touches no file but the one that the options name for the output. It succeeds exactly when
there is a text and a place for it, and then the text is where it was asked for.
A run that fails leaves no part of a text behind.
-/
namespace C4.CommandLine

variable {f : Folder} {path : String}

theorem lookup_filter_ne (files : List (String × ByteArray)) {other : String} (h : other ≠ path) :
    (files.filter fun e => e.1 ≠ path).lookup other = files.lookup other := by
  induction files with
  | nil => rfl
  | cons e files ih =>
    by_cases he : e.1 = path
    · have hne : (other == e.1) = false := by simpa [he] using h
      rw [List.filter_cons_of_neg (by simp [he]), ih, List.lookup_cons, hne]
    · rw [List.filter_cons_of_pos (by simp [he]), List.lookup_cons, List.lookup_cons, ih]

theorem lookup_of_mem {files : List (String × ByteArray)} {e : String × ByteArray}
    (h : (files.map (·.1)).Nodup) (he : e ∈ files) : files.lookup e.1 = some e.2 := by
  induction files with
  | nil => cases he
  | cons first files ih =>
    rw [List.map_cons, List.nodup_cons] at h
    rcases List.mem_cons.1 he with rfl | he
    · rw [List.lookup_cons, beq_self_eq_true]
    · have hne : (e.1 == first.1) = false := by
        have hmem : e.1 ∈ files.map (·.1) := List.mem_map_of_mem he
        simpa using fun heq : e.1 = first.1 => h.1 (heq ▸ hmem)
      rw [List.lookup_cons, hne]
      exact ih h.2 he

namespace Folder

theorem find?_put {l : Location} (hl : path? l = some path) (content : ByteArray) :
    (f.put l content).find? path = some content := by
  have hnone : (f.files.filter fun e => e.1 ≠ path).lookup path = none := by
    rw [List.lookup_eq_none_iff]
    intro e he
    have hne : e.1 ≠ path := by simpa using (List.mem_filter.1 he).2
    simpa using hne.symm
  simp only [put, hl, find?, List.lookup_append, hnone, Option.none_or, List.lookup_cons,
    beq_self_eq_true]

theorem find?_put_of_ne {l : Location} (hl : path? l ≠ some path) (content : ByteArray) :
    (f.put l content).find? path = f.find? path := by
  unfold put
  cases hpath : path? l with
  | none => rfl
  | some other =>
    have hne : path ≠ other := fun h => hl (by rw [hpath, h])
    have hlast : (path == other) = false := by simpa using hne
    simp only [find?, List.lookup_append, lookup_filter_ne _ hne, List.lookup_cons, hlast,
      List.lookup_nil, Option.or_none]

theorem nodup_put (h : (f.files.map (·.1)).Nodup) (l : Location) (content : ByteArray) :
    ((f.put l content).files.map (·.1)).Nodup := by
  unfold put
  cases path? l with
  | none => exact h
  | some path =>
    have hkept : ((f.files.filter fun e => e.1 ≠ path).map (·.1)).Nodup :=
      h.sublist (List.filter_sublist.map _)
    have hfresh : path ∉ (f.files.filter fun e => e.1 ≠ path).map (·.1) := by simp
    rw [List.map_append]
    apply hkept.append (List.nodup_singleton path)
    rwa [List.disjoint_singleton]

/-- The text for a file of this name comes to lie at the path. -/
def Receives (f : Folder) (name path : String) : Prop :=
  ∃ l, f.target name = .ok (l, none) ∧ path? l = some path

def Accepts (f : Folder) (name : String) : Prop :=
  ∃ l d, f.target name = .ok (l, d) ∧ d ≠ some .full

end Folder

/-- Whatever it finds, the program writes at most once, and under no other name. -/
inductive Program.WritesTo : Option String → Program → Prop
  | done {name? : Option String} (v : Verdict) : WritesTo name? (.done v)
  | read {name? : Option String} (path : String) {next : Except String ByteArray → Program}
      (h : ∀ found, WritesTo name? (next found)) : WritesTo name? (.read path next)
  | write (name content : String) {next : Except WriteFailure Unit → Program}
      (h : ∀ written, WritesTo none (next written)) : WritesTo (some name) (.write name content next)

theorem Program.WritesTo.find?_runIn {p : Program} {name? : Option String} (h : WritesTo name? p) :
    ∀ f : Folder, (∀ name, name? = some name → ¬f.Receives name path) →
      (p.runIn f).2.find? path = f.find? path := by
  induction h with
  | done v => exact fun _ _ => rfl
  | read source h ih => exact fun f hother => ih _ f hother
  | write name content h ih =>
    intro f hother
    have hrest (written : Except WriteFailure Unit) (g : Folder) :=
      ih written g fun _ hname => nomatch hname
    unfold Program.runIn
    split
    · exact hrest _ f
    · exact hrest _ f
    · exact hrest _ f
    · next l htarget =>
      rw [hrest]
      exact Folder.find?_put_of_ne (fun hl => hother name rfl ⟨l, htarget, hl⟩) _

theorem Program.nodup_runIn (p : Program) :
    ∀ f : Folder, (f.files.map (·.1)).Nodup → ((p.runIn f).2.files.map (·.1)).Nodup := by
  induction p with
  | done v => exact fun f hf => hf
  | read path next ih => exact fun f hf => ih _ f hf
  | write path content next ih =>
    intro f hf
    unfold Program.runIn
    split
    · exact ih _ f hf
    · exact ih _ f hf
    · exact ih _ f hf
    · exact ih _ _ (Folder.nodup_put hf _ _)

def requested? (arguments : List String) : Option Options :=
  match request arguments with
  | .ok (some o) => if o.list then none else some o
  | _ => none

section Context

variable (c : Context)

theorem Context.writesTo_deliver (w : Workspace) :
    (c.deliver w).WritesTo c.options.output := by
  unfold Context.deliver
  cases houtput : c.options.output with
  | none =>
    simp only [Context.log, houtput]
    split <;> exact .done _
  | some name =>
    simp only [Context.log, houtput]
    refine .write name _ fun written => ?_
    split <;> exact .done _

theorem Context.writesTo_withTheme (w : Workspace) :
    (c.withTheme w).WritesTo c.options.output := by
  unfold Context.withTheme
  split
  · exact c.writesTo_deliver w
  · refine .read _ fun found => ?_
    split
    · exact .done _
    · split
      · exact .done _
      · exact .done _
      · exact (c.apply _ w).1.writesTo_deliver _

theorem Context.writesTo_render : c.render.WritesTo c.options.output := by
  unfold Context.render
  split
  · exact .done _
  · exact .done _
  · next w _ =>
    split
    · exact (c.apply .standard w).1.writesTo_withTheme _
    · exact c.writesTo_withTheme w

theorem Context.start_options (o : Options) : (Context.start o).options = o := by
  unfold Context.start
  split <;> rfl

end Context

theorem writesTo_program (arguments : List String) :
    (program arguments).WritesTo ((requested? arguments).bind (·.output)) := by
  unfold program requested?
  cases request arguments with
  | error m => exact .done _
  | ok o? =>
    cases o? with
    | none => exact .done _
    | some o =>
      have hrender := (Context.start o).writesTo_render
      rw [Context.start_options] at hrender
      cases hlist : o.list with
      | true =>
        simp only [hlist, if_true]
        exact .done _
      | false => simpa [hlist] using hrender

/-- The files that are not named for the output are found as they were. -/
theorem find?_runIn_program (arguments : List String) (f : Folder)
    (h : ∀ o name, requested? arguments = some o → o.output = some name → ¬f.Receives name path) :
    ((program arguments).runIn f).2.find? path = f.find? path := by
  apply (writesTo_program arguments).find?_runIn
  intro name hname
  obtain ⟨o, ho, houtput⟩ := Option.bind_eq_some_iff.1 hname
  exact h o name ho houtput

theorem changes_runIn_program (arguments : List String) (hf : (f.files.map (·.1)).Nodup)
    {e : String × ByteArray} (he : e ∈ ((program arguments).runIn f).2.changes f) :
    ∃ o name, requested? arguments = some o ∧ o.output = some name ∧ f.Receives name e.1 := by
  obtain ⟨hmem, hnew⟩ := List.mem_filter.1 he
  by_contra hnone
  have hkept : ((program arguments).runIn f).2.find? e.1 = f.find? e.1 :=
    find?_runIn_program arguments f fun o name ho hname hreceives =>
      hnone ⟨o, name, ho, hname, hreceives⟩
  have hfound : ((program arguments).runIn f).2.find? e.1 = some e.2 :=
    lookup_of_mem (Program.nodup_runIn _ f hf) hmem
  rw [hfound] at hkept
  simp [← hkept] at hnew

def Options.themed? (o : Options) (w : Workspace) (f : Folder) : Option Workspace :=
  match o.theme with
  | none => some w
  | some path =>
    ((f.read path).toOption.bind fun bytes => (Theme.ofBytes bytes).toOption).map w.themed

/-- The workspace that is asked for, with the styles of the themes behind its own. -/
def Options.workspace? (o : Options) (f : Folder) : Option Workspace := do
  let w ← (Sample.byName? o.sample).bind Except.toOption
  o.themed? (if o.defaultTheme then w.themed .standard else w) f

def Options.textOf? (o : Options) (w : Workspace) : Option String :=
  (w.render ⟨o.indent, o.spacing⟩).result.toOption

def Options.text? (o : Options) (f : Folder) : Option String := (o.workspace? f).bind o.textOf?

/-- How a run ends, given the text there is for it. -/
structure Ends (o : Options) (f : Folder) (text? : Option String) (run : Verdict × Folder) :
    Prop where
  code : run.1.code = 0 ↔
    (∃ text, text? = some text) ∧ ∀ name, o.output = some name → f.Accepts name
  streamed : ∀ text, text? = some text → o.output = none → run.1.output = text ∧ run.2 = f
  filed : ∀ text name path, text? = some text → o.output = some name → f.Receives name path →
    run.1.output = "" ∧ run.2.find? path = some text.toUTF8
  failed : run.1.code ≠ 0 → run.1.output = "" ∧
    ∀ path, run.2.find? path = f.find? path ∨ run.2.find? path = some "".toUTF8

section Ends

variable {o : Options} {text? : Option String} {run : Verdict × Folder}

theorem ends_without_text (htext : text? = none) (hcode : run.1.code = 1)
    (houtput : run.1.output = "")
    (hfiles : ∀ path, run.2.find? path = f.find? path ∨ run.2.find? path = some "".toUTF8) :
    Ends o f text? run := by
  subst htext
  refine ⟨?code, ?streamed, ?filed, fun _ => ⟨houtput, hfiles⟩⟩
  case code =>
    rw [hcode]
    exact iff_of_false (by decide) fun ⟨⟨_, h⟩, _⟩ => nomatch h
  case streamed => exact fun _ h => nomatch h
  case filed => exact fun _ _ _ h => nomatch h

theorem ends_without_place {name : String} (hname : o.output = some name)
    (hplace : ¬f.Accepts name) (hcode : run.1.code = 1) (houtput : run.1.output = "")
    (hfiles : run.2 = f) : Ends o f text? run := by
  refine ⟨?code, ?streamed, ?filed, fun _ => ⟨houtput, fun _ => .inl (by rw [hfiles])⟩⟩
  case code =>
    rw [hcode]
    exact iff_of_false (by decide) fun ⟨_, h⟩ => hplace (h name hname)
  case streamed =>
    intro text _ hnone
    rw [hname] at hnone
    cases hnone
  case filed =>
    rintro text name' path _ hname' ⟨l, htarget, -⟩
    obtain rfl : name = name' := Option.some.inj (hname.symm.trans hname')
    exact absurd ⟨l, none, htarget, by decide⟩ hplace

theorem ends_with_place {name text : String} (hname : o.output = some name) (hplace : f.Accepts name)
    (hcode : run.1.code = 0)
    (hfiled : ∀ path, f.Receives name path →
      run.1.output = "" ∧ run.2.find? path = some text.toUTF8) :
    Ends o f (some text) run := by
  refine ⟨?code, ?streamed, ?filed, fun h => absurd hcode h⟩
  case code =>
    refine iff_of_true hcode ⟨⟨text, rfl⟩, fun name' hname' => ?_⟩
    rw [hname] at hname'
    cases hname'
    exact hplace
  case streamed =>
    intro _ _ hnone
    rw [hname] at hnone
    cases hnone
  case filed =>
    rintro _ name' path ⟨⟩ hname' hreceives
    rw [hname] at hname'
    cases hname'
    exact hfiled path hreceives

end Ends

theorem Device.code_show (d : Device) (content : String) (v : Verdict) :
    (d.show content v).code = v.code := by
  cases d <;> rfl

theorem Device.output_show_empty (d : Device) (v : Verdict) : (d.show "" v).output = v.output := by
  cases d with
  | output => exact String.empty_append
  | _ => rfl

theorem Context.ends_deliver_streamed {c : Context} (houtput : c.options.output = none)
    (w : Workspace) (f : Folder) :
    Ends c.options f (c.options.textOf? w) ((c.deliver w).runIn f) := by
  unfold Context.deliver Options.textOf?
  simp only [Context.log, houtput]
  cases hresult : (w.render ⟨c.options.indent, c.options.spacing⟩).result with
  | error e => exact ends_without_text rfl rfl rfl fun _ => .inl rfl
  | ok text =>
    refine ⟨?code, ?streamed, ?filed, fun h => absurd rfl h⟩
    case code =>
      refine iff_of_true rfl ⟨⟨text, rfl⟩, fun name hname => ?_⟩
      rw [houtput] at hname
      cases hname
    case streamed =>
      rintro _ ⟨⟩ -
      exact ⟨rfl, rfl⟩
    case filed =>
      intro _ name _ _ hname
      rw [houtput] at hname
      cases hname

theorem Context.ends_deliver_filed {c : Context} {name : String}
    (houtput : c.options.output = some name) (w : Workspace) (f : Folder) :
    Ends c.options f (c.options.textOf? w) ((c.deliver w).runIn f) := by
  unfold Context.deliver Options.textOf?
  simp only [Context.log, houtput]
  unfold Program.runIn
  split
  · next reason htarget =>
    have hplace : ¬f.Accepts name := by
      rintro ⟨l, d, h, -⟩
      rw [htarget] at h
      cases h
    exact ends_without_place houtput hplace rfl rfl rfl
  · next l htarget =>
    have hplace : ¬f.Accepts name := by
      rintro ⟨l', d, h, hfull⟩
      rw [htarget] at h
      cases h
      exact hfull rfl
    cases hresult : (w.render ⟨c.options.indent, c.options.spacing⟩).result with
    | error e => exact ends_without_place houtput hplace rfl rfl rfl
    | ok text => exact ends_without_place houtput hplace rfl rfl rfl
  · next l d hfull htarget =>
    cases hresult : (w.render ⟨c.options.indent, c.options.spacing⟩).result with
    | error e =>
      exact ends_without_text rfl (d.code_show _ _) (d.output_show_empty _) fun _ => .inl rfl
    | ok text =>
      refine ends_with_place houtput ⟨l, d, htarget, fun h => hfull (Option.some.inj h)⟩
        (d.code_show _ _) fun path hreceives => ?_
      obtain ⟨l', h, -⟩ := hreceives
      rw [htarget] at h
      cases h
  · next l htarget =>
    cases hresult : (w.render ⟨c.options.indent, c.options.spacing⟩).result with
    | error e =>
      refine ends_without_text rfl rfl rfl fun path => ?_
      by_cases hl : Folder.path? l = some path
      · exact .inr (Folder.find?_put hl _)
      · exact .inl (Folder.find?_put_of_ne hl _)
    | ok text =>
      refine ends_with_place houtput ⟨l, none, htarget, by decide⟩ rfl fun path hreceives => ?_
      obtain ⟨l', h, hl⟩ := hreceives
      rw [htarget] at h
      cases h
      exact ⟨rfl, Folder.find?_put hl _⟩

theorem Context.ends_deliver (c : Context) (w : Workspace) (f : Folder) :
    Ends c.options f (c.options.textOf? w) ((c.deliver w).runIn f) := by
  cases houtput : c.options.output with
  | none => exact Context.ends_deliver_streamed houtput w f
  | some name => exact Context.ends_deliver_filed houtput w f

theorem Context.ends_withTheme (c : Context) (w : Workspace) (f : Folder) :
    Ends c.options f ((c.options.themed? w f).bind c.options.textOf?) ((c.withTheme w).runIn f) := by
  unfold Context.withTheme Options.themed?
  cases htheme : c.options.theme with
  | none =>
    simp only [Option.bind_some]
    exact c.ends_deliver w f
  | some path =>
    simp only [Program.runIn]
    cases hread : f.read path with
    | error reason => exact ends_without_text rfl rfl rfl fun _ => .inl rfl
    | ok bytes =>
      cases hbytes : Theme.ofBytes bytes with
      | error trouble =>
        simp only [Except.toOption, Option.bind_some, hbytes, Option.bind_none, Option.map_none]
        cases trouble <;> exact ends_without_text rfl rfl rfl fun _ => .inl rfl
      | ok t =>
        simp only [Except.toOption, Option.bind_some, hbytes, Option.map_some]
        exact (c.log [t.record]).ends_deliver (w.themed t) f

theorem Context.ends_render (c : Context) (f : Folder) :
    Ends c.options f (c.options.text? f) (c.render.runIn f) := by
  unfold Context.render Options.text? Options.workspace?
  cases hsample : Sample.byName? c.options.sample with
  | none => exact ends_without_text rfl rfl rfl fun _ => .inl rfl
  | some sample =>
    cases sample with
    | error e => exact ends_without_text rfl rfl rfl fun _ => .inl rfl
    | ok w =>
      cases hdefault : c.options.defaultTheme with
      | true => exact (c.log [Theme.standard.record]).ends_withTheme (w.themed .standard) f
      | false => exact c.ends_withTheme w f

theorem ends_program {arguments : List String} {o : Options} (h : requested? arguments = some o)
    (f : Folder) : Ends o f (o.text? f) ((program arguments).runIn f) := by
  unfold requested? at h
  unfold program
  cases hrequest : request arguments with
  | error m =>
    rw [hrequest] at h
    cases h
  | ok o? =>
    cases o? with
    | none =>
      rw [hrequest] at h
      cases h
    | some o' =>
      cases hlist : o'.list with
      | true => simp [hrequest, hlist] at h
      | false =>
        obtain rfl : o' = o := by simpa [hrequest, hlist] using h
        have hends := (Context.start o').ends_render f
        rw [Context.start_options] at hends
        simpa [hlist] using hends

end C4.CommandLine
