import C4.Proofs.Records
import C4.Proofs.StyleLines
import C4.Theme.Document
import C4.Theme.Table

/-!
# Styles that are read

A style is read from a table that has a value for the tag and for each attribute that is set. The
names of the attributes there are not quite the keywords of their lines, but each keyword goes with
one name.
-/
namespace C4

open Theme Toml

/-- A style states its tag and the attributes that are set. -/
inductive Statement (Attribute : Type)
  | tag (text : String)
  | setting (a : Attribute)
deriving DecidableEq

structure Lexicon {Style Attribute : Type} (sheet : Sheet Style Attribute) where
  attributes : Style → List Attribute
  retag : Style → String → Style
  key : Attribute → String
  Says : Value → Attribute → Prop
  /-- The name that goes with a keyword. -/
  fieldName : String → String
  map_slot : ∀ s, (attributes s).map sheet.slot = (sheet.slots s).filter (·.value.isSome)
  slot_injective : Function.Injective sheet.slot
  tag_retag : ∀ s text, sheet.tag (retag s text) = text
  slots_retag : ∀ s text, sheet.slots (retag s text) = sheet.slots s
  key_eq : ∀ a, key a = fieldName (sheet.slot a).keyword
  names_nodup : ("tag" :: sheet.keywords.map fieldName).Nodup

theorem refill_refill (slots : List Slot) (slot : Slot) :
    refill (refill slots slot) slot = refill slots slot := by
  unfold refill
  rw [List.map_map]
  refine List.map_congr_left fun old _ => ?_
  by_cases hold : old.keyword = slot.keyword
  · simp [hold]
  · simp [hold]

theorem mem_refill {slots : List Slot} {slot other : Slot} (h : other ∈ refill slots slot) :
    other ∈ slots ∨ other = slot := by
  obtain ⟨old, hold, hother⟩ := List.mem_map.1 h
  split at hother
  · exact .inr hother.symm
  · exact .inl (hother ▸ hold)

theorem slots_eq_of_filled {slots others : List Slot}
    (hkeywords : slots.map Slot.keyword = others.map Slot.keyword)
    (hdistinct : (slots.map Slot.keyword).Nodup)
    (h : ∀ slot ∈ slots, slot.value.isSome → slot ∈ others)
    (h' : ∀ slot ∈ others, slot.value.isSome → slot ∈ slots) : slots = others := by
  refine List.ext_getElem (by simpa using congrArg List.length hkeywords) fun i hi hi' => ?_
  have hsame : slots[i].keyword = others[i].keyword := by
    have hget := congrArg (·[i]?) hkeywords
    simpa [hi, hi'] using hget
  by_cases hvalue : slots[i].value.isSome
  · exact List.inj_on_of_nodup_map (hkeywords ▸ hdistinct) (h _ (List.getElem_mem hi) hvalue)
      (List.getElem_mem hi') hsame
  · by_cases hvalue' : others[i].value.isSome
    · exact List.inj_on_of_nodup_map hdistinct (List.getElem_mem hi)
        (h' _ (List.getElem_mem hi') hvalue') hsame
    · have hnone : slots[i].value = others[i].value := by simp_all
      cases hslot : slots[i]
      cases hother : others[i]
      simp_all

namespace Lexicon

variable {Style Attribute : Type} {sheet : Sheet Style Attribute} (x : Lexicon sheet)
  {s s' : Style} {a b : Attribute}

theorem mem_attributes_iff :
    a ∈ x.attributes s ↔ (sheet.slot a).value.isSome ∧ sheet.slot a ∈ sheet.slots s := by
  rw [← List.mem_map_of_injective x.slot_injective, x.map_slot, List.mem_filter, and_comm]

theorem set_of_mem_attributes (h : a ∈ x.attributes s) : sheet.set s a = s :=
  sheet.set_eq_self_iff.2 (x.mem_attributes_iff.1 h).2

theorem of_mem_attributes_set (h : b ∈ x.attributes (sheet.set s a)) :
    b ∈ x.attributes s ∨ b = a := by
  obtain ⟨hvalue, hslot⟩ := x.mem_attributes_iff.1 h
  rw [sheet.slots_set] at hslot
  rcases mem_refill hslot with hslot | hslot
  · exact .inl (x.mem_attributes_iff.2 ⟨hvalue, hslot⟩)
  · exact .inr (x.slot_injective hslot)

theorem mem_attributes_retag {text : String} :
    a ∈ x.attributes (x.retag s text) ↔ a ∈ x.attributes s := by
  rw [x.mem_attributes_iff, x.mem_attributes_iff, x.slots_retag]

theorem slots_eq (h : ∀ a ∈ x.attributes s, sheet.set s' a = s')
    (h' : ∀ a ∈ x.attributes s', sheet.set s a = s) : sheet.slots s = sheet.slots s' := by
  have filled {s s' : Style} (h : ∀ a ∈ x.attributes s, sheet.set s' a = s') :
      ∀ slot ∈ sheet.slots s, slot.value.isSome → slot ∈ sheet.slots s' := by
    intro slot hslot hvalue
    have hmem : slot ∈ (x.attributes s).map sheet.slot := by
      rw [x.map_slot]
      exact List.mem_filter.2 ⟨hslot, hvalue⟩
    obtain ⟨a, ha, rfl⟩ := List.mem_map.1 hmem
    exact sheet.set_eq_self_iff.1 (h a ha)
  refine slots_eq_of_filled ?_ ?_ (filled h) (filled h')
  · rw [sheet.keywords_slots, sheet.keywords_slots]
  · rw [sheet.keywords_slots]
    exact sheet.distinct

def name : Statement Attribute → String
  | .tag _ => "tag"
  | .setting a => x.key a

def StatedBy (v : Value) : Statement Attribute → Prop
  | .tag text => SaysText v text
  | .setting a => x.Says v a

def put (s : Style) : Statement Attribute → Style
  | .tag text => x.retag s text
  | .setting a => sheet.set s a

def said (s : Style) : List (Statement Attribute) :=
  (if sheet.tag s = "" then [] else [.tag (sheet.tag s)]) ++ (x.attributes s).map .setting

theorem put_eq_self_iff_tag {text : String} : x.put s (.tag text) = s ↔ sheet.tag s = text := by
  constructor
  · intro h
    rw [← h]
    exact x.tag_retag s text
  · rintro rfl
    exact sheet.eq_of_slots _ _ (x.tag_retag s _) (x.slots_retag s _)

theorem mem_said_iff {c : Statement Attribute} : c ∈ x.said s ↔
    (sheet.tag s ≠ "" ∧ c = .tag (sheet.tag s)) ∨ ∃ a ∈ x.attributes s, c = .setting a := by
  unfold said
  by_cases htag : sheet.tag s = ""
  · simp [htag, eq_comm]
  · simp [htag, eq_comm]

theorem put_put (s : Style) (c : Statement Attribute) : x.put (x.put s c) c = x.put s c := by
  cases c with
  | tag text => exact x.put_eq_self_iff_tag.2 (x.tag_retag s text)
  | setting a =>
    refine sheet.eq_of_slots _ _ (sheet.tag_set _ a) ?_
    rw [put, put, sheet.slots_set, sheet.slots_set, refill_refill]

theorem retag_set (s : Style) (text : String) (a : Attribute) :
    x.retag (sheet.set s a) text = sheet.set (x.retag s text) a := by
  refine sheet.eq_of_slots _ _ ?_ ?_
  · rw [x.tag_retag, sheet.tag_set, x.tag_retag]
  · rw [x.slots_retag, sheet.slots_set, sheet.slots_set, x.slots_retag]

theorem put_comm (s : Style) (c d : Statement Attribute) (h : x.name c ≠ x.name d) :
    x.put (x.put s c) d = x.put (x.put s d) c := by
  cases c with
  | tag text =>
    cases d with
    | tag other => exact absurd rfl h
    | setting a => exact (x.retag_set s text a).symm
  | setting a =>
    cases d with
    | tag text => exact x.retag_set s text a
    | setting b =>
      refine sheet.set_comm fun hkeyword => h ?_
      simp only [name, x.key_eq, hkeyword]

theorem of_mem_said_put (s : Style) (c : Statement Attribute) :
    ∀ d ∈ x.said (x.put s c), d ∈ x.said s ∨ d = c := by
  intro d hd
  rw [x.mem_said_iff] at hd ⊢
  cases c with
  | tag text =>
    rcases hd with ⟨-, rfl⟩ | ⟨b, hb, rfl⟩
    · exact .inr (congrArg _ (x.tag_retag s text))
    · exact .inl (.inr ⟨b, x.mem_attributes_retag.1 hb, rfl⟩)
  | setting a =>
    rcases hd with ⟨htag, rfl⟩ | ⟨b, hb, rfl⟩
    · rw [put, sheet.tag_set] at htag ⊢
      exact .inl (.inl ⟨htag, rfl⟩)
    · rcases x.of_mem_attributes_set hb with hb | rfl
      · exact .inl (.inr ⟨b, hb, rfl⟩)
      · exact .inr rfl

theorem ext_said (s s' : Style) (h : ∀ c ∈ x.said s, x.put s' c = s')
    (h' : ∀ c ∈ x.said s', x.put s c = s) : s = s' := by
  have tagged {s s' : Style} (h : ∀ c ∈ x.said s, x.put s' c = s') (htag : sheet.tag s ≠ "") :
      sheet.tag s' = sheet.tag s :=
    x.put_eq_self_iff_tag.1 (h _ (x.mem_said_iff.2 (.inl ⟨htag, rfl⟩)))
  have shown {s s' : Style} (h : ∀ c ∈ x.said s, x.put s' c = s') :
      ∀ a ∈ x.attributes s, sheet.set s' a = s' :=
    fun a ha => h _ (x.mem_said_iff.2 (.inr ⟨a, ha, rfl⟩))
  refine sheet.eq_of_slots s s' ?_ (x.slots_eq (shown h) (shown h'))
  by_cases htag : sheet.tag s = ""
  · by_cases htag' : sheet.tag s' = ""
    · rw [htag, htag']
    · exact tagged h' htag'
  · exact (tagged h htag).symm

section Entries

variable {entry : Attribute → Key × Value}

def entriesOf (entry : Attribute → Key × Value) (s : Style) : List (Key × Value) :=
  textEntry "tag" (sheet.tag s) :: (x.attributes s).map entry

theorem nodup_entriesOf (hkey : ∀ a, (entry a).1.text = x.key a) (s : Style) :
    ((x.entriesOf entry s).map (·.1.text)).Nodup := by
  have hnames : (x.attributes s).map (fun a => (entry a).1.text) =
      ((sheet.slots s).filter (·.value.isSome)).map fun slot => x.fieldName slot.keyword := by
    rw [← x.map_slot, List.map_map]
    exact List.map_congr_left fun a _ => (hkey a).trans (x.key_eq a)
  have hsublist : ((sheet.slots s).filter (·.value.isSome)).map
      (fun slot => x.fieldName slot.keyword) |>.Sublist (sheet.keywords.map x.fieldName) := by
    rw [← sheet.keywords_slots s, List.map_map]
    exact List.filter_sublist.map _
  rw [entriesOf, List.map_cons, List.map_map]
  refine x.names_nodup.sublist (.cons_cons "tag" ?_)
  exact hnames ▸ hsublist

theorem distinct_entriesOf (hdistinct : ∀ a, (entry a).2.Distinct) (s : Style) :
    ∀ e ∈ x.entriesOf entry s, e.2.Distinct := by
  refine List.forall_mem_cons.2 ⟨.string .., fun e he => ?_⟩
  obtain ⟨a, -, rfl⟩ := List.mem_map.1 he
  exact hdistinct a

theorem written_entriesOf (hkey : ∀ a, (entry a).1.text = x.key a)
    (hstates : ∀ a, x.Says (entry a).2 a) (s : Style) :
    ∀ p ∈ pairsOf (x.entriesOf entry s),
      ∃ c, x.name c = p.1 ∧ x.StatedBy p.2 c ∧ x.put s c = s := by
  intro p hp
  obtain ⟨e, he, rfl⟩ := List.mem_map.1 hp
  rcases List.mem_cons.1 he with rfl | he
  · exact ⟨.tag (sheet.tag s), rfl, ⟨_, rfl⟩, x.put_eq_self_iff_tag.2 rfl⟩
  · obtain ⟨a, ha, rfl⟩ := List.mem_map.1 he
    exact ⟨.setting a, (hkey a).symm, hstates a, x.set_of_mem_attributes ha⟩

theorem unset_entriesOf (hkey : ∀ a, (entry a).1.text = x.key a)
    (hstates : ∀ a, x.Says (entry a).2 a) (s : Style) :
    ∀ c ∈ x.said s, ∃ p ∈ pairsOf (x.entriesOf entry s), p.1 = x.name c ∧ x.StatedBy p.2 c := by
  intro c hc
  rcases x.mem_said_iff.1 hc with ⟨-, rfl⟩ | ⟨a, ha, rfl⟩
  · exact ⟨_, List.mem_cons_self, rfl, _, rfl⟩
  · exact ⟨_, List.mem_map_of_mem (List.mem_cons_of_mem _ (List.mem_map_of_mem ha)), hkey a,
      hstates a⟩

end Entries

def wording {schema : Schema Style} (hblank : x.said schema.blank = [])
    (hnames : schema.names.Nodup) (hmoment : momentKey ∉ schema.names)
    (hsound : ∀ y ∈ schema.fields, ∀ span v, v.Distinct → ∀ s s', y.store span v s = .ok s' →
      ∃ c, x.name c = y.name ∧ x.StatedBy v c ∧ x.put s c = s')
    (hcomplete : ∀ c, ∃ y, schema.fields.find? (fun y => y.name = x.name c) = some y ∧
      ∀ span v, v.Distinct → x.StatedBy v c → ∀ s, y.store span v s = .ok (x.put s c)) :
    Wording schema (Statement Attribute) where
  name := x.name
  Says := x.StatedBy
  put := x.put
  said := x.said
  names_nodup := hnames
  moment_not_mem := hmoment
  sound := hsound
  complete := hcomplete
  put_self := x.put_put
  put_comm := x.put_comm
  said_blank := hblank
  of_mem_said_put := x.of_mem_said_put
  ext := x.ext_said

end Lexicon

namespace Theme

theorem complete_shapes : shapes.Complete :=
  ⟨fun s => by cases s <;> decide, Shape.name_injective⟩

theorem complete_borderStyles : borderStyles.Complete :=
  ⟨fun s => by cases s <;> decide, BorderStyle.name_injective⟩

theorem complete_lineStyles : lineStyles.Complete :=
  ⟨fun s => by cases s <;> decide, LineStyle.name_injective⟩

theorem complete_routings : routings.Complete :=
  ⟨fun r => by cases r <;> decide, Routing.name_injective⟩

theorem complete_terminators : terminators.Complete :=
  ⟨fun t => by cases t <;> decide, Terminator.name_injective⟩

end Theme

theorem map_slot_toList {α Attribute : Type} {slot : Attribute → Slot} {make : α → Attribute}
    {keyword : String} {value : α → String} (o : Option α)
    (h : ∀ v, slot (make v) = ⟨keyword, some (value v)⟩) (slots : List Slot) :
    (Slot.mk keyword (o.map value) :: slots).filter (·.value.isSome) =
      (o.map make).toList.map slot ++ slots.filter (·.value.isSome) := by
  cases o with
  | none => rfl
  | some v => simp [h]

def fieldName : String → String
  | "fontSize" => "font_size"
  | "fontColor" => "font_color"
  | "fontFamily" => "font_family"
  | "fontStyle" => "font_style"
  | "borderStyle" => "border_style"
  | "strokeWidth" => "stroke_width"
  | "zIndex" => "z_index"
  | "style" => "line_style"
  | "sourceTerminator" => "start_terminator"
  | "destinationTerminator" => "end_terminator"
  | keyword => keyword

namespace ElementStyle

def Attribute.key : Attribute → String
  | .shape _ => "shape"
  | .icon _ => "icon"
  | .width _ => "width"
  | .height _ => "height"
  | .background _ => "background"
  | .color _ => "color"
  | .stroke _ => "stroke"
  | .opacity _ => "opacity"
  | .fontSize _ => "font_size"
  | .metadata _ => "metadata"
  | .description _ => "description"
  | .border _ => "border"
  | .borderStyle _ => "border_style"
  | .strokeWidth _ => "stroke_width"
  | .fontFamily _ => "font_family"
  | .fontStyle _ => "font_style"
  | .shadow _ => "shadow"
  | .zIndex _ => "z_index"
  | .rotation _ => "rotation"
  | .position _ _ => "position"
  | .icons _ => "icons"

/-- The values that say what an attribute is. -/
def Attribute.SaidBy (v : Value) : Attribute → Prop
  | .shape a => SaysChoice Theme.shapes v a
  | .icon a => SaysText v a
  | .width a => SaysWord v a
  | .height a => SaysWord v a
  | .background a => SaysText v a
  | .color a => SaysText v a
  | .stroke a => SaysText v a
  | .opacity a => SaysByte v a
  | .fontSize a => SaysWord v a
  | .metadata a => SaysTruth v a
  | .description a => SaysTruth v a
  | .border a => SaysWord v a
  | .borderStyle a => SaysChoice borderStyles v a
  | .strokeWidth a => SaysWord v a
  | .fontFamily a => SaysText v a
  | .fontStyle a => SaysText v a
  | .shadow a => SaysTruth v a
  | .zIndex a => SaysSignedWord v a
  | .rotation a => SaysSignedWord v a
  | .position x y => SaysPair SaysSignedWord v (x, y)
  | .icons a => SaysList SaysText v a

theorem map_slot_attributes (s : ElementStyle) :
    s.attributes.map Attribute.slot = s.slots.filter (·.value.isSome) := by
  unfold attributes slots
  simp only [List.map_append, List.append_assoc]
  iterate 20
    refine Eq.trans (congrArg _ ?_) (map_slot_toList _ ?_ _).symm
    rotate_left
    · exact fun _ => rfl
  cases s.icons with
  | nil => rfl
  | cons icon icons => rfl

theorem attributes_set_create {a : Attribute} (h : a ≠ .icons []) :
    ((create "").set a).attributes = [a] := by
  unfold attributes
  simp only [List.append_assoc]
  cases a with
  | icons sources =>
    cases sources with
    | nil => exact absurd rfl h
    | cons source sources => rfl
  | _ => rfl

theorem slot_injective : Function.Injective Attribute.slot := by
  intro a b h
  -- An empty list of icons is the only attribute that has no line.
  have empty {c : Attribute} (hc : c.slot = (Attribute.icons []).slot) : c = .icons [] := by
    by_contra hne
    have hline := (line?_slot hne).symm.trans (congrArg Slot.line? hc)
    cases hline
  by_cases ha : a = .icons []
  · subst ha
    exact (empty h.symm).symm
  · by_cases hb : b = .icons []
    · subst hb
      exact empty h
    · have hset : (create "").set a = (create "").set b := by
        refine sheet.eq_of_slots _ _ ((sheet.tag_set _ a).trans (sheet.tag_set _ b).symm) ?_
        exact (slots_set _ a).trans (h ▸ (slots_set _ b).symm)
      have hattributes := congrArg attributes hset
      rw [attributes_set_create ha, attributes_set_create hb] at hattributes
      exact List.head_eq_of_cons_eq hattributes

def lexicon : Lexicon sheet where
  attributes := attributes
  retag s text := { s with tag := text }
  key := Attribute.key
  Says := Attribute.SaidBy
  fieldName := fieldName
  map_slot := map_slot_attributes
  slot_injective := slot_injective
  tag_retag _ _ := rfl
  slots_retag _ _ := rfl
  key_eq a := by cases a <;> rfl
  names_nodup := by decide

theorem sound_fields : ∀ y ∈ Theme.elementStyle.fields, ∀ span v, v.Distinct → ∀ s s',
    y.store span v s = .ok s' →
      ∃ c, lexicon.name c = y.name ∧ lexicon.StatedBy v c ∧ lexicon.put s c = s' := by
  have reads {β : Type} {decode : Decoder β} {tells : Value → β → Prop} (h : Exact decode tells)
      {n : String} (make : β → Attribute) (hkey : ∀ b, (make b).key = n)
      (hsaid : ∀ v b, tells v b → (make b).SaidBy v) :=
    sound_field lexicon.name lexicon.StatedBy lexicon.put h (fun b => .setting (make b)) hkey hsaid
      fun _ _ => rfl
  simp only [Theme.elementStyle, List.forall_mem_cons, Theme.elementField]
  exact ⟨sound_field _ _ _ exact_text .tag (fun _ => rfl) (fun _ _ h => h) fun _ _ => rfl,
    reads (exact_choice complete_shapes) .shape (fun _ => rfl) fun _ _ h => h,
    reads exact_text .icon (fun _ => rfl) fun _ _ h => h,
    reads exact_word .width (fun _ => rfl) fun _ _ h => h,
    reads exact_word .height (fun _ => rfl) fun _ _ h => h,
    reads exact_text .background (fun _ => rfl) fun _ _ h => h,
    reads exact_text .color (fun _ => rfl) fun _ _ h => h,
    reads exact_text .stroke (fun _ => rfl) fun _ _ h => h,
    reads exact_byte .opacity (fun _ => rfl) fun _ _ h => h,
    reads exact_word .fontSize (fun _ => rfl) fun _ _ h => h,
    reads exact_truth .metadata (fun _ => rfl) fun _ _ h => h,
    reads exact_truth .description (fun _ => rfl) fun _ _ h => h,
    reads exact_word .border (fun _ => rfl) fun _ _ h => h,
    reads (exact_choice complete_borderStyles) .borderStyle (fun _ => rfl) fun _ _ h => h,
    reads exact_word .strokeWidth (fun _ => rfl) fun _ _ h => h,
    reads exact_text .fontFamily (fun _ => rfl) fun _ _ h => h,
    reads exact_text .fontStyle (fun _ => rfl) fun _ _ h => h,
    reads exact_truth .shadow (fun _ => rfl) fun _ _ h => h,
    reads exact_signedWord .zIndex (fun _ => rfl) fun _ _ h => h,
    reads exact_signedWord .rotation (fun _ => rfl) fun _ _ h => h,
    reads (exact_pairOf exact_signedWord) (fun p => .position p.1 p.2) (fun _ => rfl)
      fun _ _ h => h,
    reads (exact_listOf exact_text) .icons (fun _ => rfl) fun _ _ h => h,
    List.forall_mem_nil _⟩

theorem complete_fields (c : Statement Attribute) :
    ∃ y, Theme.elementStyle.fields.find? (fun y => y.name = lexicon.name c) = some y ∧
      ∀ span v, v.Distinct → lexicon.StatedBy v c →
        ∀ s, y.store span v s = .ok (lexicon.put s c) := by
  cases c with
  | tag text => exact complete_field _ rfl exact_text (fun _ h => h) fun _ => rfl
  | setting a =>
    cases a with
    | icon | background | color | stroke | fontFamily | fontStyle =>
      exact complete_field _ rfl exact_text (fun _ h => h) fun _ => rfl
    | width | height | fontSize | border | strokeWidth =>
      exact complete_field _ rfl exact_word (fun _ h => h) fun _ => rfl
    | opacity => exact complete_field _ rfl exact_byte (fun _ h => h) fun _ => rfl
    | zIndex | rotation =>
      exact complete_field _ rfl exact_signedWord (fun _ h => h) fun _ => rfl
    | metadata | description | shadow =>
      exact complete_field _ rfl exact_truth (fun _ h => h) fun _ => rfl
    | shape =>
      exact complete_field _ rfl (exact_choice complete_shapes) (fun _ h => h) fun _ => rfl
    | borderStyle =>
      exact complete_field _ rfl (exact_choice complete_borderStyles) (fun _ h => h)
        fun _ => rfl
    | position x y =>
      exact complete_field _ rfl (exact_pairOf exact_signedWord) (b := (x, y))
        (fun _ h => h) fun _ => rfl
    | icons =>
      exact complete_field _ rfl (exact_listOf exact_text) (fun _ h => h) fun _ => rfl

def wording : Wording Theme.elementStyle (Statement Attribute) :=
  lexicon.wording rfl (by decide) (by decide) sound_fields complete_fields

end ElementStyle

namespace RelationshipStyle

def Attribute.key : Attribute → String
  | .color _ => "color"
  | .opacity _ => "opacity"
  | .thickness _ => "thickness"
  | .lineStyle _ => "line_style"
  | .fontSize _ => "font_size"
  | .fontColor _ => "font_color"
  | .fontFamily _ => "font_family"
  | .fontStyle _ => "font_style"
  | .routing _ => "routing"
  | .position _ => "position"
  | .startTerminator _ => "start_terminator"
  | .endTerminator _ => "end_terminator"

def Attribute.SaidBy (v : Value) : Attribute → Prop
  | .color a => SaysText v a
  | .opacity a => SaysByte v a
  | .thickness a => SaysWord v a
  | .lineStyle a => SaysChoice lineStyles v a
  | .fontSize a => SaysWord v a
  | .fontColor a => SaysText v a
  | .fontFamily a => SaysText v a
  | .fontStyle a => SaysText v a
  | .routing a => SaysChoice routings v a
  | .position a => SaysWord v a
  | .startTerminator a => SaysChoice terminators v a
  | .endTerminator a => SaysChoice terminators v a

theorem map_slot_attributes (s : RelationshipStyle) :
    s.attributes.map Attribute.slot = s.slots.filter (·.value.isSome) := by
  unfold attributes slots
  simp only [List.map_append, List.append_assoc]
  iterate 11
    refine Eq.trans (congrArg _ ?_) (map_slot_toList _ ?_ _).symm
    rotate_left
    · exact fun _ => rfl
  refine Eq.trans (List.append_nil _).symm (map_slot_toList _ ?_ []).symm
  exact fun _ => rfl

theorem attributes_set_create (a : Attribute) : ((create "").set a).attributes = [a] := by
  unfold attributes
  simp only [List.append_assoc]
  cases a <;> rfl

theorem slot_injective : Function.Injective Attribute.slot := by
  intro a b h
  have hset : (create "").set a = (create "").set b := by
    refine sheet.eq_of_slots _ _ ((sheet.tag_set _ a).trans (sheet.tag_set _ b).symm) ?_
    exact (slots_set _ a).trans (h ▸ (slots_set _ b).symm)
  have hattributes := congrArg attributes hset
  rw [attributes_set_create, attributes_set_create] at hattributes
  exact List.head_eq_of_cons_eq hattributes

def lexicon : Lexicon sheet where
  attributes := attributes
  retag s text := { s with tag := text }
  key := Attribute.key
  Says := Attribute.SaidBy
  fieldName := fieldName
  map_slot := map_slot_attributes
  slot_injective := slot_injective
  tag_retag _ _ := rfl
  slots_retag _ _ := rfl
  key_eq a := by cases a <;> rfl
  names_nodup := by decide

theorem sound_fields : ∀ y ∈ Theme.relationshipStyle.fields, ∀ span v, v.Distinct → ∀ s s',
    y.store span v s = .ok s' →
      ∃ c, lexicon.name c = y.name ∧ lexicon.StatedBy v c ∧ lexicon.put s c = s' := by
  have reads {β : Type} {decode : Decoder β} {tells : Value → β → Prop} (h : Exact decode tells)
      {n : String} (make : β → Attribute) (hkey : ∀ b, (make b).key = n)
      (hsaid : ∀ v b, tells v b → (make b).SaidBy v) :=
    sound_field lexicon.name lexicon.StatedBy lexicon.put h (fun b => .setting (make b)) hkey hsaid
      fun _ _ => rfl
  simp only [Theme.relationshipStyle, List.forall_mem_cons, Theme.relationshipField]
  exact ⟨sound_field _ _ _ exact_text .tag (fun _ => rfl) (fun _ _ h => h) fun _ _ => rfl,
    reads exact_text .color (fun _ => rfl) fun _ _ h => h,
    reads exact_byte .opacity (fun _ => rfl) fun _ _ h => h,
    reads exact_word .thickness (fun _ => rfl) fun _ _ h => h,
    reads (exact_choice complete_lineStyles) .lineStyle (fun _ => rfl) fun _ _ h => h,
    reads exact_word .fontSize (fun _ => rfl) fun _ _ h => h,
    reads exact_text .fontColor (fun _ => rfl) fun _ _ h => h,
    reads exact_text .fontFamily (fun _ => rfl) fun _ _ h => h,
    reads exact_text .fontStyle (fun _ => rfl) fun _ _ h => h,
    reads (exact_choice complete_routings) .routing (fun _ => rfl) fun _ _ h => h,
    reads exact_word .position (fun _ => rfl) fun _ _ h => h,
    reads (exact_choice complete_terminators) .startTerminator (fun _ => rfl) fun _ _ h => h,
    reads (exact_choice complete_terminators) .endTerminator (fun _ => rfl) fun _ _ h => h,
    List.forall_mem_nil _⟩

theorem complete_fields (c : Statement Attribute) :
    ∃ y, Theme.relationshipStyle.fields.find? (fun y => y.name = lexicon.name c) = some y ∧
      ∀ span v, v.Distinct → lexicon.StatedBy v c →
        ∀ s, y.store span v s = .ok (lexicon.put s c) := by
  cases c with
  | tag text => exact complete_field _ rfl exact_text (fun _ h => h) fun _ => rfl
  | setting a =>
    cases a with
    | color | fontColor | fontFamily | fontStyle =>
      exact complete_field _ rfl exact_text (fun _ h => h) fun _ => rfl
    | thickness | fontSize | position =>
      exact complete_field _ rfl exact_word (fun _ h => h) fun _ => rfl
    | opacity => exact complete_field _ rfl exact_byte (fun _ h => h) fun _ => rfl
    | lineStyle =>
      exact complete_field _ rfl (exact_choice complete_lineStyles) (fun _ h => h)
        fun _ => rfl
    | routing =>
      exact complete_field _ rfl (exact_choice complete_routings) (fun _ h => h)
        fun _ => rfl
    | startTerminator | endTerminator =>
      exact complete_field _ rfl (exact_choice complete_terminators) (fun _ h => h)
        fun _ => rfl

def wording : Wording Theme.relationshipStyle (Statement Attribute) :=
  lexicon.wording rfl (by decide) (by decide) sound_fields complete_fields

end RelationshipStyle

end C4
