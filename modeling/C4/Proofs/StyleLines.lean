import C4.Dsl.Style
import C4.Proofs.Decoding
import Mathlib.Data.Fintype.Basic

/-!
# Style lines

A style has a slot for each of its attributes, and the slots that are filled are its lines. So the
lines tell the attributes, all of them and nothing else. The order of the calls that have filled
the slots does not show, except among calls for the same slot.
-/
namespace C4

open Dsl

/-- A keyword with the text of its value, if there is one. -/
structure Slot where
  keyword : String
  value : Option String

def Slot.line? (slot : Slot) : Option String := slot.value.map (slot.keyword ++ " " ++ ·)

def linesOf (slots : List Slot) : List String := slots.filterMap Slot.line?

def firstWord (line : String) : String := String.ofList (line.toList.takeWhile (· ≠ ' '))

def refill (slots : List Slot) (slot : Slot) : List Slot :=
  slots.map fun old => if old.keyword = slot.keyword then slot else old

theorem linesOf_cons (slot : Slot) (slots : List Slot) :
    linesOf (slot :: slots) = slot.line?.toList ++ linesOf slots := by
  unfold linesOf
  cases h : slot.line? with
  | none => rw [List.filterMap_cons_none h]; rfl
  | some line => rw [List.filterMap_cons_some h]; rfl

theorem map_text_toList {α Attribute : Type} {text : Attribute → String}
    {make : α → Attribute} {keyword : String} {value : α → String} (o : Option α)
    (h : ∀ v, (Slot.mk keyword (some (value v))).line? = some (text (make v))) :
    (o.map make).toList.map text = (Slot.mk keyword (o.map value)).line?.toList := by
  cases o with
  | none => rfl
  | some v =>
    rw [Option.map_some, Option.map_some, h]
    rfl

theorem firstWord_line {keyword : String} (h : ' ' ∉ keyword.toList) (value : String) :
    firstWord (keyword ++ " " ++ value) = keyword := by
  have hword : ∀ c ∈ keyword.toList, decide (c ≠ ' ') = true :=
    fun c hc => decide_eq_true fun hblank => h (hblank ▸ hc)
  have hblank : " ".toList = [' '] := rfl
  rw [firstWord, String.toList_append, String.toList_append, hblank, List.append_assoc,
    List.takeWhile_append_of_pos hword]
  simp

theorem eq_of_line? {slot other : Slot} (hkeyword : slot.keyword = other.keyword)
    (h : slot.line? = other.line?) : slot = other := by
  obtain ⟨keyword, value⟩ := slot
  obtain ⟨keyword', value'⟩ := other
  subst hkeyword
  have hinj : Function.Injective (keyword ++ " " ++ ·) :=
    fun value value' hline => (String.append_right_inj _).1 hline
  exact congrArg (Slot.mk keyword) (Option.map_injective hinj h)

theorem keyword_eq_of_line? {slot other : Slot} {line : String} (hslot : ' ' ∉ slot.keyword.toList)
    (hother : ' ' ∉ other.keyword.toList) (h : slot.line? = some line)
    (h' : other.line? = some line) : slot.keyword = other.keyword := by
  obtain ⟨value, -, rfl⟩ := Option.map_eq_some_iff.1 h
  obtain ⟨value', -, hline⟩ := Option.map_eq_some_iff.1 h'
  rw [← firstWord_line hslot value, ← hline, firstWord_line hother]

section Lines

variable {slots others : List Slot}
  (hsolid : ∀ keyword ∈ slots.map Slot.keyword, ' ' ∉ keyword.toList)
include hsolid

theorem map_firstWord_linesOf : (linesOf slots).map firstWord =
    (slots.filter (·.value.isSome)).map Slot.keyword := by
  induction slots with
  | nil => rfl
  | cons slot slots ih =>
    obtain ⟨hslot, hslots⟩ := List.forall_mem_cons.1 hsolid
    rw [linesOf_cons, List.map_append, ih hslots]
    cases hvalue : slot.value with
    | none => simp [Slot.line?, hvalue]
    | some value => simp [Slot.line?, hvalue, firstWord_line hslot]

theorem mem_linesOf {slot : Slot} {line : String} (hslot : ' ' ∉ slot.keyword.toList)
    (h : slot.line? = some line) : line ∈ linesOf slots ↔ slot ∈ slots := by
  constructor
  · intro hline
    obtain ⟨other, hmem, hother⟩ := List.mem_filterMap.1 hline
    have hkeyword := keyword_eq_of_line? hslot (hsolid _ (List.mem_map_of_mem hmem)) h hother
    rwa [eq_of_line? hkeyword (h.trans hother.symm)]
  · intro hmem
    exact List.mem_filterMap.2 ⟨slot, hmem, h⟩

theorem linesOf_inj (hdistinct : (slots.map Slot.keyword).Nodup)
    (hkeywords : slots.map Slot.keyword = others.map Slot.keyword)
    (h : linesOf slots = linesOf others) : slots = others := by
  induction slots generalizing others with
  | nil => exact (List.map_eq_nil_iff.1 hkeywords.symm).symm
  | cons slot slots ih =>
    obtain ⟨other, others, rfl, hkeyword, hrest⟩ := List.map_eq_cons_iff.1 hkeywords.symm
    obtain ⟨hslot, hslots⟩ := List.forall_mem_cons.1 hsolid
    obtain ⟨hout, hdistinct⟩ := List.nodup_cons.1 hdistinct
    -- A line begins with the keyword of its slot, so it can not stand for a slot further down.
    have hlate {first : Slot} {line : String} {more : List Slot} (hfirst : first.line? = some line)
        (hfirst' : first.keyword = slot.keyword)
        (hmore : more.map Slot.keyword = slots.map Slot.keyword) : line ∉ linesOf more := by
      rw [mem_linesOf (hmore ▸ hslots) (hfirst' ▸ hslot) hfirst]
      intro hmem
      exact hout (hmore ▸ hfirst' ▸ List.mem_map_of_mem hmem)
    have hboth : slot.line? = other.line? ∧ linesOf slots = linesOf others := by
      rw [linesOf_cons, linesOf_cons] at h
      cases hline : slot.line? with
      | none =>
        cases hline' : other.line? with
        | none => exact ⟨rfl, by simpa [hline, hline'] using h⟩
        | some line =>
          have hlines : linesOf slots = line :: linesOf others := by simpa [hline, hline'] using h
          exact absurd (hlines ▸ List.mem_cons_self) (hlate hline' hkeyword rfl)
      | some line =>
        cases hline' : other.line? with
        | none =>
          have hlines : line :: linesOf slots = linesOf others := by simpa [hline, hline'] using h
          exact absurd (hlines ▸ List.mem_cons_self) (hlate hline rfl hrest)
        | some line' => simpa [hline, hline'] using h
    rw [eq_of_line? hkeyword.symm hboth.1, ih hslots hdistinct hrest.symm hboth.2]

end Lines

theorem refill_eq_self {slots : List Slot} {slot : Slot}
    (hdistinct : (slots.map Slot.keyword).Nodup)
    (hkeyword : slot.keyword ∈ slots.map Slot.keyword) :
    refill slots slot = slots ↔ slot ∈ slots := by
  constructor
  · intro h
    obtain ⟨old, hold, hsame⟩ := List.mem_map.1 hkeyword
    rw [← h]
    exact List.mem_map.2 ⟨old, hold, if_pos hsame⟩
  · intro hmem
    refine (List.map_congr_left fun old hold => ?_).trans (List.map_id slots)
    split
    · next hsame => exact List.inj_on_of_nodup_map hdistinct hmem hold hsame.symm
    · rfl

theorem refill_comm {slot other : Slot} (h : slot.keyword ≠ other.keyword) (slots : List Slot) :
    refill (refill slots slot) other = refill (refill slots other) slot := by
  unfold refill
  rw [List.map_map, List.map_map]
  refine List.map_congr_left fun old _ => ?_
  simp only [Function.comp_apply]
  by_cases hslot : old.keyword = slot.keyword
  · have hother : old.keyword ≠ other.keyword := hslot ▸ h
    rw [if_pos hslot, if_neg h, if_neg hother, if_pos hslot]
  · by_cases hother : old.keyword = other.keyword
    · rw [if_neg hslot, if_pos hother, if_neg h.symm]
    · rw [if_neg hslot, if_neg hother, if_neg hslot]

/-- Calls for different keywords can change places, so only the order of those for the same keyword
matters. -/
theorem foldl_eq_of_filter_eq {σ α : Type} {step : σ → α → σ} {keyword : α → String}
    (hcomm : ∀ s a b, keyword a ≠ keyword b → step (step s a) b = step (step s b) a)
    {calls calls' : List α}
    (h : ∀ k, calls.filter (keyword · = k) = calls'.filter (keyword · = k)) (s : σ) :
    calls.foldl step s = calls'.foldl step s := by
  have hearly (a : α) (after : List α) {before : List α}
      (hbefore : ∀ b ∈ before, keyword b ≠ keyword a) (s : σ) :
      (before ++ a :: after).foldl step s = (before ++ after).foldl step (step s a) := by
    induction before generalizing s with
    | nil => rfl
    | cons b before ih =>
      obtain ⟨hb, hbefore⟩ := List.forall_mem_cons.1 hbefore
      rw [List.cons_append, List.foldl_cons, ih hbefore, hcomm s b a hb]
      rfl
  induction calls generalizing calls' s with
  | nil =>
    cases calls' with
    | nil => rfl
    | cons a calls' => simpa using h (keyword a)
  | cons a calls ih =>
    have hfirst := (h (keyword a)).symm
    rw [List.filter_cons_of_pos (by simp)] at hfirst
    obtain ⟨before, after, rfl, hbefore, -, -⟩ := List.filter_eq_cons_iff.1 hfirst
    have hothers : ∀ b ∈ before, keyword b ≠ keyword a := fun b hb => by simpa using hbefore b hb
    rw [List.foldl_cons, hearly a after hothers]
    refine ih (fun k => ?_) (step s a)
    have hk := h k
    rw [List.filter_append, List.filter_cons, List.filter_cons] at hk
    rw [List.filter_append]
    split at hk
    · next hkeyword =>
      obtain rfl := of_decide_eq_true hkeyword
      have hnone : before.filter (keyword · = keyword a) = [] :=
        List.filter_eq_nil_iff.2 fun b hb => by simpa using hothers b hb
      rw [hnone] at hk ⊢
      exact (List.cons.inj hk).2
    · exact hk

theorem injective_of_names {α : Type} {name : α → String} (all : List α) (hall : ∀ a, a ∈ all)
    (hnames : (all.map name).Nodup) : Function.Injective name :=
  fun a b => List.inj_on_of_nodup_map hnames (hall a) (hall b)

theorem Shape.name_injective : Function.Injective Shape.name :=
  injective_of_names Shape.all (fun s => by cases s <;> decide) (by decide)

theorem BorderStyle.name_injective : Function.Injective BorderStyle.name :=
  injective_of_names BorderStyle.all (fun s => by cases s <;> decide) (by decide)

theorem LineStyle.name_injective : Function.Injective LineStyle.name :=
  injective_of_names LineStyle.all (fun s => by cases s <;> decide) (by decide)

theorem Routing.name_injective : Function.Injective Routing.name :=
  injective_of_names Routing.all (fun r => by cases r <;> decide) (by decide)

theorem Terminator.name_injective : Function.Injective Terminator.name :=
  injective_of_names Terminator.all (fun t => by cases t <;> decide) (by decide)

theorem toString_nat_injective : Function.Injective (toString : ℕ → String) := by
  intro m n h
  have hlists := congrArg (fun text : String => text.toList ++ []) h
  exact (toString_append_inj (by simp) (by simp) hlists).1

theorem toString_int_injective : Function.Injective (toString : ℤ → String) := by
  intro m n h
  have hlists := congrArg (fun text : String => text.toList ++ []) h
  exact (toString_int_append_inj (by simp) (by simp) hlists).1

theorem toString_byte_injective : Function.Injective fun v : UInt8 => toString v.toNat :=
  fun _ _ h => UInt8.toNat_inj.1 (toString_nat_injective h)

theorem toString_word_injective : Function.Injective fun v : UInt32 => toString v.toNat :=
  fun _ _ h => UInt32.toNat_inj.1 (toString_nat_injective h)

theorem toString_signed_injective : Function.Injective fun v : Int32 => toString v.toInt :=
  fun _ _ h => Int32.toInt_inj.1 (toString_int_injective h)

theorem toString_bool_injective : Function.Injective (toString : Bool → String) := by
  decide

def pairText (p : Int32 × Int32) : String := toString p.1.toInt ++ "," ++ toString p.2.toInt

theorem pairText_injective : Function.Injective pairText := by
  rintro ⟨x, y⟩ ⟨x', y'⟩ h
  have hlists := congrArg String.toList h
  simp only [pairText, String.toList_append, List.append_assoc] at hlists
  obtain ⟨hx, hrest⟩ := toString_int_append_inj (by simp) (by simp) hlists
  obtain rfl := Int32.toInt_inj.1 hx
  have hy := toString_int_injective (String.toList_injective (List.append_cancel_left hrest))
  rw [Int32.toInt_inj.1 hy]

def iconsText (icons : List String) : Option String :=
  if icons.isEmpty then none else some ("[" ++ String.intercalate ", " (icons.map quote) ++ "]")

def iconPieces (gap : List Char) (icon : String) (icons : List String) :
    List (List Char × List Char) :=
  (gap, icon.toList) :: icons.map fun icon => ([',', ' '], icon.toList)

theorem intercalate_eq_interleave (gap stop : List Char) (icon : String) (icons : List String) :
    gap ++ (String.intercalate ", " ((icon :: icons).map quote)).toList ++ stop =
      interleave (iconPieces gap icon icons) stop := by
  induction icons generalizing gap icon with
  | nil => simp [iconPieces, interleave, toList_quote]
  | cons next icons ih =>
    have hcomma : ", ".toList = [',', ' '] := rfl
    have hrest := ih [',', ' '] next
    rw [iconPieces, List.map_cons] at hrest
    rw [iconPieces, List.map_cons, List.map_cons, String.intercalate_cons_cons, List.map_cons,
      interleave, ← hrest]
    simp [toList_quote, hcomma]

theorem plain_iconPieces {gap : List Char} (h : Plain gap) (icon : String) (icons : List String) :
    ∀ p ∈ iconPieces gap icon icons, Plain p.1 := by
  simp only [iconPieces, List.forall_mem_cons, List.forall_mem_map]
  exact ⟨h, fun _ _ => by decide⟩

theorem iconPieces_inj {gap : List Char} {icon other : String} {icons others : List String}
    (h : iconPieces gap icon icons = iconPieces gap other others) :
    icon = other ∧ icons = others := by
  obtain ⟨hfirst, hmore⟩ := List.cons.inj h
  have hinj : Function.Injective fun icon : String => ([',', ' '], icon.toList) :=
    fun icon other h => String.toList_injective (Prod.ext_iff.1 h).2
  exact ⟨String.toList_injective (Prod.ext_iff.1 hfirst).2, List.map_injective_iff.2 hinj hmore⟩

theorem iconsText_injective : Function.Injective iconsText := by
  intro icons others h
  cases icons with
  | nil =>
    cases others with
    | nil => rfl
    | cons other others => cases h
  | cons icon icons =>
    cases others with
    | nil => cases h
    | cons other others =>
      have hlists := congrArg String.toList (Option.some.inj h)
      rw [String.toList_append, String.toList_append, String.toList_append,
        String.toList_append] at hlists
      have hlines := (intercalate_eq_interleave ['['] [']'] icon icons).symm.trans
        (hlists.trans (intercalate_eq_interleave ['['] [']'] other others))
      obtain ⟨hpieces, -⟩ := interleave_inj (by decide) (by decide)
        (plain_iconPieces (by decide) icon icons) (plain_iconPieces (by decide) other others) hlines
      obtain ⟨rfl, rfl⟩ := iconPieces_inj hpieces
      rfl

theorem quote_name_injective {α : Type} {name : α → String} (h : Function.Injective name) :
    Function.Injective fun v => quote (name v) :=
  quote_injective.comp h

theorem map_inj {α : Type} {f : α → String} (hf : Function.Injective f) {a b : Option α} :
    a.map f = b.map f ↔ a = b :=
  (Option.map_injective hf).eq_iff

/-- A kind of styles. Each style has the same slots, and setting an attribute fills one of them. -/
structure Sheet (Style Attribute : Type) where
  keywords : List String
  tag : Style → String
  slots : Style → List Slot
  slot : Attribute → Slot
  set : Style → Attribute → Style
  distinct : keywords.Nodup
  solid : ∀ keyword ∈ keywords, ' ' ∉ keyword.toList
  keywords_slots : ∀ style, (slots style).map Slot.keyword = keywords
  keyword_mem : ∀ a, (slot a).keyword ∈ keywords
  slots_set : ∀ style a, slots (set style a) = refill (slots style) (slot a)
  tag_set : ∀ style a, tag (set style a) = tag style
  eq_of_slots : ∀ style style', tag style = tag style' → slots style = slots style' → style = style'

namespace Sheet

variable {Style Attribute : Type} (sheet : Sheet Style Attribute) {style style' : Style}
  {a b : Attribute}

theorem linesOf_eq_iff : linesOf (sheet.slots style) = linesOf (sheet.slots style') ↔
    sheet.slots style = sheet.slots style' := by
  constructor
  · intro h
    have hkeywords := sheet.keywords_slots style
    refine linesOf_inj ?_ ?_ (hkeywords.trans (sheet.keywords_slots style').symm) h
    · rw [hkeywords]
      exact sheet.solid
    · rw [hkeywords]
      exact sheet.distinct
  · exact congrArg linesOf

theorem firstWords_sublist :
    ((linesOf (sheet.slots style)).map firstWord).Sublist sheet.keywords := by
  rw [map_firstWord_linesOf (by rw [sheet.keywords_slots]; exact sheet.solid),
    ← sheet.keywords_slots style]
  exact List.filter_sublist.map _

theorem set_eq_self_iff : sheet.set style a = style ↔ sheet.slot a ∈ sheet.slots style := by
  have hkeywords := sheet.keywords_slots style
  rw [← refill_eq_self (by rw [hkeywords]; exact sheet.distinct)
    (by rw [hkeywords]; exact sheet.keyword_mem a), ← sheet.slots_set]
  exact ⟨congrArg sheet.slots, sheet.eq_of_slots _ _ (sheet.tag_set style a)⟩

theorem mem_linesOf_iff {line : String} (h : (sheet.slot a).line? = some line) :
    line ∈ linesOf (sheet.slots style) ↔ sheet.set style a = style := by
  rw [sheet.set_eq_self_iff, mem_linesOf (by rw [sheet.keywords_slots]; exact sheet.solid)
    (sheet.solid _ (sheet.keyword_mem a)) h]

theorem set_comm (h : (sheet.slot a).keyword ≠ (sheet.slot b).keyword) :
    sheet.set (sheet.set style a) b = sheet.set (sheet.set style b) a := by
  refine sheet.eq_of_slots _ _ ?_ ?_
  · simp only [sheet.tag_set]
  · simp only [sheet.slots_set]
    exact refill_comm h _

end Sheet

namespace ElementStyle

def keywords : List String :=
  ["shape", "icon", "width", "height", "background", "color", "stroke", "opacity", "fontSize",
    "metadata", "description", "border", "borderStyle", "strokeWidth", "fontFamily", "fontStyle",
    "shadow", "zIndex", "rotation", "position", "icons"]

def slots (s : ElementStyle) : List Slot :=
  [⟨"shape", s.shape.map (·.name)⟩,
    ⟨"icon", s.icon.map quote⟩,
    ⟨"width", s.width.map (toString ·.toNat)⟩,
    ⟨"height", s.height.map (toString ·.toNat)⟩,
    ⟨"background", s.background.map quote⟩,
    ⟨"color", s.color.map quote⟩,
    ⟨"stroke", s.stroke.map quote⟩,
    ⟨"opacity", s.opacity.map (toString ·.toNat)⟩,
    ⟨"fontSize", s.fontSize.map (toString ·.toNat)⟩,
    ⟨"metadata", s.metadata.map toString⟩,
    ⟨"description", s.description.map toString⟩,
    ⟨"border", s.border.map (toString ·.toNat)⟩,
    ⟨"borderStyle", s.borderStyle.map (quote ·.name)⟩,
    ⟨"strokeWidth", s.strokeWidth.map (toString ·.toNat)⟩,
    ⟨"fontFamily", s.fontFamily.map quote⟩,
    ⟨"fontStyle", s.fontStyle.map quote⟩,
    ⟨"shadow", s.shadow.map toString⟩,
    ⟨"zIndex", s.zIndex.map (toString ·.toInt)⟩,
    ⟨"rotation", s.rotation.map (toString ·.toInt)⟩,
    ⟨"position", s.position.map pairText⟩,
    ⟨"icons", iconsText s.icons⟩]

def Attribute.slot : Attribute → Slot
  | .shape v => ⟨"shape", v.name⟩
  | .icon v => ⟨"icon", quote v⟩
  | .width v => ⟨"width", toString v.toNat⟩
  | .height v => ⟨"height", toString v.toNat⟩
  | .background v => ⟨"background", quote v⟩
  | .color v => ⟨"color", quote v⟩
  | .stroke v => ⟨"stroke", quote v⟩
  | .opacity v => ⟨"opacity", toString v.toNat⟩
  | .fontSize v => ⟨"fontSize", toString v.toNat⟩
  | .metadata v => ⟨"metadata", toString v⟩
  | .description v => ⟨"description", toString v⟩
  | .border v => ⟨"border", toString v.toNat⟩
  | .borderStyle v => ⟨"borderStyle", quote v.name⟩
  | .strokeWidth v => ⟨"strokeWidth", toString v.toNat⟩
  | .fontFamily v => ⟨"fontFamily", quote v⟩
  | .fontStyle v => ⟨"fontStyle", quote v⟩
  | .shadow v => ⟨"shadow", toString v⟩
  | .zIndex v => ⟨"zIndex", toString v.toInt⟩
  | .rotation v => ⟨"rotation", toString v.toInt⟩
  | .position x y => ⟨"position", pairText (x, y)⟩
  | .icons vs => ⟨"icons", iconsText vs⟩

theorem line?_slot {a : Attribute} (h : a ≠ .icons []) : a.slot.line? = some a.text := by
  cases a with
  | icons sources =>
    cases sources with
    | nil => exact absurd rfl h
    | cons source sources =>
      have htext (row : String) :
          "icons" ++ " " ++ ("[" ++ row ++ "]") = "icons [" ++ row ++ "]" := by
        rw [← String.append_assoc, ← String.append_assoc]
        rfl
      exact congrArg some (htext _)
  | position x y =>
    have htext (first second : String) :
        "position" ++ " " ++ (first ++ "," ++ second) = "position " ++ first ++ "," ++ second := by
      rw [← String.append_assoc, ← String.append_assoc]
      rfl
    exact congrArg some (htext _ _)
  | _ => rfl

theorem lines_eq_linesOf (s : ElementStyle) : s.lines = linesOf s.slots := by
  unfold lines attributes slots
  simp only [List.map_append, List.append_assoc, linesOf_cons]
  iterate 19 refine congrArg₂ (· ++ ·) (map_text_toList _ fun _ => rfl) ?_
  refine congrArg₂ (· ++ ·) (map_text_toList _ fun p => ?_) ?_
  · exact line?_slot (a := .position p.1 p.2) nofun
  cases hicons : s.icons with
  | nil => rfl
  | cons icon icons =>
    have hline := line?_slot (a := .icons (icon :: icons)) nofun
    rw [Attribute.slot] at hline
    rw [hline]
    rfl

theorem slots_set (s : ElementStyle) (a : Attribute) :
    (s.set a).slots = refill s.slots a.slot := by
  cases a <;> simp [set, slots, Attribute.slot, refill]

theorem slots_eq_iff {s s' : ElementStyle} :
    s.slots = s'.slots ↔ { s with tag := s'.tag } = s' := by
  cases s
  cases s'
  simp only [slots, List.cons.injEq, Slot.mk.injEq, true_and, and_true, mk.injEq,
    map_inj Shape.name_injective, map_inj quote_injective, map_inj toString_word_injective,
    map_inj toString_byte_injective, map_inj toString_bool_injective,
    map_inj (quote_name_injective BorderStyle.name_injective),
    map_inj toString_signed_injective, map_inj pairText_injective, iconsText_injective.eq_iff]

theorem icons_set {s : ElementStyle} {a : Attribute} (h : a.slot.keyword ≠ "icons") :
    (s.set a).icons = s.icons := by
  cases a with
  | icons sources => exact absurd rfl h
  | _ => rfl

def sheet : Sheet ElementStyle Attribute where
  keywords := keywords
  tag := tag
  slots := slots
  slot := Attribute.slot
  set := set
  distinct := by decide
  solid := by decide
  keywords_slots _ := rfl
  keyword_mem a := by cases a <;> simp [Attribute.slot, keywords]
  slots_set := slots_set
  tag_set _ a := by cases a <;> rfl
  eq_of_slots _ _ htag h := by rw [← slots_eq_iff.1 h, ← htag]

inductive Call
  | set (a : Attribute)
  | addIcon (source : String)
deriving DecidableEq

namespace Call

def keyword : Call → String
  | set a => a.slot.keyword
  | addIcon _ => "icons"

def sets (s : ElementStyle) : Call → Attribute
  | set a => a
  | addIcon source => .icons (s.icons ++ [source])

end Call

def perform (s : ElementStyle) : Call → ElementStyle
  | .set a => s.set a
  | .addIcon source => s.addIcon source

def built (tag : String) (calls : List Call) : ElementStyle := calls.foldl perform (create tag)

theorem perform_eq_set (s : ElementStyle) (c : Call) : s.perform c = s.set (c.sets s) := by
  cases c <;> rfl

theorem keyword_sets (s : ElementStyle) (c : Call) :
    (c.sets s).slot.keyword = c.keyword := by
  cases c <;> rfl

theorem sets_set {s : ElementStyle} {a : Attribute} {c : Call}
    (h : a.slot.keyword ≠ c.keyword) : c.sets (s.set a) = c.sets s := by
  cases c with
  | set b => rfl
  | addIcon source => rw [Call.sets, Call.sets, icons_set h]

theorem perform_comm (s : ElementStyle) (c d : Call) (h : c.keyword ≠ d.keyword) :
    (s.perform c).perform d = (s.perform d).perform c := by
  have hslots : (c.sets s).slot.keyword ≠ (d.sets s).slot.keyword := by
    rw [keyword_sets, keyword_sets]
    exact h
  rw [perform_eq_set, perform_eq_set, perform_eq_set, perform_eq_set,
    sets_set (by rw [keyword_sets]; exact h),
    sets_set (by rw [keyword_sets]; exact h.symm)]
  exact sheet.set_comm hslots

end ElementStyle

namespace RelationshipStyle

def keywords : List String :=
  ["color", "opacity", "thickness", "style", "fontSize", "fontColor", "fontFamily", "fontStyle",
    "routing", "position", "sourceTerminator", "destinationTerminator"]

def slots (s : RelationshipStyle) : List Slot :=
  [⟨"color", s.color.map quote⟩,
    ⟨"opacity", s.opacity.map (toString ·.toNat)⟩,
    ⟨"thickness", s.thickness.map (toString ·.toNat)⟩,
    ⟨"style", s.lineStyle.map (quote ·.name)⟩,
    ⟨"fontSize", s.fontSize.map (toString ·.toNat)⟩,
    ⟨"fontColor", s.fontColor.map quote⟩,
    ⟨"fontFamily", s.fontFamily.map quote⟩,
    ⟨"fontStyle", s.fontStyle.map quote⟩,
    ⟨"routing", s.routing.map (quote ·.name)⟩,
    ⟨"position", s.position.map (toString ·.toNat)⟩,
    ⟨"sourceTerminator", s.startTerminator.map (quote ·.name)⟩,
    ⟨"destinationTerminator", s.endTerminator.map (quote ·.name)⟩]

def Attribute.slot : Attribute → Slot
  | .color v => ⟨"color", quote v⟩
  | .opacity v => ⟨"opacity", toString v.toNat⟩
  | .thickness v => ⟨"thickness", toString v.toNat⟩
  | .lineStyle v => ⟨"style", quote v.name⟩
  | .fontSize v => ⟨"fontSize", toString v.toNat⟩
  | .fontColor v => ⟨"fontColor", quote v⟩
  | .fontFamily v => ⟨"fontFamily", quote v⟩
  | .fontStyle v => ⟨"fontStyle", quote v⟩
  | .routing v => ⟨"routing", quote v.name⟩
  | .position v => ⟨"position", toString v.toNat⟩
  | .startTerminator v => ⟨"sourceTerminator", quote v.name⟩
  | .endTerminator v => ⟨"destinationTerminator", quote v.name⟩

theorem line?_slot (a : Attribute) : a.slot.line? = some a.text := by
  cases a <;> rfl

theorem lines_eq_linesOf (s : RelationshipStyle) : s.lines = linesOf s.slots := by
  unfold lines attributes slots
  simp only [List.map_append, List.append_assoc, linesOf_cons]
  iterate 11 refine congrArg₂ (· ++ ·) (map_text_toList _ fun _ => rfl) ?_
  refine Eq.trans ?_ (List.append_nil _).symm
  exact map_text_toList _ fun _ => rfl

theorem slots_set (s : RelationshipStyle) (a : Attribute) :
    (s.set a).slots = refill s.slots a.slot := by
  cases a <;> simp [set, slots, Attribute.slot, refill]

theorem slots_eq_iff {s s' : RelationshipStyle} :
    s.slots = s'.slots ↔ { s with tag := s'.tag } = s' := by
  cases s
  cases s'
  simp only [slots, List.cons.injEq, Slot.mk.injEq, true_and, and_true, mk.injEq,
    map_inj quote_injective, map_inj toString_word_injective, map_inj toString_byte_injective,
    map_inj (quote_name_injective LineStyle.name_injective),
    map_inj (quote_name_injective Routing.name_injective),
    map_inj (quote_name_injective Terminator.name_injective)]

def sheet : Sheet RelationshipStyle Attribute where
  keywords := keywords
  tag := tag
  slots := slots
  slot := Attribute.slot
  set := set
  distinct := by decide
  solid := by decide
  keywords_slots _ := rfl
  keyword_mem a := by cases a <;> simp [Attribute.slot, keywords]
  slots_set := slots_set
  tag_set _ a := by cases a <;> rfl
  eq_of_slots _ _ htag h := by rw [← slots_eq_iff.1 h, ← htag]

def built (tag : String) (calls : List Attribute) : RelationshipStyle :=
  calls.foldl set (create tag)

end RelationshipStyle

/-- The lines of a style tell its attributes. Each keyword leads at most one of them, in a fixed
order, and the line of an attribute is there if the style has the attribute. Calls for different
keywords may change places. -/
theorem style_lines_canonical :
    (∀ s s' : ElementStyle, s.lines = s'.lines ↔ { s with tag := s'.tag } = s') ∧
    (∀ s s' : RelationshipStyle, s.lines = s'.lines ↔ { s with tag := s'.tag } = s') ∧
    ElementStyle.keywords.Nodup ∧ RelationshipStyle.keywords.Nodup ∧
    (∀ s : ElementStyle, (s.lines.map firstWord).Sublist ElementStyle.keywords) ∧
    (∀ s : RelationshipStyle, (s.lines.map firstWord).Sublist RelationshipStyle.keywords) ∧
    (∀ (s : ElementStyle) (a : ElementStyle.Attribute), a ≠ .icons [] →
      (a.text ∈ s.lines ↔ s.set a = s)) ∧
    (∀ (s : RelationshipStyle) (a : RelationshipStyle.Attribute),
      a.text ∈ s.lines ↔ s.set a = s) ∧
    (∀ (tag : String) (calls calls' : List ElementStyle.Call),
      (∀ k, calls.filter (·.keyword = k) = calls'.filter (·.keyword = k)) →
      ElementStyle.built tag calls = ElementStyle.built tag calls') ∧
    ∀ (tag : String) (calls calls' : List RelationshipStyle.Attribute),
      (∀ k, calls.filter (·.slot.keyword = k) = calls'.filter (·.slot.keyword = k)) →
      RelationshipStyle.built tag calls = RelationshipStyle.built tag calls' := by
  refine ⟨fun s s' => ?_, fun s s' => ?_, by decide, by decide, fun s => ?_, fun s => ?_,
    fun s a ha => ?_, fun s a => ?_, fun tag calls calls' h => ?_, fun tag calls calls' h => ?_⟩
  · rw [s.lines_eq_linesOf, s'.lines_eq_linesOf, ← ElementStyle.slots_eq_iff]
    exact ElementStyle.sheet.linesOf_eq_iff
  · rw [s.lines_eq_linesOf, s'.lines_eq_linesOf, ← RelationshipStyle.slots_eq_iff]
    exact RelationshipStyle.sheet.linesOf_eq_iff
  · rw [s.lines_eq_linesOf]
    exact ElementStyle.sheet.firstWords_sublist
  · rw [s.lines_eq_linesOf]
    exact RelationshipStyle.sheet.firstWords_sublist
  · rw [s.lines_eq_linesOf]
    exact ElementStyle.sheet.mem_linesOf_iff (ElementStyle.line?_slot ha)
  · rw [s.lines_eq_linesOf]
    exact RelationshipStyle.sheet.mem_linesOf_iff (RelationshipStyle.line?_slot a)
  · exact foldl_eq_of_filter_eq ElementStyle.perform_comm h _
  · exact foldl_eq_of_filter_eq (fun _ _ _ => RelationshipStyle.sheet.set_comm) h _

/-- The shape of a database may be set before its color or after it, with icons added between. -/
theorem style_lines_canonical_of_database :
    ∃ (calls calls' : List ElementStyle.Call) (links links' : List RelationshipStyle.Attribute),
      calls ≠ calls' ∧ (∀ k, calls.filter (·.keyword = k) = calls'.filter (·.keyword = k)) ∧
      ElementStyle.built "Database" calls = ElementStyle.built "Database" calls' ∧
      (ElementStyle.built "Database" calls).lines =
        ["shape Cylinder", "color \"red\"", "icons [\"a\", \"b\"]"] ∧
      (ElementStyle.built "Database" calls).set (.icons ["a", "b"]) =
        ElementStyle.built "Database" calls' ∧
      links ≠ links' ∧
      (∀ k, links.filter (·.slot.keyword = k) = links'.filter (·.slot.keyword = k)) ∧
      RelationshipStyle.built "Query" links = RelationshipStyle.built "Query" links' ∧
      (RelationshipStyle.built "Query" links).lines = ["color \"red\"", "style \"Dashed\""] := by
  let calls : List ElementStyle.Call :=
    [.addIcon "a", .set (.color "red"), .addIcon "b", .set (.shape .cylinder)]
  let calls' : List ElementStyle.Call :=
    [.set (.shape .cylinder), .addIcon "a", .addIcon "b", .set (.color "red")]
  let links : List RelationshipStyle.Attribute := [.lineStyle .dashed, .color "red"]
  let links' : List RelationshipStyle.Attribute := [.color "red", .lineStyle .dashed]
  obtain ⟨-, -, -, -, -, -, hset, -, hcalls, hlinks⟩ := style_lines_canonical
  have hkeys (k : String) : calls.filter (·.keyword = k) = calls'.filter (·.keyword = k) := by
    by_cases hshape : "shape" = k
    · subst hshape
      decide
    · by_cases hcolor : "color" = k
      · subst hcolor
        decide
      · simp only [calls, calls', List.filter_cons, ElementStyle.Call.keyword,
          ElementStyle.Attribute.slot, hshape, hcolor, decide_false, Bool.false_eq_true, if_false]
  have hlinkKeys (k : String) :
      links.filter (·.slot.keyword = k) = links'.filter (·.slot.keyword = k) := by
    by_cases hcolor : "color" = k
    · subst hcolor
      decide
    · simp only [links, links', List.filter_cons, RelationshipStyle.Attribute.slot, hcolor,
        decide_false, Bool.false_eq_true, if_false]
  have hbuilt := hcalls "Database" calls calls' hkeys
  refine ⟨calls, calls', links, links', by decide, hkeys, hbuilt, by decide +kernel, ?_,
    by decide, hlinkKeys, hlinks "Query" links links' hlinkKeys, by decide +kernel⟩
  refine Eq.trans ((hset _ (.icons ["a", "b"]) nofun).1 ?_) hbuilt
  decide +kernel

end C4
