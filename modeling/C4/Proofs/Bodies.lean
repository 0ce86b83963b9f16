import C4.Proofs.PropertyLines
import C4.Proofs.Spacing
import C4.Proofs.Subtrees

/-!
# Bodies

An element is drawn as a single line when it has nothing to nest and as a block when it has, and so
is a health check. What decides is a test of one field after the other that does not look at the
body. It agrees with the body: no block is empty, and nothing is lost on a single line.
-/
namespace C4

open Dsl Forest

inductive Part
  | tags (tags : Tags)
  | properties (properties : Properties)
  | number (keyword : String) (number : UInt32)
  | element (id : ElementId)
  | check (check : HealthCheck)

/-- An element that is nested in another. A node is drawn to one level less below another node. -/
def Model.nestedScript (m : Model) : ElementId → Script
  | .deploymentNode id => nestedNodeScript m (m.deploymentNodes.size - 1) id
  | id => elementScript m id

def Part.calls (m : Model) : Part → List Directive
  | tags t => [.line ("tags " ++ quote t.joined)]
  | properties p =>
    .opening "properties" :: (p.entries.map (.line <| propertyLine ·) ++ [.closing])
  | number keyword n => [.line (keyword ++ " " ++ toString n.toNat)]
  | element id => callsOf (m.nestedScript id)
  | check c => callsOf (healthCheckScript c)

def Tags.parts (t : Tags) : List Part := if t.isEmpty then [] else [.tags t]

def Properties.parts (p : Properties) : List Part := if p.isEmpty then [] else [.properties p]

def numberParts (keyword : String) (number : Option UInt32) : List Part :=
  (number.map (.number keyword)).toList

namespace HealthCheck

def parts (check : HealthCheck) : List Part :=
  numberParts "interval" check.interval ++ numberParts "timeout" check.timeout ++
    check.properties.parts

def header (check : HealthCheck) : String :=
  "healthCheck " ++ quote check.name ++ " " ++ quote check.url

end HealthCheck

namespace Model

def parts (m : Model) : ElementId → List Part
  | .person id => (m.person? id).elim [] (·.tags.parts)
  | .softwareSystem id => (m.softwareSystem? id).elim [] fun s =>
    s.tags.parts ++ s.containers.map (.element <| .container ·)
  | .container id => (m.container? id).elim [] fun c =>
    c.tags.parts ++ c.components.map (.element <| .component ·)
  | .component id => (m.component? id).elim [] (·.tags.parts)
  | .deploymentNode id => (m.deploymentNode? id).elim [] fun n =>
    n.tags.parts ++ n.properties.parts ++ n.children.map (.element <| .deploymentNode ·) ++
      n.infrastructureNodes.map (.element <| .infrastructureNode ·) ++
      n.containerInstances.map (.element <| .containerInstance ·)
  | .infrastructureNode id => (m.infrastructureNode? id).elim [] fun n =>
    n.tags.parts ++ n.properties.parts
  | .containerInstance id => (m.containerInstance? id).elim [] fun i =>
    i.tags.parts ++ i.properties.parts ++ numberParts "instanceId" i.instanceId ++
      i.healthChecks.map .check

/-- What the emitters ask before they draw an element, field by field. -/
def hasBody (m : Model) : ElementId → Bool
  | .person id => (m.person? id).any fun p => !p.tags.isEmpty
  | .softwareSystem id => (m.softwareSystem? id).any fun s =>
    !s.tags.isEmpty || !s.containers.isEmpty
  | .container id => (m.container? id).any fun c => !c.tags.isEmpty || !c.components.isEmpty
  | .component id => (m.component? id).any fun c => !c.tags.isEmpty
  | .deploymentNode id => (m.deploymentNode? id).any (·.hasBody)
  | .infrastructureNode id => (m.infrastructureNode? id).any fun n =>
    !n.tags.isEmpty || !n.properties.isEmpty
  | .containerInstance id => (m.containerInstance? id).any (·.hasBody)

/-- The drawing of an element comes to an end. A node that is its own child is drawn inside itself
over and over. -/
def Ends (m : Model) : ElementId → Prop
  | .deploymentNode id => id ∉ m.childrenOf id
  | _ => True

end Model

theorem Tags.parts_eq_nil {t : Tags} : t.parts = [] ↔ t.isEmpty = true := by
  unfold Tags.parts
  split <;> simp [*]

theorem Properties.parts_eq_nil {p : Properties} : p.parts = [] ↔ p.isEmpty = true := by
  unfold Properties.parts
  split <;> simp [*]

theorem numberParts_eq_nil {keyword : String} {number : Option UInt32} :
    numberParts keyword number = [] ↔ number.isSome = false := by
  cases number <;> simp [numberParts]

theorem HealthCheck.hasBody_eq_false (check : HealthCheck) :
    check.hasBody = false ↔ check.parts = [] := by
  unfold HealthCheck.hasBody HealthCheck.parts
  simp only [Bool.or_eq_false_iff, Bool.not_eq_false', List.append_eq_nil_iff, numberParts_eq_nil,
    Properties.parts_eq_nil]

theorem Model.hasBody_eq_false (m : Model) (id : ElementId) :
    m.hasBody id = false ↔ m.parts id = [] := by
  unfold Model.hasBody Model.parts
  have found {α : Type} (entity : Option α) {test : α → Bool} {parts : α → List Part}
      (h : ∀ a, test a = false ↔ parts a = []) :
      entity.any test = false ↔ entity.elim [] parts = [] := by
    cases entity with
    | none => simp
    | some a => exact h a
  cases id <;> refine found _ fun entity => ?_ <;>
    simp only [DeploymentNode.hasBody, ContainerInstance.hasBody, Bool.or_eq_false_iff, Bool.not_eq_false', List.append_eq_nil_iff,
      List.map_eq_nil_iff, List.isEmpty_iff, numberParts_eq_nil, Tags.parts_eq_nil,
      Properties.parts_eq_nil]

@[simp] theorem Tags.element_not_mem_parts (t : Tags) (id : ElementId) :
    .element id ∉ t.parts := by
  unfold Tags.parts
  split <;> simp

@[simp] theorem Properties.element_not_mem_parts (p : Properties) (id : ElementId) :
    .element id ∉ p.parts := by
  unfold Properties.parts
  split <;> simp

@[simp] theorem element_not_mem_numberParts (keyword : String) (number : Option UInt32)
    (id : ElementId) : .element id ∉ numberParts keyword number := by
  cases number <;> simp [numberParts]

theorem Model.exists_parent_of_part {m : Model} {id : ElementId} {c : DeploymentNodeId}
    (h : .element (.deploymentNode c) ∈ m.parts id) :
    ∃ n, id = .deploymentNode n ∧ c ∈ m.childrenOf n := by
  unfold parts at h
  cases id with
  | deploymentNode n =>
    refine ⟨n, rfl, ?_⟩
    unfold childrenOf
    cases hn : m.deploymentNode? n with
    | none => simp [hn] at h
    | some node => simpa [hn] using h
  | person id => cases hp : m.person? id <;> simp [hp] at h
  | softwareSystem id => cases hs : m.softwareSystem? id <;> simp [hs] at h
  | container id => cases hc : m.container? id <;> simp [hc] at h
  | component id => cases hc : m.component? id <;> simp [hc] at h
  | infrastructureNode id => cases hn : m.infrastructureNode? id <;> simp [hn] at h
  | containerInstance id => cases hi : m.containerInstance? id <;> simp [hi] at h

theorem Model.ends_of_part {m : Model} (h : m.skeleton.Sound) {id other : ElementId}
    (hends : m.Ends id) (hother : .element other ∈ m.parts id) : m.Ends other := by
  cases other with
  | deploymentNode c =>
    obtain ⟨n, rfl, hc⟩ := exists_parent_of_part hother
    intro hself
    obtain rfl : n = c := Option.some.inj
      ((h.children.mem_iff.1 hc).symm.trans (h.children.mem_iff.1 hself))
    exact hends hc
  | _ => trivial

structure Draws (m : Model) (script : Script) (parts : List Part) : Prop where
  calls : firstStop script = none → callsOf script = parts.flatMap (·.calls m)
  resolved : firstStop script = none →
    ∀ id, .element id ∈ parts → firstStop (m.nestedScript id) = none

section Draws

variable {m : Model} {script more : Script} {parts later : List Part}

theorem draws_nil : Draws m [] [] where
  calls _ := rfl
  resolved _ _ hid := absurd hid List.not_mem_nil

theorem Draws.append (h : Draws m script parts) (hmore : Draws m more later) :
    Draws m (script ++ more) (parts ++ later) where
  calls hstop := by
    rw [firstStop_append, Option.or_eq_none_iff] at hstop
    rw [callsOf_append hstop.1, h.calls hstop.1, hmore.calls hstop.2, List.flatMap_append]
  resolved hstop id hid := by
    rw [firstStop_append, Option.or_eq_none_iff] at hstop
    rcases List.mem_append.1 hid with hid | hid
    · exact h.resolved hstop.1 id hid
    · exact hmore.resolved hstop.2 id hid

theorem draws_flatMap {α : Type} {f : α → Script} {part : α → Part} {l : List α}
    (h : ∀ a ∈ l, Draws m (f a) [part a]) : Draws m (l.flatMap f) (l.map part) := by
  induction l with
  | nil => exact draws_nil
  | cons a l ih =>
    obtain ⟨ha, hl⟩ := List.forall_mem_cons.1 h
    exact ha.append (ih hl)

theorem draws_own {part : Part} (hpart : ∀ id, part ≠ .element id)
    (h : callsOf script = part.calls m) : Draws m script [part] where
  calls _ := by rw [List.flatMap_singleton, h]
  resolved _ id hid := absurd (List.mem_singleton.1 hid).symm (hpart id)

theorem draws_elements {α : Type} {f : α → Script} {element : α → ElementId}
    (hf : ∀ a, f a = m.nestedScript (element a)) (l : List α) :
    Draws m (l.flatMap f) (l.map fun a => .element (element a)) := by
  refine draws_flatMap fun a _ => ⟨fun _ => ?_, fun hstop id hid => ?_⟩
  · rw [List.flatMap_singleton, Part.calls, hf]
  · obtain rfl : id = element a := by simpa using hid
    exact hf a ▸ hstop

theorem draws_checks (checks : List HealthCheck) :
    Draws m (checks.flatMap healthCheckScript) (checks.map .check) :=
  draws_flatMap fun check _ => draws_own (fun _ => nofun) (by rw [Part.calls])

theorem draws_tagScript (subject : Subject) (t : Tags) :
    Draws m (tagScript subject t) t.parts := by
  unfold tagScript Tags.parts
  split
  · exact draws_nil
  · exact draws_own (fun _ => nofun) rfl

theorem draws_propertyScript (subject : Subject) (p : Properties) :
    Draws m (propertyScript subject p) p.parts := by
  have hcalls := propertyCalls_eq subject p
  unfold propertyCalls propertyScript at hcalls
  unfold propertyScript Properties.parts
  split
  · exact draws_nil
  · next hempty =>
    have hentries : p.entries ≠ [] := fun h => hempty (List.isEmpty_iff.2 h)
    rw [if_neg hempty, if_neg hentries] at hcalls
    exact draws_own (fun _ => nofun) hcalls

theorem draws_numberScript (subject : Subject) (keyword : String) (number : Option UInt32) :
    Draws m (numberScript subject keyword number) (numberParts keyword number) := by
  cases number with
  | none => exact draws_nil
  | some n => exact draws_own (fun _ => nofun) rfl

end Draws

theorem callsOf_entity_ne_nil (subject : Subject) (header : String) (hasBody : Bool)
    (body : Script) : callsOf (Script.entity subject header hasBody body) ≠ [] := by
  cases hasBody with
  | false => exact List.cons_ne_nil _ _
  | true => exact List.cons_ne_nil _ _

theorem callsOf_notes (notes : List Record) (script : Script) :
    callsOf (notes.flatMap Script.note ++ script) = callsOf script := by
  induction notes with
  | nil => rfl
  | cons record notes ih => exact ih

theorem firstStop_notes (notes : List Record) (script : Script) :
    firstStop (notes.flatMap Script.note ++ script) = firstStop script := by
  induction notes with
  | nil => rfl
  | cons record notes ih => exact ih

namespace Model

variable {m : Model}

/-- An element that is drawn has a header and a body, and the body has the parts of the element.
Whether the body is drawn is asked of the element itself. -/
theorem exists_entity {id : ElementId} (hstop : firstStop (elementScript m id) = none) :
    ∃ name header body, ∃ notes : List Record, m.Headed id name header ∧
      Draws m body (m.parts id) ∧ elementScript m id = notes.flatMap Script.note ++
        Script.entity (.element id name) header (m.hasBody id) body := by
  have hmissing (error : RenderError) : firstStop (Script.stop error) ≠ none := nofun
  cases id with
  | person id =>
    cases hp : m.person? id with
    | none => simp [elementScript, personScript, hp, hmissing] at hstop
    | some p =>
      simp only [elementScript, personScript, hp] at hstop ⊢
      obtain ⟨t, ht⟩ := exists_token_of_firstStop hstop
      rw [ht, parts, hasBody, hp]
      exact ⟨_, _, _, [_], .person hp ht, draws_tagScript .., rfl⟩
  | softwareSystem id =>
    cases hs : m.softwareSystem? id with
    | none => simp [elementScript, softwareSystemScript, hs, hmissing] at hstop
    | some s =>
      simp only [elementScript, softwareSystemScript, hs] at hstop ⊢
      obtain ⟨t, ht⟩ := exists_token_of_firstStop hstop
      rw [ht, parts, hasBody, hs]
      exact ⟨_, _, _, [_], .softwareSystem hs ht,
        (draws_tagScript ..).append (draws_elements (fun _ => rfl) _), rfl⟩
  | container id =>
    cases hc : m.container? id with
    | none => simp [elementScript, containerScript, hc, hmissing] at hstop
    | some c =>
      simp only [elementScript, containerScript, hc] at hstop ⊢
      obtain ⟨t, ht⟩ := exists_token_of_firstStop hstop
      rw [ht, parts, hasBody, hc]
      exact ⟨_, _, _, [], .container hc ht,
        (draws_tagScript ..).append (draws_elements (fun _ => rfl) _), rfl⟩
  | component id =>
    cases hc : m.component? id with
    | none => simp [elementScript, componentScript, hc, hmissing] at hstop
    | some c =>
      simp only [elementScript, componentScript, hc] at hstop ⊢
      obtain ⟨t, ht⟩ := exists_token_of_firstStop hstop
      rw [ht, parts, hasBody, hc]
      exact ⟨_, _, _, [], .component hc ht, draws_tagScript .., rfl⟩
  | deploymentNode id =>
    cases hn : m.deploymentNode? id with
    | none => simp [elementScript, deploymentNodeScript, nestedNodeScript, hn, hmissing] at hstop
    | some n =>
      obtain ⟨depth, hdepth⟩ : ∃ depth, m.deploymentNodes.size = depth + 1 :=
        Nat.exists_eq_succ_of_ne_zero
          (Nat.ne_zero_of_lt (Array.getElem?_eq_some_iff.1 hn).1)
      have hnested (c : DeploymentNodeId) :
          nestedNodeScript m depth c = m.nestedScript (.deploymentNode c) := by
        rw [nestedScript, hdepth, Nat.add_sub_cancel]
      simp only [elementScript, deploymentNodeScript, hdepth, nestedNodeScript, nodeScript,
        hn] at hstop ⊢
      obtain ⟨t, ht⟩ := exists_token_of_firstStop hstop
      rw [ht, parts, hasBody, hn]
      exact ⟨_, _, _, [_], .deploymentNode hn ht,
        ((((draws_tagScript ..).append (draws_propertyScript ..)).append
          (draws_elements hnested _)).append (draws_elements (fun _ => rfl) _)).append
          (draws_elements (fun _ => rfl) _), rfl⟩
  | infrastructureNode id =>
    cases hn : m.infrastructureNode? id with
    | none => simp [elementScript, infrastructureNodeScript, hn, hmissing] at hstop
    | some n =>
      simp only [elementScript, infrastructureNodeScript, hn] at hstop ⊢
      obtain ⟨t, ht⟩ := exists_token_of_firstStop hstop
      rw [ht, parts, hasBody, hn]
      exact ⟨_, _, _, [], .infrastructureNode hn ht,
        (draws_tagScript ..).append (draws_propertyScript ..), rfl⟩
  | containerInstance id =>
    cases hi : m.containerInstance? id with
    | none => simp [elementScript, containerInstanceScript, hi, hmissing] at hstop
    | some i =>
      simp only [elementScript, containerInstanceScript, hi] at hstop ⊢
      obtain ⟨t, ht⟩ := exists_token_of_firstStop hstop
      rw [ht, Script.withToken] at hstop
      obtain ⟨container, hcontainer⟩ := exists_token_of_firstStop hstop
      obtain ⟨c, hc, hname⟩ := exists_container_of_token hi hcontainer
      rw [ht, Script.withToken, hcontainer, hname, parts, hasBody, hi]
      exact ⟨_, _, _, [], .containerInstance hi hc ht hcontainer,
        (((draws_tagScript ..).append (draws_propertyScript ..)).append
          (draws_numberScript ..)).append (draws_checks _), rfl⟩

theorem calls_nestedNodeScript_ne_nil {depth : ℕ} {id : DeploymentNodeId}
    (hstop : firstStop (nestedNodeScript m depth id) = none) :
    callsOf (nestedNodeScript m depth id) ≠ [] := by
  have hnode {n : DeploymentNode} {children : List DeploymentNodeId} {nested : Script}
      (hstop : firstStop (nodeScript m id n children nested) = none) :
      callsOf (nodeScript m id n children nested) ≠ [] := by
    unfold nodeScript at hstop ⊢
    obtain ⟨t, ht⟩ := exists_token_of_firstStop hstop
    rw [ht, Script.withToken]
    exact callsOf_entity_ne_nil _ _ _ _
  unfold nestedNodeScript at hstop ⊢
  cases hn : m.deploymentNode? id with
  | none =>
    rw [hn] at hstop
    cases hstop
  | some n =>
    rw [hn] at hstop
    cases depth with
    | zero => exact hnode hstop
    | succ depth => exact hnode hstop

theorem calls_nestedScript_ne_nil {id : ElementId}
    (hstop : firstStop (m.nestedScript id) = none) : callsOf (m.nestedScript id) ≠ [] := by
  have hdrawn {id : ElementId} (hid : m.nestedScript id = elementScript m id)
      (hstop : firstStop (m.nestedScript id) = none) : callsOf (m.nestedScript id) ≠ [] := by
    rw [hid] at hstop ⊢
    obtain ⟨name, header, body, notes, -, -, hscript⟩ := exists_entity hstop
    rw [hscript, callsOf_notes]
    exact callsOf_entity_ne_nil _ _ _ _
  cases id with
  | deploymentNode id => exact calls_nestedNodeScript_ne_nil hstop
  | _ => exact hdrawn rfl hstop

theorem nestedScript_of_ends (h : m.skeleton.Sound) {id other : ElementId} (hends : m.Ends id)
    (hother : .element other ∈ m.parts id) : m.nestedScript other = elementScript m other := by
  cases other with
  | deploymentNode c =>
    obtain ⟨n, rfl, hc⟩ := exists_parent_of_part hother
    have hparent : m.parentOf? c = some n := h.children.mem_iff.1 hc
    have hsize : n.index < m.deploymentNodes.size := (h.known c n hparent).2
    have hself : m.parentOf? n ≠ some n := fun hp => hends (h.children.mem_iff.2 hp)
    have hdepth : m.deploymentNodes.size ≤ [c, n].length + (m.deploymentNodes.size - 1) := by
      rw [List.length_cons, List.length_singleton]
      omega
    have hstep := nestedNodeItems_of_way h (fun _ _ => length_le_of_way_of_ne h hsize hself)
      (.up hparent .here) hdepth
    rw [Nat.sub_add_cancel (Nat.one_le_of_lt hsize)] at hstep
    rw [nestedScript, elementScript, deploymentNodeScript, ← eventsOf_nestedNodeItems,
      ← eventsOf_nestedNodeItems, hstep]
  | _ => rfl

end Model

/-- A single line if there is nothing to nest, and otherwise a block around the parts, each of
which makes a call. -/
structure Nested (header : String) (hasBody : Bool) (parts : List (List Directive))
    (calls : List Directive) : Prop where
  shape : calls =
    if hasBody then .opening header :: (parts.flatten ++ [.closing]) else [.line header]
  single : calls = [.line header] ↔ hasBody = false
  counted : hasBody = false ↔ parts = []
  filled : ∀ part ∈ parts, part ≠ []

theorem Draws.nested {m : Model} {subject : Subject} {header : String} {hasBody : Bool}
    {body : Script} {parts : List Part} (h : Draws m body parts)
    (hstop : hasBody = true → firstStop body = none) (hbody : hasBody = false ↔ parts = [])
    (hfilled : ∀ part ∈ parts, part.calls m ≠ []) :
    Nested header hasBody (parts.map (·.calls m))
      (callsOf (Script.entity subject header hasBody body)) := by
  have hshape : callsOf (Script.entity subject header hasBody body) =
      if hasBody then .opening header :: ((parts.map (·.calls m)).flatten ++ [.closing])
      else [.line header] := by
    cases hasBody with
    | false => rfl
    | true =>
      rw [Script.entity, if_pos rfl, if_pos rfl, callsOf_between (hstop rfl),
        h.calls (hstop rfl), List.flatMap_def]
  refine ⟨hshape, ?_, by rw [hbody, List.map_eq_nil_iff], List.forall_mem_map.2 hfilled⟩
  rw [hshape]
  cases hasBody with
  | false => exact iff_of_true rfl rfl
  | true => exact iff_of_false (by simp) Bool.noConfusion

theorem exists_content_opening (header : String) : ∃ c rest, c ≠ '\n' ∧
    (Directive.opening header).content.toList = header.toList ++ c :: rest := by
  have hcontent : (Directive.opening header).content =
      if header.isEmpty then "\x7b" else header ++ " \x7b" := rfl
  rw [hcontent]
  split
  · next hempty =>
    rw [String.isEmpty_iff.1 hempty]
    exact ⟨'\x7b', [], by decide, rfl⟩
  · exact ⟨' ', ['\x7b'], by decide, String.toList_append⟩

theorem row_zero (width : ℕ) (call : Directive) :
    call.row width 0 = call.content ++ "\n" := by
  cases call <;> simp [Directive.row, Directive.level]

theorem join_rowsFrom_opening_ne (width : ℕ) (header : String) (calls : List Directive) :
    String.join (rowsFrom width 0 (.opening header :: calls)) ≠ header ++ "\n" := by
  obtain ⟨c, rest, hc, hcontent⟩ := exists_content_opening header
  intro h
  have hlists := congrArg String.toList h
  have hbreak : "\n".toList = ['\n'] := rfl
  rw [rowsFrom, String.join_cons, row_zero, String.toList_append, String.toList_append, hcontent,
    String.toList_append, hbreak, List.append_assoc, List.append_assoc] at hlists
  exact hc (List.cons.inj (List.append_cancel_left hlists)).1

theorem Nested.text_eq_iff {header : String} {hasBody : Bool} {parts : List (List Directive)}
    {calls : List Directive} (h : Nested header hasBody parts calls) (width : ℕ) :
    String.join (rowsFrom width 0 calls) = header ++ "\n" ↔ hasBody = false := by
  rw [h.shape]
  cases hasBody with
  | false =>
    refine iff_of_true ?_ rfl
    rw [if_neg Bool.false_ne_true, rowsFrom, rowsFrom, String.join_cons, row_zero]
    exact String.append_empty
  | true => exact iff_of_false (join_rowsFrom_opening_ne width header _) Bool.noConfusion

theorem Part.calls_ne_nil {m : Model} {part : Part}
    (h : ∀ id, part = .element id → firstStop (m.nestedScript id) = none) :
    part.calls m ≠ [] := by
  cases part with
  | tags t | properties p | number keyword n => exact List.cons_ne_nil _ _
  | element id => exact Model.calls_nestedScript_ne_nil (h id rfl)
  | check c => exact callsOf_entity_ne_nil _ _ _ _

theorem Model.nested_of_firstStop {m : Model} {id : ElementId}
    (hstop : firstStop (elementScript m id) = none) :
    (∀ other, .element other ∈ m.parts id → firstStop (m.nestedScript other) = none) ∧
    ∃ name header, m.Headed id name header ∧
      Nested header (m.hasBody id) ((m.parts id).map (·.calls m))
        (callsOf (elementScript m id)) := by
  obtain ⟨name, header, body, notes, hheaded, hdraws, hscript⟩ := exists_entity hstop
  have hbody : m.hasBody id = true → firstStop body = none := by
    intro hsome
    rwa [hscript, firstStop_notes, hsome, Script.entity, if_pos rfl, firstStop_between] at hstop
  have hresolved : ∀ other, .element other ∈ m.parts id →
      firstStop (m.nestedScript other) = none := by
    intro other hother
    refine hdraws.resolved (hbody (eq_true_of_ne_false fun hnone => ?_)) other hother
    rw [(m.hasBody_eq_false id).1 hnone] at hother
    exact List.not_mem_nil hother
  refine ⟨hresolved, name, header, hheaded, ?_⟩
  rw [hscript, callsOf_notes]
  refine hdraws.nested hbody (m.hasBody_eq_false id) fun part hpart => ?_
  exact Part.calls_ne_nil fun other hother => hresolved other (hother ▸ hpart)

theorem HealthCheck.nested (m : Model) (check : HealthCheck) :
    Nested check.header check.hasBody (check.parts.map (·.calls m))
      (callsOf (healthCheckScript check)) := by
  have hdraws (subject : Subject) : Draws m (numberScript subject "interval" check.interval ++
      numberScript subject "timeout" check.timeout ++ propertyScript subject check.properties)
      check.parts :=
    ((draws_numberScript ..).append (draws_numberScript ..)).append (draws_propertyScript ..)
  have hstop (subject : Subject) : firstStop (numberScript subject "interval" check.interval ++
      numberScript subject "timeout" check.timeout ++
      propertyScript subject check.properties) = none := by
    have hitems : fault (numberLine subject "interval" check.interval ++
        numberLine subject "timeout" check.timeout ++
        propertyBlock subject check.properties) = none := by simp [fault_append]
    rwa [fault, eventsOf_append, eventsOf_append, eventsOf_numberLine, eventsOf_numberLine,
      eventsOf_propertyBlock] at hitems
  refine (hdraws _).nested (fun _ => hstop _) check.hasBody_eq_false fun part hpart => ?_
  refine Part.calls_ne_nil fun id hid => absurd hpart ?_
  simp [hid, HealthCheck.parts]

/-- An entity is a single line exactly if it has nothing to nest. Otherwise it is a block around
its tags, its properties, its numbers and what belongs to it, in this order, and each of these is
drawn. -/
theorem nesting_exact (w : Workspace) (l : Layout) (h : w.model.Reachable) :
    (∀ id text, (w.renderFragment (.element id) l).result = .ok text →
      ∃ name header, w.model.Headed id name header ∧
        let calls := callsOf (elementScript w.model id)
        Nested header (w.model.hasBody id) ((w.model.parts id).map (·.calls w.model)) calls ∧
        text = String.join (rowsFrom l.indentWidth 0 calls) ∧
        (text = header ++ "\n" ↔ w.model.hasBody id = false) ∧
        (w.model.Ends id → ∀ other, .element other ∈ w.model.parts id →
          w.model.Ends other ∧ (∃ own, (w.renderFragment (.element other) l).result = .ok own) ∧
          Part.calls w.model (.element other) = callsOf (elementScript w.model other))) ∧
    ∀ check : HealthCheck,
      Nested check.header check.hasBody (check.parts.map (·.calls w.model))
        (callsOf (healthCheckScript check)) := by
  refine ⟨fun id text htext => ?_, fun check => check.nested w.model⟩
  obtain ⟨hresolved, name, header, hheaded, hnested⟩ :=
    Model.nested_of_firstStop (firstStop_of_result htext)
  have hrows := rows_of_result htext
  refine ⟨name, header, hheaded, hnested, hrows, ?_, fun hends other hother => ?_⟩
  · rw [hrows]
    exact hnested.text_eq_iff l.indentWidth
  · have hscript := Model.nestedScript_of_ends h.sound hends hother
    have hstop := hresolved other hother
    rw [hscript] at hstop
    exact ⟨Model.ends_of_part h.sound hends hother, ⟨_, result_perform l hstop⟩,
      by rw [Part.calls, hscript]⟩

/-- A site carries a gate with nothing in it and an instance with a health check. -/
theorem nesting_exact_of_site :
    ∃ (w : Workspace) (site gate header : String) (check : HealthCheck), w.model.Reachable ∧
      (w.renderFragment (.element (.deploymentNode ⟨0⟩)) .standard).result = .ok site ∧
      site = "site = deploymentNode \"Site\" \x7b\n" ++
        "    gate = infrastructureNode \"Gate\"\n" ++
        "    siteLedger1 = containerInstance ledger \x7b\n" ++
        "        healthCheck \"Ping\" \"/ping\" \x7b\n" ++ "            interval 30\n" ++
        "        \x7d\n" ++ "    \x7d\n" ++ "\x7d\n" ∧
      w.model.Ends (.deploymentNode ⟨0⟩) ∧
      (∃ name header, w.model.Headed (.deploymentNode ⟨0⟩) name header ∧
        Nested header true ((w.model.parts (.deploymentNode ⟨0⟩)).map (·.calls w.model))
          (callsOf (elementScript w.model (.deploymentNode ⟨0⟩)))) ∧
      (w.renderFragment (.element (.infrastructureNode ⟨0⟩)) .standard).result = .ok gate ∧
      w.model.hasBody (.infrastructureNode ⟨0⟩) = false ∧ gate = header ++ "\n" ∧
      check.hasBody = true ∧ Nested check.header true (check.parts.map (·.calls w.model))
        (callsOf (healthCheckScript check)) := by
  let check := (HealthCheck.create "Ping" "/ping").set (.interval 30)
  let history : List Edit := [.addSoftwareSystem "Bank" "", .addContainer ⟨0⟩ "Ledger",
    .addDeploymentNode "Site" "" "" .production, .addInfrastructureNode ⟨0⟩ "Gate",
    .addContainerInstance ⟨0⟩ ⟨0⟩, .setContainerInstance ⟨0⟩ (.healthCheck check)]
  let w : Workspace := { Workspace.empty with
    model := (Model.empty.performAll history).getD .empty }
  have hreachable : w.model.Reachable := ⟨history, rfl⟩
  have hsite : (w.renderFragment (.element (.deploymentNode ⟨0⟩)) .standard).result =
      .ok ("site = deploymentNode \"Site\" \x7b\n" ++
        "    gate = infrastructureNode \"Gate\"\n" ++
        "    siteLedger1 = containerInstance ledger \x7b\n" ++
        "        healthCheck \"Ping\" \"/ping\" \x7b\n" ++ "            interval 30\n" ++
        "        \x7d\n" ++ "    \x7d\n" ++ "\x7d\n") := by decide +kernel
  have hgate : (w.renderFragment (.element (.infrastructureNode ⟨0⟩)) .standard).result =
      .ok "gate = infrastructureNode \"Gate\"\n" := by decide +kernel
  have hends : w.model.Ends (.deploymentNode ⟨0⟩) := by
    unfold Model.Ends
    decide +kernel
  have hbody : w.model.hasBody (.deploymentNode ⟨0⟩) = true := by decide +kernel
  have hbare : w.model.hasBody (.infrastructureNode ⟨0⟩) = false := by decide +kernel
  obtain ⟨helements, hchecks⟩ := nesting_exact w .standard hreachable
  obtain ⟨name, header, hheaded, hnested, -⟩ := helements _ _ hsite
  obtain ⟨-, own, -, -, -, hsingle, -⟩ := helements _ _ hgate
  exact ⟨w, _, _, own, check, hreachable, hsite, rfl, hends,
    ⟨name, header, hheaded, hbody ▸ hnested⟩, hgate, hbare, hsingle.2 hbare, rfl, hchecks check⟩

end C4
