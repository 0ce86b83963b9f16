import C4.Proofs.Calls
import C4.Proofs.FailFast

/-!
# Block discipline

The writer counts the blocks that are open, and nothing but the calls of the emitters keeps the
count right. Each emitter that comes to an end has made balanced calls: those that leave the
braces to a block of an entity, and those that open and close blocks themselves, which are the
properties and the steps of a dynamic view. Only the first and the last phase of a document are
not balanced by themselves. So the count is never zero when a block is closed, and a closing brace
stands where its header does.
-/
namespace C4

open Dsl

namespace Dsl

/-- How the emitters put their scripts together: what is opened is closed behind what stands inside,
and nothing warns. -/
inductive Orderly : Script → Prop
  | nil : Orderly []
  | line (subject : Subject) (text : String) : Orderly (Script.line subject text)
  | gap (subject : Subject) : Orderly (Script.gap subject)
  | note {record : Record} (h : record.level ≠ .warn) : Orderly (Script.note record)
  | stop (error : RenderError) : Orderly (Script.stop error)
  | between {body : Script} (h : Orderly body) (subject : Subject) (header : String) :
    Orderly (Script.opening subject header ++ body ++ Script.closing subject)
  | append {script more : Script} (h : Orderly script) (hmore : Orderly more) :
    Orderly (script ++ more)

section Orderly

variable {subject : Subject}

theorem orderly_flatMap {α : Type*} {f : α → Script} {l : List α} (h : ∀ a ∈ l, Orderly (f a)) :
    Orderly (l.flatMap f) := by
  induction l with
  | nil => exact .nil
  | cons a rest ih =>
    rw [List.flatMap_cons]
    exact (h a List.mem_cons_self).append (ih fun b hb => h b (List.mem_cons_of_mem _ hb))

theorem Orderly.entity {body : Script} (h : Orderly body) (header : String) (hasBody : Bool) :
    Orderly (Script.entity subject header hasBody body) := by
  unfold Script.entity
  split
  · exact h.between subject header
  · exact .line subject header

theorem Orderly.block {body : Script} (h : Orderly body) (header : String) :
    Orderly (Script.block subject header body) := h.entity header true

theorem orderly_withToken {token : Except RenderError String} {draw : String → Script}
    (h : ∀ t, Orderly (draw t)) : Orderly (Script.withToken token draw) := by
  cases token with
  | error e => exact .stop e
  | ok t => exact h t

theorem orderly_ite {condition : Prop} [Decidable condition] {script more : Script}
    (h : Orderly script) (hmore : Orderly more) :
    Orderly (if condition then script else more) := by
  split
  · exact h
  · exact hmore

theorem orderly_sections {separator : Script} {sections : List Section}
    (hseparator : Orderly separator) (h : ∀ s ∈ sections, Orderly s.script) (first : Bool) :
    Orderly (Script.sections separator first sections) := by
  induction sections generalizing first with
  | nil => exact .nil
  | cons s rest ih =>
    obtain ⟨hs, hrest⟩ := List.forall_mem_cons.1 h
    unfold Script.sections
    split
    · exact ((orderly_ite .nil hseparator).append hs).append (ih hrest false)
    · exact ih hrest first

theorem orderly_tagScript (tags : Tags) : Orderly (tagScript subject tags) :=
  orderly_ite .nil (.line _ _)

theorem orderly_propertyScript (properties : Properties) :
    Orderly (propertyScript subject properties) := by
  refine orderly_ite .nil (.between ?_ subject "properties")
  exact orderly_flatMap fun entry _ => .line _ _

variable (m : Model)

theorem orderly_personScript (id : PersonId) : Orderly (personScript m id) := by
  unfold personScript
  split
  · exact .stop _
  · exact orderly_withToken fun t => (Orderly.note (by simp)).append ((orderly_tagScript _).entity _ _)

theorem orderly_componentScript (id : ComponentId) : Orderly (componentScript m id) := by
  unfold componentScript
  split
  · exact .stop _
  · exact orderly_withToken fun t => (orderly_tagScript _).entity _ _

theorem orderly_containerScript (id : ContainerId) : Orderly (containerScript m id) := by
  unfold containerScript
  split
  · exact .stop _
  · refine orderly_withToken fun t => Orderly.entity ?_ _ _
    exact (orderly_tagScript _).append (orderly_flatMap fun c _ => orderly_componentScript m c)

theorem orderly_softwareSystemScript (id : SoftwareSystemId) :
    Orderly (softwareSystemScript m id) := by
  unfold softwareSystemScript
  split
  · exact .stop _
  · refine orderly_withToken fun t => (Orderly.note (by simp)).append (Orderly.entity ?_ _ _)
    exact (orderly_tagScript _).append (orderly_flatMap fun c _ => orderly_containerScript m c)

theorem orderly_enterpriseScript (e : Enterprise) : Orderly (enterpriseScript m e) := by
  refine Orderly.block (((orderly_propertyScript _).append (orderly_flatMap fun id _ => ?_)).append
    (orderly_flatMap fun id _ => ?_)) _
  · cases id with
    | person id => exact orderly_personScript m id
    | _ => exact .nil
  · cases id with
    | softwareSystem id => exact orderly_softwareSystemScript m id
    | _ => exact .nil

theorem orderly_relationshipScript (id : RelationshipId) :
    Orderly (relationshipScript m id) := by
  unfold relationshipScript
  split
  · exact .stop _
  · exact orderly_withToken fun _ => .line _ _

theorem orderly_infrastructureNodeScript (id : InfrastructureNodeId) :
    Orderly (infrastructureNodeScript m id) := by
  unfold infrastructureNodeScript
  split
  · exact .stop _
  · refine orderly_withToken fun t => Orderly.entity ?_ _ _
    exact (orderly_tagScript _).append (orderly_propertyScript _)

theorem orderly_numberScript (keyword : String) (number : Option UInt32) :
    Orderly (numberScript subject keyword number) := by
  cases number with
  | none => exact .nil
  | some n => exact .line _ _

theorem orderly_healthCheckScript (check : HealthCheck) : Orderly (healthCheckScript check) :=
  (((orderly_numberScript _ _).append (orderly_numberScript _ _)).append
    (orderly_propertyScript _)).entity _ _

theorem orderly_containerInstanceScript (id : ContainerInstanceId) :
    Orderly (containerInstanceScript m id) := by
  unfold containerInstanceScript
  split
  · exact .stop _
  · refine orderly_withToken fun t => orderly_withToken fun container => Orderly.entity ?_ _ _
    exact (((orderly_tagScript _).append (orderly_propertyScript _)).append
      (orderly_numberScript _ _)).append
      (orderly_flatMap fun check _ => orderly_healthCheckScript check)

theorem Orderly.node {nested : Script} (h : Orderly nested) (id : DeploymentNodeId)
    (n : DeploymentNode) (children : List DeploymentNodeId) :
    Orderly (nodeScript m id n children nested) := by
  refine orderly_withToken fun t => (Orderly.note (by simp)).append (Orderly.entity ?_ _ _)
  exact ((((orderly_tagScript _).append (orderly_propertyScript _)).append h).append
    (orderly_flatMap fun i _ => orderly_infrastructureNodeScript m i)).append
    (orderly_flatMap fun i _ => orderly_containerInstanceScript m i)

theorem orderly_nestedNodeScript (depth : ℕ) (id : DeploymentNodeId) :
    Orderly (nestedNodeScript m depth id) := by
  induction depth generalizing id with
  | zero =>
    unfold nestedNodeScript
    split
    · exact .stop _
    · exact Orderly.nil.node m _ _ _
  | succ depth ih =>
    unfold nestedNodeScript
    split
    · exact .stop _
    · exact (orderly_flatMap fun child _ => ih child).node m _ _ _

theorem orderly_environmentScript (group : Group) : Orderly (environmentScript m group) :=
  (Orderly.note (by simp)).append
    (Orderly.block (orderly_flatMap fun id _ => orderly_nestedNodeScript m _ id) _)

theorem orderly_environmentsScript : Orderly (environmentsScript m) := by
  unfold environmentsScript
  split
  · exact .stop _
  · exact orderly_flatMap fun group _ => orderly_environmentScript m group

theorem orderly_autoLayoutScript (header : ViewHeader) :
    Orderly (autoLayoutScript subject header) :=
  orderly_ite (.line _ _) .nil

theorem orderly_quotedScript (keyword : String) (text : Option String) :
    Orderly (quotedScript subject keyword text) := by
  cases text with
  | none => exact .nil
  | some t => exact .line _ _

theorem orderly_keyScript (header : ViewHeader) : Orderly (keyScript subject header) :=
  (orderly_quotedScript _ _).append (orderly_quotedScript _ _)

theorem orderly_includeScript (token : Except RenderError String) :
    Orderly (includeScript subject token) :=
  orderly_withToken fun _ => .line _ _

theorem orderly_inclusionScript (i : Inclusions) : Orderly (inclusionScript m subject i) := by
  have hflags : Orderly (flagScript subject i) :=
    orderly_ite (.line _ _) ((orderly_ite (.line _ _) .nil).append
      (orderly_ite (.line _ _) .nil))
  exact (hflags.append (orderly_flatMap fun id _ => orderly_includeScript _)).append
    (orderly_flatMap fun e _ => orderly_includeScript _)

theorem orderly_staticViewScript (id : ViewId) (scope : ElementId) (header : ViewHeader)
    (i : Inclusions) : Orderly (staticViewScript m id scope header i) :=
  orderly_withToken fun _ =>
    Orderly.block ((orderly_inclusionScript m i).append (orderly_autoLayoutScript _)) _

theorem orderly_stepScript (step : DynamicStep) : Orderly (stepScript m subject step) :=
  orderly_withToken fun _ => .line _ _

/-- A round of the loop closes the blocks that it opens, one for the stretch and one for each of its
steps. -/
theorem orderly_stepLoop (steps : List DynamicStep) (stretches : List Stretch)
    (limit index : ℕ) : Orderly (stepLoop m subject steps stretches limit index) := by
  induction limit generalizing index with
  | zero => exact .nil
  | succ limit ih =>
    unfold stepLoop
    split
    · exact .nil
    · split
      · exact (orderly_stepScript m _).append (ih _)
      · refine (Orderly.between (orderly_flatMap fun step _ => ?_) subject "").append (ih _)
        exact (orderly_stepScript m step).between subject ""

theorem orderly_dynamicViewScript (id : ViewId) (v : DynamicView) :
    Orderly (dynamicViewScript m id v) :=
  orderly_withToken fun _ =>
    Orderly.block ((orderly_stepLoop m _ _ _ _).append (orderly_autoLayoutScript _)) _

theorem orderly_deploymentViewScript (id : ViewId) (v : DeploymentView) :
    Orderly (deploymentViewScript m id v) := by
  refine Orderly.block (((((Orderly.append ?scope (.line _ _)).append
    (orderly_keyScript _)).append (orderly_autoLayoutScript _)).append
    (orderly_flatMap fun id _ => orderly_includeScript _)).append
    (orderly_flatMap fun id _ => orderly_includeScript _)) _
  cases v.scope with
  | none => exact .nil
  | some system => exact orderly_withToken fun _ => .line _ _

theorem orderly_filteredViewScript (vs : Views) (id : ViewId) (v : FilteredView) :
    Orderly (filteredViewScript vs id v) := by
  refine (orderly_ite (.note (by simp)) .nil).append (Orderly.block ?_ _)
  exact ((((orderly_quotedScript _ _).append (orderly_quotedScript _ _)).append
    (orderly_keyScript _)).append (orderly_flatMap fun f _ => .line _ _)).append
    (orderly_autoLayoutScript _)

theorem orderly_viewScript (vs : Views) (id : ViewId) : Orderly (viewScript m vs id) := by
  cases id with
  | systemContext | container | component =>
    exact getD_map_of (motive := Orderly) (.stop _) fun v _ => orderly_staticViewScript m _ _ _ _
  | dynamic =>
    exact getD_map_of (motive := Orderly) (.stop _) fun v _ => orderly_dynamicViewScript m _ v
  | deployment =>
    exact getD_map_of (motive := Orderly) (.stop _) fun v _ => orderly_deploymentViewScript m _ v
  | filtered =>
    exact getD_map_of (motive := Orderly) (.stop _) fun v _ => orderly_filteredViewScript vs _ v

theorem orderly_styleScript (tag : String) (lines : List String) :
    Orderly (styleScript subject tag lines) :=
  Orderly.block (orderly_flatMap fun _ _ => .line _ _) _

theorem orderly_stylesScript (s : Styles) : Orderly (stylesScript s) := by
  refine orderly_ite .nil ((Orderly.note (by simp)).append (Orderly.block ?_ _))
  exact (orderly_flatMap fun style _ => orderly_styleScript _ _).append
    (orderly_flatMap fun style _ => orderly_styleScript _ _)

theorem orderly_separatorScript (l : Layout) : Orderly (l.separatorScript subject) :=
  orderly_ite (.gap _) .nil

theorem orderly_modelSectionScripts : ∀ s ∈ modelSectionScripts m, Orderly s.script := by
  simp only [modelSectionScripts, List.forall_mem_cons]
  refine ⟨orderly_propertyScript _, orderly_flatMap fun id _ => orderly_personScript m id,
    orderly_flatMap fun id _ => orderly_softwareSystemScript m id, ?enterprise,
    orderly_environmentsScript m, orderly_flatMap fun id _ => orderly_relationshipScript m id,
    List.forall_mem_nil _⟩
  cases m.enterprise with
  | none => exact .nil
  | some e => exact orderly_enterpriseScript m e

theorem orderly_modelScript (l : Layout) : Orderly (modelScript l m) :=
  Orderly.block (orderly_sections (orderly_separatorScript l)
    (orderly_modelSectionScripts m) true) _

theorem orderly_viewSectionScripts (vs : Views) :
    ∀ s ∈ viewSectionScripts m vs, Orderly s.script := by
  intro s hs
  rcases List.mem_append.1 hs with hs | hs
  · obtain ⟨id, -, rfl⟩ := List.mem_map.1 hs
    exact orderly_viewScript m vs id
  · obtain rfl := List.mem_singleton.1 hs
    exact orderly_stylesScript _

theorem orderly_viewsScript (l : Layout) (vs : Views) : Orderly (viewsScript l m vs) :=
  (Orderly.note (by simp)).append (Orderly.block (orderly_sections (orderly_separatorScript l)
    (orderly_viewSectionScripts m vs) true) _)

theorem orderly_of_holds {sections : List Section} {items : List (List Item)}
    (h : List.Forall₂ Section.Holds sections items) (horderly : ∀ s ∈ sections, Orderly s.script) :
    ∀ own ∈ items, Orderly (eventsOf own) := by
  induction h with
  | nil => exact List.forall_mem_nil _
  | cons hs _ ih =>
    obtain ⟨hown, hrest⟩ := List.forall_mem_cons.1 horderly
    exact List.forall_mem_cons.2 ⟨hs.2 ▸ hown, ih hrest⟩

end Orderly

def Balances (script : Script) : Prop := firstStop script = none → Balanced (callsOf script)

theorem Balances.append {script more : Script} (h : Balances script) (hmore : Balances more) :
    Balances (script ++ more) := by
  intro hstop
  rw [firstStop_append, Option.or_eq_none_iff] at hstop
  rw [callsOf_append hstop.1]
  exact (h hstop.1).append (hmore hstop.2)

theorem balances_notes (records : List Record) : Balances (records.flatMap Script.note) := by
  induction records with
  | nil => exact fun _ => .nil
  | cons record records ih =>
    have hnote : Balances (Script.note record) := fun _ => .nil
    exact hnote.append ih

theorem Orderly.balances {script : Script} (h : Orderly script) : Balances script := by
  induction h with
  | nil => exact fun _ => .nil
  | line => exact fun _ => .line .nil
  | gap => exact fun _ => .gap .nil
  | note => exact fun _ => .nil
  | stop => exact nofun
  | between h subject header ih =>
    intro hstop
    rw [firstStop_between] at hstop
    rw [callsOf_between hstop]
    exact .block (ih hstop) .nil
  | append h hmore ih ihmore => exact ih.append ihmore

theorem Orderly.quiet {script : Script} (h : Orderly script) :
    ∀ record, .note record ∈ script → record.level ≠ .warn := by
  induction h with
  | nil => exact fun _ h => nomatch h
  | line | gap | stop =>
    intro record hrecord
    cases List.mem_singleton.1 hrecord
  | note h =>
    intro record hrecord
    cases List.mem_singleton.1 hrecord
    exact h
  | between h subject header ih =>
    intro record hrecord
    simp only [Script.opening, Script.closing, List.mem_append, List.mem_singleton, reduceCtorEq,
      false_or, or_false] at hrecord
    exact ih record hrecord
  | append h hmore ih ihmore =>
    intro record hrecord
    rcases List.mem_append.1 hrecord with hrecord | hrecord
    · exact ih record hrecord
    · exact ihmore record hrecord

/-- What draws a part of a document, with what it is told to draw. -/
inductive Emitter
  | tags (subject : Subject) (tags : Tags)
  | properties (subject : Subject) (properties : Properties)
  | person (id : PersonId)
  | softwareSystem (id : SoftwareSystemId)
  | container (id : ContainerId)
  | component (id : ComponentId)
  | enterprise (e : Enterprise)
  | relationship (id : RelationshipId)
  | environments
  | deploymentNode (depth : ℕ) (id : DeploymentNodeId)
  | infrastructureNode (id : InfrastructureNodeId)
  | containerInstance (id : ContainerInstanceId)
  | healthCheck (check : HealthCheck)
  | view (id : ViewId)
  | staticView (id : ViewId) (scope : ElementId) (header : ViewHeader) (inclusions : Inclusions)
  | dynamicView (id : ViewId) (v : DynamicView)
  | deploymentView (id : ViewId) (v : DeploymentView)
  | filteredView (id : ViewId) (v : FilteredView)
  | inclusions (subject : Subject) (inclusions : Inclusions)
  | key (subject : Subject) (header : ViewHeader)
  | autoLayout (subject : Subject) (header : ViewHeader)
  | style (subject : Subject) (tag : String) (lines : List String)
  | styles
  | gap (subject : Subject)
  | model
  | views
  | workspace

def Emitter.script (w : Workspace) (l : Layout) : Emitter → Script
  | tags subject own => tagScript subject own
  | properties subject own => propertyScript subject own
  | person id => personScript w.model id
  | softwareSystem id => softwareSystemScript w.model id
  | container id => containerScript w.model id
  | component id => componentScript w.model id
  | enterprise e => enterpriseScript w.model e
  | relationship id => relationshipScript w.model id
  | environments => environmentsScript w.model
  | deploymentNode depth id => nestedNodeScript w.model depth id
  | infrastructureNode id => infrastructureNodeScript w.model id
  | containerInstance id => containerInstanceScript w.model id
  | healthCheck check => healthCheckScript check
  | view id => viewScript w.model w.views id
  | staticView id scope header i => staticViewScript w.model id scope header i
  | dynamicView id v => dynamicViewScript w.model id v
  | deploymentView id v => deploymentViewScript w.model id v
  | filteredView id v => filteredViewScript w.views id v
  | inclusions subject i => inclusionScript w.model subject i
  | key subject header => keyScript subject header
  | autoLayout subject header => autoLayoutScript subject header
  | style subject tag lines => styleScript subject tag lines
  | styles => stylesScript w.views.styles
  | gap subject => l.separatorScript subject
  | model => modelScript l w.model
  | views => viewsScript l w.model w.views
  | workspace => w.script l

end Dsl

namespace Workspace

variable (w : Workspace) (l : Layout)

/-- The phases between the first and the last one are orderly, and these two are so together. -/
theorem orderly_phasesScript : Orderly (w.phasesScript l) := by
  have hphases : w.phasesScript l = Script.note Phase.header.record ++
      (Script.opening w.subject w.headerLine ++
        (Script.note Phase.model.record ++ modelScript l w.model ++
          (Script.note Phase.views.record ++ viewsScript l w.model w.views) ++
          Script.note Phase.close.record) ++
        Script.closing w.subject) := by
    simp [phasesScript, phaseScript, Phase.sequence]
  rw [hphases]
  refine (Orderly.note (by decide)).append (.between ?_ w.subject w.headerLine)
  exact (((Orderly.note (by decide)).append (orderly_modelScript _ l)).append
    ((Orderly.note (by decide)).append (orderly_viewsScript _ l _))).append (.note (by decide))

theorem balances_script : Balances (w.script l) :=
  (balances_notes _).append (w.orderly_phasesScript l).balances

theorem orderly_emitter {e : Emitter} (he : e ≠ .workspace) : Orderly (e.script w l) := by
  cases e with
  | tags => exact orderly_tagScript _
  | properties => exact orderly_propertyScript _
  | person id => exact orderly_personScript _ id
  | softwareSystem id => exact orderly_softwareSystemScript _ id
  | container id => exact orderly_containerScript _ id
  | component id => exact orderly_componentScript _ id
  | enterprise e => exact orderly_enterpriseScript _ e
  | relationship id => exact orderly_relationshipScript _ id
  | environments => exact orderly_environmentsScript _
  | deploymentNode depth id => exact orderly_nestedNodeScript _ depth id
  | infrastructureNode id => exact orderly_infrastructureNodeScript _ id
  | containerInstance id => exact orderly_containerInstanceScript _ id
  | healthCheck check => exact orderly_healthCheckScript check
  | view id => exact orderly_viewScript _ _ id
  | staticView => exact orderly_staticViewScript _ _ _ _ _
  | dynamicView => exact orderly_dynamicViewScript _ _ _
  | deploymentView => exact orderly_deploymentViewScript _ _ _
  | filteredView => exact orderly_filteredViewScript _ _ _
  | inclusions => exact orderly_inclusionScript _ _
  | key => exact orderly_keyScript _
  | autoLayout => exact orderly_autoLayoutScript _
  | style => exact orderly_styleScript _ _
  | styles => exact orderly_stylesScript _
  | gap => exact orderly_separatorScript l
  | model => exact orderly_modelScript _ l
  | views => exact orderly_viewsScript _ l _
  | workspace => exact absurd rfl he

theorem balances_emitter (e : Emitter) : Balances (e.script w l) := by
  by_cases he : e = .workspace
  · rw [he]
    exact w.balances_script l
  · exact (w.orderly_emitter l he).balances

theorem orderly_fragment (f : Fragment) : Orderly (f.script w) := by
  cases f with
  | element id =>
    cases id with
    | person id => exact orderly_personScript _ id
    | softwareSystem id => exact orderly_softwareSystemScript _ id
    | container id => exact orderly_containerScript _ id
    | component id => exact orderly_componentScript _ id
    | deploymentNode id => exact orderly_nestedNodeScript _ _ id
    | infrastructureNode id => exact orderly_infrastructureNodeScript _ id
    | containerInstance id => exact orderly_containerInstanceScript _ id
  | relationship id => exact orderly_relationshipScript _ id
  | view id => exact orderly_viewScript _ _ id
  | styles => exact orderly_stylesScript _

end Workspace

namespace Dsl

/-- How some calls that start with `depth` blocks open keep count of them, and the text that they
make. -/
structure Disciplined (width depth : ℕ) (calls : List Directive) (text : String) : Prop where
  /-- A brace closes a block that has been opened, and stands at the level of its header. -/
  closes : ∀ before after, calls = before ++ .closing :: after →
    ∃ outer header body, before = outer ++ .opening header :: body ∧ Balanced body ∧
      depth < depthAfterAll depth before ∧
      Directive.closing.level (depthAfterAll depth before) =
        (Directive.opening header).level (depthAfterAll depth outer)
  ends : depthAfterAll depth calls = depth
  rows : text = String.join (rowsFrom width depth calls)

theorem disciplined_of_result {l : Layout} {depth : ℕ} {script : Script} {text : String}
    (hbalances : Balances script) (h : (perform l .unlimited depth script).1.result = .ok text) :
    Disciplined l.indentWidth depth (callsOf script) text := by
  have hbalanced := hbalances (firstStop_of_result h)
  refine ⟨fun before after hsplit => ?_, hbalanced.depthAfterAll_eq depth, rows_of_result h⟩
  obtain ⟨outer, header, body, hbefore, hbody⟩ := hbalanced.exists_opening before after hsplit
  have hdepth : depthAfterAll depth before = depthAfterAll depth outer + 1 := by
    rw [hbefore, depthAfterAll_append]
    exact hbody.depthAfterAll_eq _
  have houter : depth ≤ depthAfterAll depth outer :=
    hbalanced.le_depthAfterAll depth (by rw [hsplit, hbefore, List.append_assoc])
  refine ⟨outer, header, body, hbefore, hbody, ?_, ?_⟩
  · omega
  · exact (congrArg (· - 1) hdepth).trans (Nat.add_sub_cancel ..)

end Dsl

/-- Every rendering that succeeds keeps its blocks in order, and so does every emitter, wherever it
is called: it leaves as many blocks open as there were. The first phase of a document opens the
block that the last one closes. -/
theorem blocks_disciplined (w : Workspace) (l : Layout) :
    (∀ text, (w.render l).result = .ok text →
      Disciplined l.indentWidth 0 (callsOf (w.script l)) text) ∧
    (∀ f text, (w.renderFragment f l).result = .ok text →
      Disciplined l.indentWidth 0 (callsOf (f.script w)) text) ∧
    (∀ (e : Emitter) depth text, (perform l .unlimited depth (e.script w l)).1.result = .ok text →
      Disciplined l.indentWidth depth (callsOf (e.script w l)) text) ∧
    ∀ depth, depthAfterAll depth (callsOf (w.phaseScript l .header)) = depth + 1 ∧
      depthAfterAll (depth + 1) (callsOf (w.phaseScript l .close)) = depth :=
  ⟨fun _ => disciplined_of_result (w.balances_script l),
    fun f _ => disciplined_of_result (w.orderly_fragment f).balances,
    fun e _ _ => disciplined_of_result (w.balances_emitter l e), fun _ => ⟨rfl, rfl⟩⟩

/-- Properties, steps that run in parallel and a tag, in the document; the view, written below two
blocks, and the person by themselves. -/
theorem blocks_disciplined_of_parallel_steps :
    ∃ (w : Workspace) (text view own : String), w.model.Reachable ∧
      (w.render .standard).result = .ok text ∧
      text = "workspace \x7b\n" ++ "    model \x7b\n" ++ "        properties \x7b\n" ++
        "            owner \"arch\"\n" ++ "        \x7d\n" ++
        "        user = person \"User\" \x7b\n" ++ "            tags \"Core\"\n" ++
        "        \x7d\n" ++ "    \x7d\n" ++ "    views \x7b\n" ++
        "        dynamic * \x7b\n" ++ "            \x7b\n" ++ "                \x7b\n" ++
        "                    user -> user \"Asks\"\n" ++ "                \x7d\n" ++
        "            \x7d\n" ++ "        \x7d\n" ++ "    \x7d\n" ++ "\x7d\n" ∧
      Disciplined 4 0 (callsOf (w.script .standard)) text ∧
      (perform .standard .unlimited 2 (viewScript w.model w.views (.dynamic 0))).1.result =
        .ok view ∧
      view = "        dynamic * \x7b\n" ++ "            \x7b\n" ++ "                \x7b\n" ++
        "                    user -> user \"Asks\"\n" ++ "                \x7d\n" ++
        "            \x7d\n" ++ "        \x7d\n" ∧
      Disciplined 4 2 (callsOf (viewScript w.model w.views (.dynamic 0))) view ∧
      (w.renderFragment (.element (.person ⟨0⟩)) .standard).result = .ok own ∧
      own = "user = person \"User\" \x7b\n" ++ "    tags \"Core\"\n" ++ "\x7d\n" ∧
      Disciplined 4 0 (callsOf (personScript w.model ⟨0⟩)) own := by
  let history : List Edit :=
    [.setProperty "owner" "arch", .addPerson "User" "", .setPerson ⟨0⟩ (.tag "Core")]
  let v : DynamicView := [.startParallel, .step (.person ⟨0⟩) (.person ⟨0⟩) "Asks" none].foldl
    DynamicView.set (.create none (.create "" ""))
  let w : Workspace := { Workspace.empty with
    model := (Model.empty.performAll history).getD .empty
    views := { Views.empty with dynamic := #[v] } }
  have htext : (w.render .standard).result = .ok ("workspace \x7b\n" ++ "    model \x7b\n" ++
      "        properties \x7b\n" ++ "            owner \"arch\"\n" ++ "        \x7d\n" ++
      "        user = person \"User\" \x7b\n" ++ "            tags \"Core\"\n" ++
      "        \x7d\n" ++ "    \x7d\n" ++ "    views \x7b\n" ++
      "        dynamic * \x7b\n" ++ "            \x7b\n" ++ "                \x7b\n" ++
      "                    user -> user \"Asks\"\n" ++ "                \x7d\n" ++
      "            \x7d\n" ++ "        \x7d\n" ++ "    \x7d\n" ++ "\x7d\n") := by
    decide +kernel
  have hview : (perform .standard .unlimited 2
      (viewScript w.model w.views (.dynamic 0))).1.result =
      .ok ("        dynamic * \x7b\n" ++ "            \x7b\n" ++ "                \x7b\n" ++
        "                    user -> user \"Asks\"\n" ++ "                \x7d\n" ++
        "            \x7d\n" ++ "        \x7d\n") := by decide +kernel
  have hown : (w.renderFragment (.element (.person ⟨0⟩)) .standard).result =
      .ok ("user = person \"User\" \x7b\n" ++ "    tags \"Core\"\n" ++ "\x7d\n") := by
    decide +kernel
  obtain ⟨hdocument, hfragment, hemitter, -⟩ := blocks_disciplined w .standard
  exact ⟨w, _, _, _, ⟨history, rfl⟩, htext, rfl, hdocument _ htext, hview, rfl,
    hemitter (.view (.dynamic 0)) 2 _ hview, hown, rfl, hfragment _ _ hown⟩

end C4
