import C4.Proofs.Assembly
import C4.Proofs.Discipline
import C4.Proofs.EnvironmentNames

/-!
# Environment blocks

What a document shows of environments. Every group of roots has a block, which is headed by the
name of its environment, and a view of an environment shows the roots of that one. Two environments
that bear the same name have a block each, and a view of the one leaves out the roots of the other.
-/
namespace C4

open Dsl

namespace Dsl

def Subject.environment? : Subject → Option String
  | .environment name => some name
  | _ => none

def environmentsIn (entries : List Entry) : List String :=
  entries.filterMap (·.subject.environment?)

def Placed.environment? (p : Placed) : Option String :=
  p.entries.head?.bind (·.subject.environment?)

def Placed.environmentHeader? (p : Placed) : Option String :=
  p.environment?.bind fun _ => p.directive.text?

theorem Placed.entries_eq_or (p : Placed) :
    p.entries = [] ∨ p.entries = [⟨p.around.owner?, p.subject⟩] := by
  rw [p.entries_eq]
  unfold entriesOf
  cases p.directive.text? with
  | none => exact Or.inl rfl
  | some text =>
    dsimp only
    split
    · exact Or.inr rfl
    · exact Or.inl rfl

theorem Placed.subject_of_environment? {p : Placed} {name : String}
    (h : p.environment? = some name) : p.subject.environment? = some name := by
  unfold Placed.environment? at h
  rcases p.entries_eq_or with he | he
  · rw [he] at h
    cases h
  · rwa [he] at h

theorem Placed.environment?_of_subject {p : Placed} (h : p.subject.environment? = none) :
    p.environment? = none := by
  cases hname : p.environment? with
  | none => rfl
  | some name =>
    rw [p.subject_of_environment? hname] at h
    cases h

theorem filterMap_environment? (placed : List Placed) :
    placed.filterMap Placed.environment? = environmentsIn (contents placed) := by
  induction placed with
  | nil => rfl
  | cons p rest ih =>
    have hcontents : contents (p :: rest) = p.entries ++ contents rest := rfl
    rw [hcontents, environmentsIn, List.filterMap_append, ← environmentsIn, ← environmentsIn, ← ih,
      List.filterMap_cons]
    unfold Placed.environment? environmentsIn
    rcases p.entries_eq_or with he | he
    · rw [he]
      rfl
    · rw [he]
      cases hname : p.subject.environment? <;> simp [hname]

@[simp] theorem environmentsIn_append (entries more : List Entry) :
    environmentsIn (entries ++ more) = environmentsIn entries ++ environmentsIn more :=
  List.filterMap_append

theorem environmentsIn_flatMap {α : Type*} (f : α → List Entry) (l : List α) :
    environmentsIn (l.flatMap f) = l.flatMap fun a => environmentsIn (f a) :=
  List.filterMap_flatMap

theorem environmentsIn_flatMap_eq_nil {α : Type*} {f : α → List Entry} {l : List α}
    (h : ∀ a, environmentsIn (f a) = []) : environmentsIn (l.flatMap f) = [] := by
  rw [environmentsIn_flatMap]
  exact List.flatMap_eq_nil_iff.2 fun a _ => h a

section Silent

variable (m : Model) (outer : Subject)

theorem environmentsIn_personContents (id : PersonId) :
    environmentsIn (m.personContents outer id) = [] := by
  unfold Model.personContents
  split <;> rfl

theorem environmentsIn_softwareSystemContents (id : SoftwareSystemId) :
    environmentsIn (m.softwareSystemContents outer id) = [] := by
  have component (outer : Subject) (id : ComponentId) :
      environmentsIn (m.componentContents outer id) = [] := by
    unfold Model.componentContents
    split <;> rfl
  have container (outer : Subject) (id : ContainerId) :
      environmentsIn (m.containerContents outer id) = [] := by
    unfold Model.containerContents
    split
    · rfl
    · exact environmentsIn_flatMap_eq_nil (component _)
  unfold Model.softwareSystemContents
  split
  · rfl
  · exact environmentsIn_flatMap_eq_nil (container _)

theorem environmentsIn_enterprise :
    environmentsIn (m.enterprise.elim [] m.enterpriseContents) = [] := by
  obtain he | ⟨e, he⟩ := Option.eq_none_or_eq_some m.enterprise
  · rw [he]
    rfl
  have hheader (rest : List Entry) :
      environmentsIn (⟨some .model, .enterprise e.name⟩ :: rest) = environmentsIn rest := rfl
  rw [he, Option.elim_some, Model.enterpriseContents, hheader, environmentsIn_append,
    List.append_eq_nil_iff]
  constructor
  · refine environmentsIn_flatMap_eq_nil fun id => ?_
    cases id with
    | person id => exact environmentsIn_personContents m _ id
    | _ => rfl
  · refine environmentsIn_flatMap_eq_nil fun id => ?_
    cases id with
    | softwareSystem id => exact environmentsIn_softwareSystemContents m _ id
    | _ => rfl

def Entry.InElement (e : Entry) : Prop :=
  e.subject.environment? = none ∧ ∃ i name, e.outer = some (.element i name)

theorem mem_infrastructureNodeContents {m : Model} {i : ElementId} {name : String}
    {id : InfrastructureNodeId} {e : Entry}
    (he : e ∈ m.infrastructureNodeContents (.element i name) id) : e.InElement := by
  unfold Model.infrastructureNodeContents at he
  split at he
  · cases he
  · rw [List.mem_singleton.1 he]
    exact ⟨rfl, _, _, rfl⟩

theorem mem_containerInstanceContents {m : Model} {i : ElementId} {name : String}
    {id : ContainerInstanceId} {e : Entry}
    (he : e ∈ m.containerInstanceContents (.element i name) id) : e.InElement := by
  unfold Model.containerInstanceContents at he
  split at he
  · cases he
  · rcases List.mem_cons.1 he with rfl | he
    · exact ⟨rfl, _, _, rfl⟩
    · obtain ⟨check, -, he⟩ := List.mem_flatMap.1 he
      rw [List.mem_singleton.1 he]
      exact ⟨rfl, _, _, rfl⟩

theorem inElement_carried {m : Model} {i : ElementId} {name : String} (n : DeploymentNode)
    {children : List Entry} (h : ∀ e ∈ children, e.InElement) :
    ∀ e ∈ children ++
      n.infrastructureNodes.flatMap (m.infrastructureNodeContents (.element i name)) ++
      n.containerInstances.flatMap (m.containerInstanceContents (.element i name)),
      e.InElement := by
  intro e he
  rw [List.mem_append, List.mem_append, List.mem_flatMap, List.mem_flatMap] at he
  rcases he with (he | ⟨i, -, he⟩) | ⟨i, -, he⟩
  · exact h e he
  · exact mem_infrastructureNodeContents he
  · exact mem_containerInstanceContents he

theorem nodeContents_of_none {m : Model} (depth : ℕ) (outer : Subject) {id : DeploymentNodeId}
    (hn : m.deploymentNode? id = none) : m.nodeContents depth outer id = [] := by
  unfold Model.nodeContents
  rw [hn]

theorem nodeContents_eq_cons {m : Model} (depth : ℕ) (outer : Subject) {id : DeploymentNodeId}
    {n : DeploymentNode} (hn : m.deploymentNode? id = some n) :
    ∃ below, m.nodeContents depth outer id = ⟨some outer, .element id n.name⟩ :: below ∧
      ∀ e ∈ below, e.InElement := by
  induction depth generalizing outer id n with
  | zero =>
    unfold Model.nodeContents
    rw [hn]
    exact ⟨_, rfl, inElement_carried n (List.forall_mem_nil _)⟩
  | succ depth ih =>
    unfold Model.nodeContents
    rw [hn]
    refine ⟨_, rfl, inElement_carried n fun e he => ?_⟩
    obtain ⟨c, -, he⟩ := List.mem_flatMap.1 he
    cases hc : m.deploymentNode? c with
    | none =>
      rw [nodeContents_of_none depth _ hc] at he
      cases he
    | some n' =>
      obtain ⟨below, hcontents, hbelow⟩ := ih (.element id n.name) hc
      rw [hcontents] at he
      rcases List.mem_cons.1 he with rfl | he
      · exact ⟨rfl, _, _, rfl⟩
      · exact hbelow e he

theorem mem_nodeContents {m : Model} (depth : ℕ) {outer : Subject} {id : DeploymentNodeId}
    {e : Entry} (he : e ∈ m.nodeContents depth outer id) :
    e.subject.environment? = none ∧
      ((∃ name, e = ⟨some outer, .element id name⟩) ∨
        ∃ j name, e.outer = some (.element j name)) := by
  cases hn : m.deploymentNode? id with
  | none =>
    rw [nodeContents_of_none depth outer hn] at he
    cases he
  | some n =>
    obtain ⟨below, hcontents, hbelow⟩ := nodeContents_eq_cons depth outer hn
    rw [hcontents] at he
    rcases List.mem_cons.1 he with rfl | he
    · exact ⟨rfl, Or.inl ⟨n.name, rfl⟩⟩
    · exact (hbelow e he).imp_right Or.inr

theorem environmentsIn_nodeContents (depth : ℕ) (id : DeploymentNodeId) :
    environmentsIn (m.nodeContents depth outer id) = [] :=
  List.filterMap_eq_nil_iff.2 fun _ he => (mem_nodeContents depth he).1

theorem environmentsIn_relationshipContents (id : RelationshipId) :
    environmentsIn (m.relationshipContents id) = [] := by
  unfold Model.relationshipContents
  split
  · rfl
  · split <;> rfl

end Silent

theorem environmentsIn_views (w : Workspace) : environmentsIn
    (w.views.ids.flatMap w.views.viewContents ++ Views.stylesContents w.views.styles) = [] := by
  have hview (id : ViewId) : environmentsIn (w.views.viewContents id) = [] := by
    unfold Views.viewContents
    split <;> rfl
  have hstyles : environmentsIn (Views.stylesContents w.views.styles) = [] := by
    unfold Views.stylesContents
    split
    · rfl
    · have hheader (rest : List Entry) :
          environmentsIn (⟨some .views, .styles⟩ :: rest) = environmentsIn rest := rfl
      rw [hheader, environmentsIn_append, List.append_eq_nil_iff]
      exact ⟨environmentsIn_flatMap_eq_nil fun _ => rfl, environmentsIn_flatMap_eq_nil fun _ => rfl⟩
  rw [environmentsIn_append, hstyles, environmentsIn_flatMap_eq_nil hview]
  rfl

theorem environmentsIn_environmentContents (m : Model) (g : Group) :
    environmentsIn (m.environmentContents g) = [g.1.name] := by
  have hheader (rest : List Entry) : environmentsIn (⟨some .model, .environment g.1.name⟩ :: rest) =
      g.1.name :: environmentsIn rest := rfl
  rw [Model.environmentContents, hheader,
    environmentsIn_flatMap_eq_nil fun id => environmentsIn_nodeContents m _ _ id]

theorem environmentsIn_contents (w : Workspace) :
    environmentsIn w.contents = (environmentGroups w.model).map fun g => g.1.name := by
  have hheader (rest more : List Entry) :
      environmentsIn (⟨none, w.subject⟩ :: (⟨some w.subject, .model⟩ :: rest ++
        ⟨some w.subject, .views⟩ :: more)) = environmentsIn rest ++ environmentsIn more := by
    rw [← environmentsIn_append]
    unfold environmentsIn
    simp [Subject.environment?, Workspace.subject]
  have hpeople := environmentsIn_flatMap_eq_nil (environmentsIn_personContents w.model .model)
    (l := w.model.personIds.filter fun id => w.model.isOutside (.person id))
  have hsystems := environmentsIn_flatMap_eq_nil
    (environmentsIn_softwareSystemContents w.model .model)
    (l := w.model.softwareSystemIds.filter fun id => w.model.isOutside (.softwareSystem id))
  have hrelationships := environmentsIn_flatMap_eq_nil
    (environmentsIn_relationshipContents w.model) (l := w.model.relationshipIds)
  rw [Workspace.contents, hheader, environmentsIn_views, environmentsIn_append, hrelationships,
    Model.elementContents, environmentsIn_append, environmentsIn_append, environmentsIn_append,
    hpeople, hsystems, environmentsIn_enterprise, environmentsIn_flatMap, List.append_nil,
    List.append_nil, List.nil_append, List.nil_append, List.nil_append, List.map_eq_flatMap]
  exact List.flatMap_congr fun g _ => environmentsIn_environmentContents w.model g

end Dsl

namespace Workspace

inductive Gathered (w : Workspace) : List Placed → Prop
  | nil : Gathered w []
  | cons {p : Placed} {rest : List Placed}
    (hp : ∀ name, p.environment? = some name → ∃ g ∈ environmentGroups w.model, g.1.name = name ∧
      fault (environmentItems w.model g) = none ∧
      placedOf p.around (environmentItems w.model g) <+: p :: rest)
    (hrest : Gathered w rest) : Gathered w (p :: rest)

variable {w : Workspace} {p : Placed} {rest placed : List Placed}

theorem Gathered.append (h : w.Gathered placed) (hrest : w.Gathered rest) :
    w.Gathered (placed ++ rest) := by
  induction h with
  | nil => exact hrest
  | @cons p placed hp _ ih =>
    refine .cons (fun name hname => ?_) ih
    obtain ⟨g, hg, hgroup, hfault, hblock⟩ := hp name hname
    exact ⟨g, hg, hgroup, hfault, hblock.trans (List.prefix_append (p :: placed) rest)⟩

theorem Gathered.cons_of_silent (hp : p.environment? = none) (hrest : w.Gathered rest) :
    w.Gathered (p :: rest) := by
  refine .cons (fun name hname => ?_) hrest
  rw [hp] at hname
  cases hname

theorem gathered_of_silent (h : ∀ p ∈ placed, p.environment? = none) : w.Gathered placed := by
  induction placed with
  | nil => exact .nil
  | cons p placed ih =>
    exact .cons_of_silent (h p List.mem_cons_self) (ih fun q hq => h q (List.mem_cons_of_mem _ hq))

theorem Gathered.starts {before after : List Placed} (h : w.Gathered (before ++ p :: after))
    {name : String} (hname : p.environment? = some name) :
    ∃ g ∈ environmentGroups w.model, g.1.name = name ∧
      fault (environmentItems w.model g) = none ∧
      placedOf p.around (environmentItems w.model g) <+: p :: after := by
  induction before with
  | nil =>
    cases h with
    | cons hp _ => exact hp name hname
  | cons q before ih =>
    cases h with
    | cons _ hrest => exact ih hrest

end Workspace

namespace Dsl

structure Gathering (w : Workspace) (around : Surround) (items : List Item) : Prop where
  gathered : fault items = none → w.Gathered (placedOf around items)

variable {w : Workspace} {around : Surround} {items rest : List Item}

theorem gathering_nil : Gathering w around [] := ⟨fun _ => .nil⟩

theorem gathering_append (h : Gathering w around items) (hrest : Gathering w around rest) :
    Gathering w around (items ++ rest) := by
  constructor
  intro hfault
  rw [fault_append, Option.or_eq_none_iff] at hfault
  rw [placedOf_append]
  exact (h.gathered hfault.1).append (hrest.gathered hfault.2)

theorem compositional_gathering : Compositional (Gathering w around) :=
  ⟨gathering_nil, gathering_append⟩

theorem gathering_note_cons {record : Record} (h : Gathering w around items) :
    Gathering w around (.note record :: items) := by
  constructor
  intro hfault
  rw [fault_note_cons] at hfault
  exact h.gathered hfault

theorem gathering_of_fits {entries : List Entry} (h : Fits w around items entries)
    (hentries : environmentsIn entries = []) : Gathering w around items := by
  constructor
  intro hfault
  have hnone : (placedOf around items).filterMap Placed.environment? = [] := by
    rw [filterMap_environment?, h.complete hfault, hentries]
  exact Workspace.gathered_of_silent (List.filterMap_eq_nil_iff.1 hnone)

theorem gathering_block {subject : Subject} {header : String}
    (hopen : fault items = none → ∀ name,
      (⟨around, subject, .opening header⟩ : Placed).environment? = some name →
      ∃ g ∈ environmentGroups w.model, g.1.name = name ∧
        fault (environmentItems w.model g) = none ∧
        placedOf around (environmentItems w.model g) <+:
          placedOf around [.block subject header items])
    (hbody : Gathering w ((subject, header) :: around) items) :
    Gathering w around [.block subject header items] := by
  constructor
  intro hfault
  rw [fault_block] at hfault
  rw [placedOf_block] at hopen ⊢
  refine .cons (hopen hfault) ((hbody.gathered hfault).append ?_)
  refine Workspace.gathered_of_silent fun p hp => ?_
  obtain rfl := List.mem_singleton.1 hp
  rfl

theorem gathering_block_of_silent {subject : Subject} {header : String}
    (hsubject : subject.environment? = none)
    (hbody : Gathering w ((subject, header) :: around) items) :
    Gathering w around [.block subject header items] := by
  refine gathering_block (fun _ name hname => ?_) hbody
  rw [Placed.environment?_of_subject hsubject] at hname
  cases hname

theorem fits_environmentBody {g : Group} (hg : g ∈ environmentGroups w.model) :
    Fits w ((.environment g.1.name, environmentHeader g.1.name) :: around)
      (g.2.flatMap (deploymentNodeItems w.model))
      (g.2.flatMap
        (w.model.nodeContents w.model.deploymentNodes.size (.environment g.1.name))) := by
  refine fits_flatMap fun id hid => ?_
  obtain ⟨hroot, n, hn, henvironment⟩ := (gathers_of_mem hg).2 id hid
  refine fits_nestedNodeItems _ ⟨hroot, ?_⟩ (keyword_ne_properties (by decide) _)
  rw [hn, ← henvironment]
  rfl

theorem gathering_environmentItems {g : Group} (hg : g ∈ environmentGroups w.model) :
    Gathering w around (environmentItems w.model g) := by
  refine gathering_note_cons (gathering_block (fun hfault name hname => ?_)
    (gathering_of_fits (fits_environmentBody hg)
      (environmentsIn_flatMap_eq_nil fun id => environmentsIn_nodeContents w.model _ _ id)))
  obtain rfl := Option.some.inj (Placed.subject_of_environment? hname)
  refine ⟨g, hg, rfl, ?_, List.prefix_rfl⟩
  rwa [environmentItems, fault_note_cons, fault_block]

theorem gathering_environmentsItems : Gathering w around (environmentsItems w.model) := by
  unfold environmentsItems
  split
  · exact gathering_of_fits (fits_dangling _) (rfl : environmentsIn [] = [])
  · exact compositional_gathering.flatMap fun g hg => gathering_environmentItems hg

theorem gathering_modelBlock (l : Layout) :
    Gathering w [(w.subject, w.headerLine)] [modelBlock l w.model] := by
  refine gathering_block_of_silent rfl (compositional_gathering.spaced
    (gathering_of_fits (fits_separator ..) rfl) ?_)
  have hfits : List.Forall₂ (Fits w ((.model, "model") :: [(w.subject, w.headerLine)]))
      (modelSections w.model) _ := fits_modelSections (by decide)
  rw [modelSections] at hfits ⊢
  simp only [List.forall₂_cons, List.forall_mem_cons] at hfits ⊢
  obtain ⟨hproperties, hpeople, hsystems, henterprise, -, hrelationships, -⟩ := hfits
  refine ⟨gathering_of_fits hproperties rfl, gathering_of_fits hpeople ?_,
    gathering_of_fits hsystems ?_, gathering_of_fits henterprise ?_,
    gathering_environmentsItems, gathering_of_fits hrelationships ?_, List.forall_mem_nil _⟩
  · exact environmentsIn_flatMap_eq_nil fun id => environmentsIn_personContents w.model _ id
  · exact environmentsIn_flatMap_eq_nil fun id => environmentsIn_softwareSystemContents w.model _ id
  · exact environmentsIn_enterprise w.model
  · exact environmentsIn_flatMap_eq_nil fun id => environmentsIn_relationshipContents w.model id

theorem gathering_outline (w : Workspace) (l : Layout) : Gathering w [] (w.outline l) := by
  refine gathering_append (gathering_of_fits (fits_map_own fun record _ => fits_note record) rfl) ?_
  refine gathering_note_cons (gathering_block_of_silent rfl (gathering_note_cons ?_))
  refine gathering_append (gathering_modelBlock l) (gathering_note_cons (gathering_note_cons ?_))
  refine gathering_append (gathering_of_fits (fits_viewsBlock w l) ?_)
    (gathering_note_cons gathering_nil)
  exact environmentsIn_views w

/-- A root is introduced directly in the block of an environment of that name. -/
def StandsIn (body : List Placed) (name : String) (id : DeploymentNodeId) : Prop :=
  ∃ q ∈ body, q.around.owner? = some (.environment name) ∧
    q.entity? = some (.element (.deploymentNode id))

/-- A directive opens the block of an environment of that name, and what follows it begins with the
rest of this block. -/
structure Placed.Heads (p : Placed) (name : String) (body after : List Placed) : Prop where
  subject : p.subject = .environment name
  header : p.directive = .opening (environmentHeader name)
  balanced : Balanced (body.map (·.directive))
  closed : body ++ [⟨(.environment name, environmentHeader name) :: p.around, .environment name,
    .closing⟩] <+: after

theorem exists_introducing_iff {placed : List Placed} {outer : Option Subject} {r : Reference} :
    (∃ q ∈ placed, q.around.owner? = outer ∧ q.entity? = some r) ↔
      ∃ e ∈ contents placed, e.outer = outer ∧ e.subject.reference? = some r := by
  constructor
  · rintro ⟨q, hq, howner, hr⟩
    unfold Placed.entity? at hr
    rcases q.entries_eq_or with he | he
    · rw [he] at hr
      cases hr
    · rw [he] at hr
      refine ⟨⟨q.around.owner?, q.subject⟩, List.mem_flatMap.2 ⟨q, hq, ?_⟩, howner, hr⟩
      rw [he]
      exact List.mem_singleton_self _
  · rintro ⟨e, he, howner, hr⟩
    obtain ⟨q, hq, hmem⟩ := List.mem_flatMap.1 he
    rcases q.entries_eq_or with hentries | hentries
    · rw [hentries] at hmem
      cases hmem
    · rw [hentries] at hmem
      obtain rfl := List.mem_singleton.1 hmem
      refine ⟨q, hq, howner, ?_⟩
      rw [Placed.entity?, hentries]
      exact hr

theorem head_mem_nodeContents {m : Model} (depth : ℕ) (outer : Subject) {id : DeploymentNodeId}
    {n : DeploymentNode} (hn : m.deploymentNode? id = some n) :
    (⟨some outer, .element id n.name⟩ : Entry) ∈ m.nodeContents depth outer id := by
  obtain ⟨below, hcontents, -⟩ := nodeContents_eq_cons depth outer hn
  rw [hcontents]
  exact List.mem_cons_self

theorem standsIn_iff {g : Group} (hg : g ∈ environmentGroups w.model)
    (hfault : fault (g.2.flatMap (deploymentNodeItems w.model)) = none) {id : DeploymentNodeId} :
    StandsIn (placedOf ((.environment g.1.name, environmentHeader g.1.name) :: around)
      (g.2.flatMap (deploymentNodeItems w.model))) g.1.name id ↔ id ∈ g.2 := by
  rw [StandsIn, exists_introducing_iff, (fits_environmentBody hg).complete hfault]
  constructor
  · rintro ⟨e, he, houter, hr⟩
    obtain ⟨root, hroot, he⟩ := List.mem_flatMap.1 he
    obtain ⟨-, ⟨name, rfl⟩ | ⟨j, name, hj⟩⟩ := mem_nodeContents _ he
    · cases hr
      exact hroot
    · rw [hj] at houter
      cases houter
  · intro hid
    obtain ⟨-, n, hn, -⟩ := (gathers_of_mem hg).2 id hid
    exact ⟨_, List.mem_flatMap.2 ⟨id, hid, head_mem_nodeContents _ _ hn⟩, rfl, rfl⟩

end Dsl

namespace Workspace

variable {w : Workspace} {l : Layout}

theorem balanced_roots {ids : List DeploymentNodeId}
    (h : fault (ids.flatMap (deploymentNodeItems w.model)) = none) (around : Surround) :
    Balanced ((placedOf around (ids.flatMap (deploymentNodeItems w.model))).map
      (·.directive)) := by
  have hscript := eventsOf_flatMap (eventsOf_deploymentNodeItems w.model) ids
  rw [← placedFrom_eventsOf, ← callsOf_eq_map_placedFrom h, hscript]
  exact (orderly_flatMap fun id _ => orderly_nestedNodeScript w.model _ id).balances (hscript ▸ h)

theorem exists_block (h : w.model.skeleton.Sound) (hfault : fault (w.outline l) = none)
    {before after : List Placed} {p : Placed} (hsplit : w.placed l = before ++ p :: after)
    {name : String} (hname : p.environment? = some name) :
    ∃ environment body, environment.name = name ∧ w.model.deploymentNodesIn environment ≠ [] ∧
      p.Heads name body after ∧
      ∀ id, StandsIn body name id ↔ id ∈ w.model.deploymentNodesIn environment := by
  have hgathered := (gathering_outline w l).gathered hfault
  rw [← placed_of_fault hfault, hsplit] at hgathered
  obtain ⟨g, hg, rfl, hgroup, hblock⟩ := hgathered.starts hname
  rw [environmentItems, fault_note_cons, fault_block] at hgroup
  rw [environmentItems, placedOf_cons, placed_note, List.nil_append, placedOf_block, enclosed,
    List.cons_prefix_cons] at hblock
  obtain ⟨hp, hclosed⟩ := hblock
  obtain ⟨id, hid⟩ := List.exists_mem_of_ne_nil _ (gathers_of_mem hg).1
  refine ⟨g.1, _, rfl, List.ne_nil_of_mem ((mem_group_iff h hg).1 hid),
    ⟨hp ▸ rfl, hp ▸ rfl, balanced_roots hgroup _, hclosed⟩, fun id => ?_⟩
  exact (standsIn_iff hg hgroup).trans (mem_group_iff h hg)

theorem headers_eq (h : w.model.skeleton.Sound) (hfault : fault (w.outline l) = none) :
    (w.placed l).filterMap Placed.environmentHeader? =
      ((environmentGroups w.model).map fun g => g.1.name).map environmentHeader := by
  have hheader : ∀ p ∈ w.placed l,
      p.environmentHeader? = p.environment?.map environmentHeader := by
    intro p hp
    obtain ⟨before, after, hsplit⟩ := List.append_of_mem hp
    unfold Placed.environmentHeader?
    cases hname : p.environment? with
    | none => rfl
    | some name =>
      obtain ⟨_, _, -, -, hheads, -⟩ := exists_block h hfault hsplit hname
      simp [hheads.header, Directive.text?]
  rw [List.filterMap_congr hheader, ← List.map_filterMap, filterMap_environment?,
    placed_of_fault hfault, (fits_outline w l).complete hfault, environmentsIn_contents]

theorem mem_completed {α : Type} [DecidableEq α] {listed available : List α} {a : α} :
    a ∈ completed listed available ↔ a ∈ listed ∨ a ∈ available := by
  unfold completed
  induction available generalizing listed with
  | nil => simp
  | cons b rest ih =>
    rw [List.foldl_cons, ih, List.mem_cons]
    split
    · next hb =>
      have hmem : b ∈ listed := List.contains_iff_mem.1 hb
      constructor
      · exact fun ha => ha.imp_right Or.inr
      · rintro (ha | rfl | ha)
        · exact Or.inl ha
        · exact Or.inl hmem
        · exact Or.inr ha
    · rw [List.mem_append, List.mem_singleton, or_assoc]

theorem mem_shownElements {m : Model} {v : DeploymentView} (hall : v.allDeploymentNodes = true)
    {id : DeploymentNodeId} : .deploymentNode id ∈ shownElements m v ↔
      .deploymentNode id ∈ v.elements ∨ id ∈ m.deploymentNodesIn v.environment := by
  rw [shownElements, if_pos hall, mem_completed, List.mem_map]
  constructor
  · rintro (hid | ⟨other, hother, hsame⟩)
    · exact Or.inl hid
    · cases hsame
      exact Or.inr hother
  · exact fun hid => hid.imp_right fun hmem => ⟨id, hmem, rfl⟩

def deploymentViewPlace (w : Workspace) (index : ℕ) (v : DeploymentView) : Surround :=
  (viewSubject (.deployment index) v.header, "deploymentView") :: w.inViews

theorem mem_placed_of_view (hfault : fault (w.outline l) = none) {id : ViewId}
    (hid : id ∈ w.views.ids) {subject : Subject} {header text : String} {body : List Item}
    (hitems : viewItems w.model w.views id = [.block subject header body])
    (hline : .line subject text ∈ body) :
    ⟨(subject, header) :: w.inViews, subject, .line text⟩ ∈ w.placed l := by
  have hpart : w.slice w.inViews (.view id) ∈ w.viewParts w.inViews :=
    List.mem_append_left _ (List.mem_map_of_mem hid)
  refine (infix_of_mem_viewParts hfault hpart).subset ?_
  have hslice := placedOf_eq_slice (fault_of_view hfault hid) w.inViews
  rw [← hslice, Fragment.outline, hitems, placedOf_block]
  refine List.mem_cons_of_mem _ (List.mem_append_left _ (List.mem_flatMap.2 ⟨_, hline, ?_⟩))
  rw [placed_line]
  exact List.mem_singleton_self _

theorem mem_ids_of_deployment {index : ℕ} {v : DeploymentView}
    (hv : w.views.deployment[index]? = some v) : .deployment index ∈ w.views.ids := by
  obtain ⟨hindex, -⟩ := Array.getElem?_eq_some_iff.1 hv
  simp [Views.ids, hindex]

theorem viewItems_deployment {index : ℕ} {v : DeploymentView}
    (hv : w.views.deployment[index]? = some v) :
    viewItems w.model w.views (.deployment index) =
      deploymentViewItems w.model (.deployment index) v := by
  simp [viewItems, hv]

theorem deploymentView_lines (hfault : fault (w.outline l) = none) {index : ℕ}
    {v : DeploymentView} (hv : w.views.deployment[index]? = some v) :
    ⟨w.deploymentViewPlace index v, viewSubject (.deployment index) v.header,
        .line ("environment " ++ quote v.environment.name)⟩ ∈ w.placed l ∧
      ∀ e ∈ shownElements w.model v, ∃ token, w.model.token e = .ok token ∧
        ⟨w.deploymentViewPlace index v, viewSubject (.deployment index) v.header,
          .line ("include " ++ token)⟩ ∈ w.placed l := by
  have hid := mem_ids_of_deployment hv
  have hitems := viewItems_deployment hv
  obtain ⟨body, hblock, henvironment, hinclude⟩ : ∃ body,
      deploymentViewItems w.model (.deployment index) v =
        [.block (viewSubject (.deployment index) v.header) "deploymentView" body] ∧
      .line (viewSubject (.deployment index) v.header)
        ("environment " ++ quote v.environment.name) ∈ body ∧
      ∀ e ∈ shownElements w.model v,
        includeItems (viewSubject (.deployment index) v.header) (w.model.token e) <:+: body := by
    refine ⟨_, rfl, List.mem_append_right _ List.mem_cons_self, fun e he => ?_⟩
    refine (infix_flatMap (fun e => includeItems _ (w.model.token e)) he).trans ?_
    refine .trans ?_ (List.suffix_append ..).isInfix
    refine .trans ?_ (List.suffix_cons ..).isInfix
    exact .trans (List.suffix_append ..).isInfix (List.prefix_append ..).isInfix
  have hbody : fault body = none := by
    have hview := fault_of_view hfault hid
    rwa [Fragment.outline, hitems, hblock, fault_block] at hview
  refine ⟨mem_placed_of_view hfault hid (hitems.trans hblock) henvironment, fun e he => ?_⟩
  have hown := hinclude e he
  cases htoken : w.model.token e with
  | error error =>
    have hnone := fault_of_isInfix hown hbody
    rw [htoken, includeItems, withToken, fault_dangling] at hnone
    cases hnone
  | ok token =>
    rw [htoken] at hown
    refine ⟨token, rfl, mem_placed_of_view hfault hid (hitems.trans hblock) ?_⟩
    exact hown.subset List.mem_cons_self

/-- Every block is headed by a name of its own, and all roots whose environment bears this name
stand in it. -/
structure OneBlockEach (w : Workspace) (l : Layout) : Prop where
  headers : ((w.placed l).filterMap Placed.environmentHeader?).Nodup
  blocks : ∀ before p after, w.placed l = before ++ p :: after →
    ∀ name, p.environment? = some name → ∃ body, p.Heads name body after ∧
      ∀ environment : Environment, environment.name = name →
        ∀ id ∈ w.model.deploymentNodesIn environment, StandsIn body name id

/-- A view that shows all nodes of its environment shows all roots of every environment that has
the same name. -/
def ShowsNamed (w : Workspace) (v : DeploymentView) : Prop :=
  ∀ environment : Environment, environment.name = v.environment.name →
    ∀ id ∈ w.model.deploymentNodesIn environment, .deploymentNode id ∈ shownElements w.model v

/-- What a finished document makes of environments. -/
structure DrawsEnvironments (w : Workspace) (l : Layout) : Prop where
  headers : ((w.placed l).filterMap Placed.environmentHeader?).Nodup ↔ w.model.NamesEnvironments
  block : ∀ before p after, w.placed l = before ++ p :: after →
    ∀ name, p.environment? = some name → ∃ environment body, environment.name = name ∧
      p.Heads name body after ∧
      ∀ id, StandsIn body name id ↔ id ∈ w.model.deploymentNodesIn environment
  one : w.OneBlockEach l ↔ w.model.NamesEnvironments
  view : ∀ index v, w.views.deployment[index]? = some v →
    ⟨w.deploymentViewPlace index v, viewSubject (.deployment index) v.header,
        .line ("environment " ++ quote v.environment.name)⟩ ∈ w.placed l ∧
      (∀ e ∈ shownElements w.model v, ∃ token, w.model.token e = .ok token ∧
        ⟨w.deploymentViewPlace index v, viewSubject (.deployment index) v.header,
          .line ("include " ++ token)⟩ ∈ w.placed l) ∧
      (v.allDeploymentNodes = true → (w.ShowsNamed v ↔
        ∀ environment : Environment, environment.name = v.environment.name →
          environment ≠ v.environment → ∀ id ∈ w.model.deploymentNodesIn environment,
            .deploymentNode id ∈ v.elements))

theorem showsNamed_iff {v : DeploymentView} (hall : v.allDeploymentNodes = true) :
    w.ShowsNamed v ↔
      ∀ environment : Environment, environment.name = v.environment.name →
        environment ≠ v.environment → ∀ id ∈ w.model.deploymentNodesIn environment,
          .deploymentNode id ∈ v.elements := by
  constructor
  · intro hshows environment hname hne id hid
    have hshown := (mem_shownElements hall).1 (hshows environment hname id hid)
    refine hshown.resolve_right fun hown => ?_
    obtain ⟨-, n, hn, henvironment⟩ := Model.mem_deploymentNodesIn.1 hid
    obtain ⟨-, n', hn', hview⟩ := Model.mem_deploymentNodesIn.1 hown
    obtain rfl : n = n' := Option.some.inj (hn.symm.trans hn')
    exact hne (henvironment.symm.trans hview)
  · intro hlisted environment hname id hid
    rw [mem_shownElements hall]
    by_cases hsame : environment = v.environment
    · exact Or.inr (hsame ▸ hid)
    · exact Or.inl (hlisted environment hname hsame id hid)

theorem DrawsEnvironments.of_fault (h : w.model.skeleton.Sound)
    (hfault : fault (w.outline l) = none) : w.DrawsEnvironments l := by
  have hheaders : ((w.placed l).filterMap Placed.environmentHeader?).Nodup ↔
      w.model.NamesEnvironments := by
    rw [headers_eq h hfault, List.nodup_map_iff environmentHeader_injective]
    exact nodup_names_iff h
  refine ⟨hheaders, ?block, ⟨fun hone => hheaders.1 hone.headers, ?one⟩, ?view⟩
  case block =>
    intro before p after hsplit name hname
    obtain ⟨environment, body, hsame, -, hheads, hstands⟩ := exists_block h hfault hsplit hname
    exact ⟨environment, body, hsame, hheads, hstands⟩
  case one =>
    intro hnames
    refine ⟨hheaders.2 hnames, fun before p after hsplit name hname => ?_⟩
    obtain ⟨own, body, rfl, hown, hheads, hstands⟩ := exists_block h hfault hsplit hname
    refine ⟨body, hheads, fun environment hsame id hid => ?_⟩
    have henvironment := hnames environment own (List.ne_nil_of_mem hid) hown hsame
    exact (hstands id).2 (henvironment ▸ hid)
  case view =>
    intro index v hv
    obtain ⟨henvironment, hinclude⟩ := deploymentView_lines hfault hv
    exact ⟨henvironment, hinclude, showsNamed_iff⟩

end Workspace

/-- A finished document has one block for each name of an environment exactly if no two of the
environments that roots are in have the same name. -/
theorem environments_drawn (w : Workspace) (l : Layout) (hm : w.model.Reachable)
    (hok : ∃ text, (w.render l).result = .ok text) : w.DrawsEnvironments l :=
  .of_fault hm.sound (Workspace.outcome_ok_iff_fault.1 (Workspace.exists_result_iff.1 hok))

/-- Two roots share an environment, and the view of it shows both. -/
theorem environments_drawn_of_shared_environment :
    ∃ (w : Workspace) (v : DeploymentView), w.model.Reachable ∧
      (∃ text, (w.render .standard).result = .ok text) ∧ w.DrawsEnvironments .standard ∧
      (w.placed .standard).filterMap Placed.environmentHeader? =
        ["deploymentEnvironment \"Production\"", "deploymentEnvironment \"Lab\""] ∧
      w.OneBlockEach .standard ∧ w.views.deployment[0]? = some v ∧
      v.allDeploymentNodes = true ∧ w.ShowsNamed v ∧
      shownElements w.model v = [.deploymentNode ⟨0⟩, .deploymentNode ⟨2⟩] := by
  let history : List Edit := [.addDeploymentNode "Rack" "" "" .production,
    .addDeploymentNode "Bench" "" "" (.custom "Lab"),
    .addDeploymentNode "Spare" "" "" (.ofName "PRODUCTION")]
  let view : DeploymentView :=
    { DeploymentView.create none .production (.create "" "") with allDeploymentNodes := true }
  obtain ⟨w, hm, hview, hfault, hroots, hheaders, hshown⟩ : ∃ w : Workspace,
      Model.empty.performAll history = some w.model ∧ w.views.deployment[0]? = some view ∧
      fault (w.outline .standard) = none ∧ w.model.deploymentNodesIn .production ≠ [] ∧
      (w.placed .standard).filterMap Placed.environmentHeader? =
        ["deploymentEnvironment \"Production\"", "deploymentEnvironment \"Lab\""] ∧
      shownElements w.model view = [.deploymentNode ⟨0⟩, .deploymentNode ⟨2⟩] :=
    ⟨{ Workspace.empty with
      model := (Model.empty.performAll history).getD .empty
      views := { Views.empty with deployment := #[view] } }, by decide +kernel⟩
  have hreachable : w.model.Reachable := ⟨history, hm⟩
  have hok : ∃ text, (w.render .standard).result = .ok text :=
    Workspace.exists_result_iff.2 (Workspace.outcome_ok_iff_fault.2 hfault)
  have hdrawn := environments_drawn w .standard hreachable hok
  have hnames : w.model.NamesEnvironments := hdrawn.headers.1 (by rw [hheaders]; decide)
  have hshows : w.ShowsNamed view := by
    intro environment hname id hid
    obtain rfl : environment = .production :=
      hnames environment .production (List.ne_nil_of_mem hid) hroots hname
    exact (Workspace.mem_shownElements rfl).2 (Or.inr hid)
  exact ⟨w, view, hreachable, hok, hdrawn, hheaders, hdrawn.one.2 hnames, hview, rfl, hshows,
    hshown⟩

/-- A custom environment that bears the name of a well-known one. -/
theorem environment_headed_twice :
    ∃ (w : Workspace) (v : DeploymentView), w.model.Reachable ∧
      (∃ text, (w.render .standard).result = .ok text) ∧ ¬ w.OneBlockEach .standard ∧
      w.views.deployment[0]? = some v ∧ v.allDeploymentNodes = true ∧ ¬ w.ShowsNamed v := by
  let history : List Edit := [.addDeploymentNode "Rack" "" "" .production,
    .addDeploymentNode "Spare" "" "" (.custom "Production")]
  let view : DeploymentView :=
    { DeploymentView.create none .production (.create "" "") with allDeploymentNodes := true }
  obtain ⟨w, hm, hview, hfault, hheaders, hroot, hshown⟩ : ∃ w : Workspace,
      Model.empty.performAll history = some w.model ∧ w.views.deployment[0]? = some view ∧
      fault (w.outline .standard) = none ∧
      ¬ ((w.placed .standard).filterMap Placed.environmentHeader?).Nodup ∧
      ⟨1⟩ ∈ w.model.deploymentNodesIn (.custom "Production") ∧
      .deploymentNode ⟨1⟩ ∉ shownElements w.model view :=
    ⟨{ Workspace.empty with
      model := (Model.empty.performAll history).getD .empty
      views := { Views.empty with deployment := #[view] } }, by decide +kernel⟩
  refine ⟨w, view, ⟨history, hm⟩,
    Workspace.exists_result_iff.2 (Workspace.outcome_ok_iff_fault.2 hfault),
    fun hone => hheaders hone.headers, hview, rfl, fun hshows => hshown ?_⟩
  exact hshows (.custom "Production") rfl _ hroot

end C4
