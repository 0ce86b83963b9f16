import C4.Proofs.Walks

/-!
# Coverage

Where the environment of a deployment node comes from. Some operations cover nodes: the one that
creates a node, and those that impose an environment on a node and on everything below it. A node
is in the environment that the latest operation to cover it gave, and it is pinned if and only if
one other than its creation has covered it.
-/
namespace C4

open Forest

inductive Cover
  | creation (environment : Environment)
  | imposition (environment : Environment)
deriving DecidableEq

/-- How an operation on `m` covers a node, if it does. What a node is below is judged before the
operation, and so is the environment of a parent. -/
def Edit.cover? (m : Model) (n : DeploymentNodeId) : Edit → Option Cover
  | createDeploymentNode _ _ _ environment | addDeploymentNode _ _ _ environment
  | addChildDeploymentNode _ _ _ _ environment =>
    if n = m.skeleton.fresh then some (.creation environment) else none
  | addChildNode parent _ _ _ =>
    if n = m.skeleton.fresh then (m.deploymentNode? parent).map (.creation ·.environment) else none
  | setEnvironment root environment =>
    if Climbs m.parentOf? n root then some (.imposition environment) else none
  | addChild parent child =>
    match m.deploymentNode? parent, m.addChild parent child with
    | some p, .ok _ =>
      if p.pinned = true ∧ Climbs m.parentOf? n child then some (.imposition p.environment)
      else none
    | _, _ => none
  | _ => none

/-- How a history that starts from `m` covers a node, the latest cover last. -/
def Model.covers (m : Model) (n : DeploymentNodeId) : List Edit → List Cover
  | [] => []
  | e :: history =>
    (e.cover? m n).toList ++
      match e.perform m with
      | none => []
      | some m' => m'.covers n history

def Model.environmentOf? (m : Model) (n : DeploymentNodeId) : Option (Environment × Bool) :=
  (m.deploymentNode? n).map fun node => (node.environment, node.pinned)

def Cover.outcome : Cover → Environment × Bool
  | creation environment => (environment, false)
  | imposition environment => (environment, true)

namespace DeploymentNode

theorem set_environment (n : DeploymentNode) (x : DeploymentNode.Setting) :
    (n.set x).environment = n.environment := by
  cases x <;> rfl

theorem set_pinned (n : DeploymentNode) (x : DeploymentNode.Setting) :
    (n.set x).pinned = n.pinned := by
  cases x <;> rfl

end DeploymentNode

namespace Model

variable {m m' : Model} {n : DeploymentNodeId}

theorem environmentOf?_isSome : (m.environmentOf? n).isSome ↔ n.index < m.deploymentNodes.size := by
  simp [environmentOf?, deploymentNode?]

theorem environmentOf?_createDeploymentNode (m : Model) (name description technology : String)
    (environment : Environment) (n : DeploymentNodeId) :
    (m.createDeploymentNode name description technology environment).2.environmentOf? n =
      if n = m.skeleton.fresh then some (environment, false) else m.environmentOf? n := by
  have hn : n = m.skeleton.fresh ↔ n.index = m.deploymentNodes.size := by
    cases n
    simp [skeleton, Skeleton.fresh]
  simp only [environmentOf?, deploymentNode?, createDeploymentNode, Array.getElem?_push, hn]
  by_cases hfresh : n.index = m.deploymentNodes.size
  · simp [hfresh, DeploymentNode.create]
  · simp [hfresh]

theorem environmentOf?_attach {p c : DeploymentNodeId} (h : m.attach p c = .ok m')
    (n : DeploymentNodeId) : m'.environmentOf? n = m.environmentOf? n := by
  unfold attach at h
  split at h
  · cases h
    refine (map_getElem?_modify ?children ..).trans (map_getElem?_modify ?parent ..)
    case children => exact fun _ => rfl
    case parent => exact fun _ => rfl
  · cases h

theorem environmentOf?_detach (m : Model) (c n : DeploymentNodeId) :
    (m.detach c).environmentOf? n = m.environmentOf? n := by
  unfold detach
  split
  · rfl
  · refine (map_getElem?_modify ?children ..).trans (map_getElem?_modify ?parent ..)
    case children => exact fun _ => rfl
    case parent => exact fun _ => rfl

theorem environmentOf?_addChildDeploymentNode {p c : DeploymentNodeId}
    {name description technology : String} {environment : Environment}
    (h : m.addChildDeploymentNode p name description technology environment = .ok (c, m'))
    (n : DeploymentNodeId) : m'.environmentOf? n =
      if n = m.skeleton.fresh then some (environment, false) else m.environmentOf? n := by
  simp only [addChildDeploymentNode] at h
  cases ha : (m.createDeploymentNode name description technology environment).2.attach p
      (m.createDeploymentNode name description technology environment).1 with
  | error e =>
    rw [ha] at h
    cases h
  | ok attached =>
    rw [ha] at h
    cases h
    rw [environmentOf?_attach ha, environmentOf?_createDeploymentNode]

theorem index_lt_of_climbs (hm : m.skeleton.Sound) {root : DeploymentNodeId}
    (hroot : root.index < m.deploymentNodes.size) (h : Climbs m.parentOf? n root) :
    n.index < m.deploymentNodes.size := by
  rcases Relation.ReflTransGen.cases_head h with hn | ⟨p, hp, -⟩
  · exact hn ▸ hroot
  · exact (hm.known n p hp).1

theorem environmentOf?_pin (m : Model) (id : DeploymentNodeId) (environment : Environment)
    (n : DeploymentNodeId) :
    ({ m with deploymentNodes := m.deploymentNodes.modify id.index (·.pin environment) } :
        Model).environmentOf? n =
      if n = id then (m.environmentOf? n).map fun _ => (environment, true)
      else m.environmentOf? n := by
  have hn : id.index = n.index ↔ n = id := by
    cases n
    cases id
    simp [eq_comm]
  simp only [environmentOf?, deploymentNode?, Array.getElem?_modify, hn]
  by_cases hid : n = id
  · simp [hid, DeploymentNode.pin, Function.comp_def]
  · simp [hid]

theorem environmentOf?_pinAll (m : Model) (ids : List DeploymentNodeId)
    (environment : Environment) (n : DeploymentNodeId) :
    (m.pinAll ids environment).environmentOf? n =
      if n ∈ ids then (m.environmentOf? n).map fun _ => (environment, true)
      else m.environmentOf? n := by
  induction ids generalizing m with
  | nil => simp [pinAll]
  | cons id ids ih =>
    have hrest := ih { m with
      deploymentNodes := m.deploymentNodes.modify id.index (·.pin environment) }
    rw [environmentOf?_pin] at hrest
    refine hrest.trans ?_
    by_cases hid : n = id
    · simp [hid, Function.comp_def]
    · simp [hid]

theorem environmentOf?_pinSubtree (hm : m.skeleton.Sound) {root : DeploymentNodeId}
    {environment : Environment} (h : m.pinSubtree root environment = .ok m')
    (hroot : root.index < m.deploymentNodes.size) (n : DeploymentNodeId) :
    m'.environmentOf? n =
      if Climbs m.parentOf? n root then some (environment, true) else m.environmentOf? n := by
  unfold pinSubtree at h
  cases hids : m.subtree? root with
  | none =>
    rw [hids] at h
    cases h
  | some ids =>
    rw [hids] at h
    cases h
    rw [environmentOf?_pinAll]
    simp only [mem_subtree? hm hids]
    by_cases hn : Climbs m.parentOf? n root
    · have hknown := index_lt_of_climbs hm hroot hn
      obtain ⟨x, hx⟩ := Option.isSome_iff_exists.1 (environmentOf?_isSome.2 hknown)
      simp [hn, hx]
    · simp [hn]

theorem environmentOf?_setEnvironment (hm : m.skeleton.Sound) {root : DeploymentNodeId}
    {environment : Environment} (h : m.setEnvironment root environment = .ok m')
    (n : DeploymentNodeId) : m'.environmentOf? n =
      if Climbs m.parentOf? n root then some (environment, true) else m.environmentOf? n := by
  unfold setEnvironment at h
  split at h
  · next hroot => exact environmentOf?_pinSubtree hm h hroot n
  · cases h

theorem environmentOf?_addChild (hm : m.skeleton.Sound) {p c : DeploymentNodeId}
    {parent : DeploymentNode} (hparent : m.deploymentNode? p = some parent)
    (h : m.addChild p c = .ok m') (n : DeploymentNodeId) : m'.environmentOf? n =
      if parent.pinned = true ∧ Climbs m.parentOf? n c then some (parent.environment, true)
      else m.environmentOf? n := by
  obtain ⟨parent', moved, hparent', hc, hmeets, ha, h⟩ := addChild_eq_ok h
  rw [hparent] at hparent'
  cases hparent'
  obtain ⟨hskeleton, hchange⟩ := change_move hc hmeets ha
  have hkeep : moved.environmentOf? n = m.environmentOf? n :=
    (environmentOf?_attach ha n).trans (environmentOf?_detach m c n)
  have hsize : moved.deploymentNodes.size = m.deploymentNodes.size := by
    have hnodes := congrArg Skeleton.nodes hskeleton
    simpa [skeleton, Skeleton.attach, Skeleton.detach_nodes] using hnodes
  have hbelow : Climbs moved.parentOf? n c ↔ Climbs m.parentOf? n c := by
    have hup : moved.parentOf? = Function.update m.parentOf? c (some p) := by
      have hfun := congrArg Skeleton.parent hskeleton
      simpa [skeleton, Skeleton.attach, Skeleton.detach_parent] using hfun
    rw [hup]
    exact climbs_update_iff _
  by_cases hpinned : parent.pinned = true
  · rw [if_pos hpinned] at h
    rw [environmentOf?_pinSubtree (hm.change hchange) h (hsize ▸ hc), hkeep]
    simp only [hbelow, hpinned, true_and]
  · rw [if_neg hpinned] at h
    cases h
    rw [hkeep]
    simp [hpinned]

end Model

section Operations

variable {m m' : Model} {e : Edit}

open Model

theorem Edit.eq_addChild_of_cycle {parent child : String}
    (h : e.apply m = .error (.cycle parent child)) : ∃ p c, e = .addChild p c := by
  have hpin {m : Model} {root : DeploymentNodeId} {environment : Environment} :
      m.pinSubtree root environment ≠ .error (.cycle parent child) := by
    unfold pinSubtree
    cases m.subtree? root <;> simp
  cases e with
  | addChild p c => exact ⟨p, c, rfl⟩
  | setEnvironment root environment =>
    simp only [Edit.apply, Model.setEnvironment] at h
    split at h
    · exact absurd h hpin
    · cases h
  | addChildNode p name description technology =>
    simp only [Edit.apply, Model.addChildNode, Model.addChildDeploymentNode, Model.attach] at h
    split at h
    · cases h
    · split at h <;> cases h
  | _ =>
    simp only [Edit.apply, Model.addContainer, Model.addComponent, Model.addChildDeploymentNode,
      Model.attach, Model.addInfrastructureNode, Model.addContainerInstance, Model.setPerson,
      Model.setSoftwareSystem, Model.setContainer, Model.setComponent, Model.setDeploymentNode,
      Model.setInfrastructureNode, Model.setContainerInstance, Model.setRelationship] at h
    first
    | cases h
    | split at h <;> cases h

theorem Edit.apply_of_perform (h : e.perform m = some m') :
    e.apply m = .ok m' ∨ m' = m ∧ ∀ n, e.cover? m n = none := by
  unfold Edit.perform at h
  split at h
  · next hok =>
    cases h
    exact Or.inl hok
  · next parent child hcycle =>
    cases h
    obtain ⟨p, c, rfl⟩ := eq_addChild_of_cycle hcycle
    have hrefused : m.addChild p c = .error (.cycle parent child) := hcycle
    exact Or.inr ⟨rfl, fun n => by simp [Edit.cover?, hrefused]⟩
  · cases h

theorem Edit.environmentOf?_apply (hm : m.skeleton.Sound) (h : e.apply m = .ok m')
    (n : DeploymentNodeId) :
    m'.environmentOf? n = ((e.cover? m n).map Cover.outcome).or (m.environmentOf? n) := by
  -- The operations that create a node do the same to its environment.
  have hcreate (environment : Environment) :
      (if n = m.skeleton.fresh then some (environment, false) else m.environmentOf? n) =
        ((if n = m.skeleton.fresh then some (Cover.creation environment) else none).map
          Cover.outcome).or (m.environmentOf? n) := by
    by_cases hn : n = m.skeleton.fresh
    · simp [hn, Cover.outcome]
    · simp [hn]
  cases e with
  | createDeploymentNode name description technology environment =>
    cases h
    exact (environmentOf?_createDeploymentNode ..).trans (hcreate environment)
  | addDeploymentNode name description technology environment =>
    cases h
    exact (environmentOf?_createDeploymentNode ..).trans (hcreate environment)
  | addChildDeploymentNode p name description technology environment =>
    obtain ⟨c, h⟩ := ok_of_map_snd h
    exact (environmentOf?_addChildDeploymentNode h n).trans (hcreate environment)
  | addChildNode p name description technology =>
    obtain ⟨c, h⟩ := ok_of_map_snd h
    obtain ⟨parent, hparent, h⟩ := addChildNode_eq_ok h
    rw [environmentOf?_addChildDeploymentNode h n, hcreate]
    simp [Edit.cover?, hparent]
  | setEnvironment root environment =>
    rw [environmentOf?_setEnvironment hm h n]
    by_cases hn : Climbs m.parentOf? n root
    · simp [Edit.cover?, hn, Cover.outcome]
    · simp [Edit.cover?, hn]
  | addChild p c =>
    obtain ⟨parent, moved, hparent, -⟩ := addChild_eq_ok h
    rw [environmentOf?_addChild hm hparent h n]
    have hmoved : m.addChild p c = .ok m' := h
    by_cases hn : parent.pinned = true ∧ Climbs m.parentOf? n c
    · simp [Edit.cover?, hparent, hmoved, hn, Cover.outcome]
    · simp [Edit.cover?, hparent, hmoved, hn]
  | setDeploymentNode id x =>
    simp only [Edit.apply, Model.setDeploymentNode] at h
    split at h <;> cases h
    exact map_getElem?_modify (fun node => Prod.ext (node.set_environment x) (node.set_pinned x)) ..
  | addInfrastructureNode p name =>
    obtain ⟨i, h⟩ := ok_of_map_snd h
    simp only [Model.addInfrastructureNode] at h
    split at h <;> cases h
    refine map_getElem?_modify ?_ ..
    exact fun _ => rfl
  | addContainerInstance p c =>
    obtain ⟨i, h⟩ := ok_of_map_snd h
    simp only [Model.addContainerInstance] at h
    split at h <;> cases h
    refine map_getElem?_modify ?_ ..
    exact fun _ => rfl
  | addContainer s name =>
    obtain ⟨c, h⟩ := ok_of_map_snd h
    simp only [Model.addContainer] at h
    split at h <;> cases h
    rfl
  | addComponent c name =>
    obtain ⟨x, h⟩ := ok_of_map_snd h
    simp only [Model.addComponent] at h
    split at h <;> cases h
    rfl
  | setPerson | setSoftwareSystem | setContainer | setComponent | setInfrastructureNode
  | setContainerInstance | setRelationship =>
    simp only [Edit.apply, Model.setPerson, Model.setSoftwareSystem, Model.setContainer,
      Model.setComponent, Model.setInfrastructureNode, Model.setContainerInstance,
      Model.setRelationship] at h
    split at h <;> cases h
    rfl
  | addPerson | addSoftwareSystem | addRelationship | uses | setEnterprise
  | setEnterpriseProperty | addToEnterprise | setProperty =>
    cases h
    rfl

theorem Edit.environmentOf?_perform (hm : m.skeleton.Sound) (h : e.perform m = some m')
    (n : DeploymentNodeId) :
    m'.environmentOf? n = ((e.cover? m n).map Cover.outcome).or (m.environmentOf? n) := by
  rcases apply_of_perform h with h | ⟨rfl, hnone⟩
  · exact environmentOf?_apply hm h n
  · rw [hnone n]
    rfl

theorem Edit.cover?_of_known {n : DeploymentNodeId} (hn : n.index < m.deploymentNodes.size)
    {c : Cover} (h : e.cover? m n = some c) : ∃ environment, c = .imposition environment := by
  have hfresh : n ≠ m.skeleton.fresh := by
    intro heq
    subst heq
    exact Nat.lt_irrefl _ hn
  cases e <;> grind [Edit.cover?]

theorem Edit.cover?_of_new (hm : m.skeleton.Sound) (happly : e.apply m = .ok m')
    {n : DeploymentNodeId} (hn : ¬ n.index < m.deploymentNodes.size) {c : Cover}
    (h : e.cover? m n = some c) : ∃ environment, c = .creation environment := by
  have hroot {root : DeploymentNodeId} (hroot : root.index < m.deploymentNodes.size) :
      ¬ Climbs m.parentOf? n root := fun hclimbs => hn (index_lt_of_climbs hm hroot hclimbs)
  cases e with
  | setEnvironment root environment =>
    simp only [Edit.apply, Model.setEnvironment] at happly
    split at happly
    · next hknown => simp [Edit.cover?, hroot hknown] at h
    · cases happly
  | addChild p c =>
    obtain ⟨parent, moved, hparent, hc, -⟩ := addChild_eq_ok happly
    have hmoved : m.addChild p c = .ok m' := happly
    simp [Edit.cover?, hparent, hmoved, hroot hc] at h
  | _ => grind [Edit.cover?, Option.map_eq_some_iff]

end Operations

namespace Model

variable {m m' : Model} {n : DeploymentNodeId} {history : List Edit}

theorem environmentOf?_performAll (hm : m.skeleton.Sound) (h : m.performAll history = some m')
    (n : DeploymentNodeId) : m'.environmentOf? n =
      ((m.covers n history).getLast?.map Cover.outcome).or (m.environmentOf? n) := by
  -- Each operation adds its cover in front, and a later one hides it.
  induction history generalizing m with
  | nil =>
    cases h
    rfl
  | cons e history ih =>
    obtain ⟨m₁, he, h⟩ := performAll_cons.1 h
    rw [ih (Edit.sound hm he) h, Edit.environmentOf?_perform hm he n, covers, he]
    rw [List.getLast?_append, Option.map_or, Option.or_assoc]
    cases e.cover? m n <;> rfl

theorem covers_of_known (hm : m.skeleton.Sound) (h : m.performAll history = some m')
    (hn : n.index < m.deploymentNodes.size) :
    ∃ later : List Environment, m.covers n history = later.map Cover.imposition := by
  induction history generalizing m with
  | nil => exact ⟨[], rfl⟩
  | cons e history ih =>
    obtain ⟨m₁, he, h⟩ := performAll_cons.1 h
    have hn₁ : n.index < m₁.deploymentNodes.size := by
      rw [← environmentOf?_isSome] at hn ⊢
      rw [Edit.environmentOf?_perform hm he n, Option.isSome_or, hn, Bool.or_true]
    obtain ⟨later, hlater⟩ := ih (Edit.sound hm he) h hn₁
    rw [covers, he]
    cases hcover : e.cover? m n with
    | none => exact ⟨later, hlater⟩
    | some c =>
      obtain ⟨environment, rfl⟩ := Edit.cover?_of_known hn hcover
      exact ⟨environment :: later, congrArg (Cover.imposition environment :: ·) hlater⟩

/-- A node is created before it is covered in any other way, and only once. -/
theorem covers_of_new (hm : m.skeleton.Sound) (h : m.performAll history = some m')
    (hn : ¬ n.index < m.deploymentNodes.size) (hn' : n.index < m'.deploymentNodes.size) :
    ∃ (first : Environment) (later : List Environment),
      m.covers n history = .creation first :: later.map .imposition := by
  induction history generalizing m with
  | nil =>
    cases h
    exact absurd hn' hn
  | cons e history ih =>
    obtain ⟨m₁, he, h⟩ := performAll_cons.1 h
    have hsound := Edit.sound hm he
    have hstep := Edit.environmentOf?_perform hm he n
    rw [covers, he]
    cases hcover : e.cover? m n with
    | none =>
      have hn₁ : ¬ n.index < m₁.deploymentNodes.size := by
        rw [← environmentOf?_isSome] at hn ⊢
        rwa [hstep, hcover]
      exact ih hsound h hn₁
    | some c =>
      have hn₁ : n.index < m₁.deploymentNodes.size := by
        rw [← environmentOf?_isSome, hstep, hcover]
        rfl
      rcases Edit.apply_of_perform he with happly | ⟨-, hnone⟩
      · obtain ⟨first, rfl⟩ := Edit.cover?_of_new hm happly hn hcover
        obtain ⟨later, hlater⟩ := covers_of_known hsound h hn₁
        exact ⟨first, later, congrArg (Cover.creation first :: ·) hlater⟩
      · rw [hnone n] at hcover
        cases hcover

theorem outcome_getLast? (first : Environment) (later : List Environment) :
    (Cover.creation first :: later.map .imposition).getLast?.map Cover.outcome =
      some (later.getLastD first, decide (later ≠ [])) := by
  rcases later.eq_nil_or_concat with rfl | ⟨earlier, environment, rfl⟩
  · rfl
  · simp [List.getLast?_cons, List.getLastD_eq_getLast?, Cover.outcome]

/-- The environment of a node is the one that the latest operation to cover it gave, and the node
is pinned if and only if something has covered it since its creation. An operation that does not
cover it changes neither. -/
theorem environment_of_history {node : DeploymentNode}
    (h : Model.empty.performAll history = some m) (hn : m.deploymentNode? n = some node) :
    (∃ (first : Environment) (later : List Environment),
      Model.empty.covers n history = .creation first :: later.map .imposition ∧
      node.environment = later.getLastD first ∧ (node.pinned = true ↔ later ≠ [])) ∧
    ∀ e : Edit, ∀ m', e.perform m = some m' → e.cover? m n = none →
      ∃ node', m'.deploymentNode? n = some node' ∧ node'.environment = node.environment ∧
        node'.pinned = node.pinned := by
  have hnode : m.environmentOf? n = some (node.environment, node.pinned) := by
    simp [environmentOf?, hn]
  constructor
  · have hnew : ¬ n.index < Model.empty.deploymentNodes.size := Nat.not_lt_zero _
    obtain ⟨first, later, hcovers⟩ :=
      covers_of_new sound_empty h hnew (index_lt_of_deploymentNode? hn)
    have hlast := environmentOf?_performAll sound_empty h n
    rw [hnode, hcovers, outcome_getLast?, Option.some_or] at hlast
    obtain ⟨henvironment, hpinned⟩ := Prod.mk.inj (Option.some.inj hlast)
    refine ⟨first, later, hcovers, henvironment, ?_⟩
    rw [hpinned, decide_eq_true_iff]
  · intro e m' he hnone
    have hsame := Edit.environmentOf?_perform (Reachable.sound ⟨history, h⟩) he n
    rw [hnone, hnode] at hsame
    obtain ⟨node', hnode', heq⟩ := Option.map_eq_some_iff.1 hsame
    exact ⟨node', hnode', congrArg Prod.fst heq, congrArg Prod.snd heq⟩

/-- A rack with a node inside is moved under a pinned node, and then pinned again itself. A node
created under the pinned one only starts out in its environment. -/
theorem environment_of_history_of_moves :
    ∃ history m, .addChild ⟨0⟩ ⟨2⟩ ∈ history ∧ Model.empty.performAll history = some m ∧
      (∃ node, m.deploymentNode? ⟨3⟩ = some node ∧ node.environment = .custom "Lab" ∧
        node.pinned = true) ∧
      ∃ node, m.deploymentNode? ⟨1⟩ = some node ∧ node.environment = .production ∧
        ¬ node.pinned = true := by
  let history : List Edit := [.addDeploymentNode "Hall" "" "" .staging,
    .setEnvironment ⟨0⟩ .production, .addChildNode ⟨0⟩ "Host" "" "",
    .createDeploymentNode "Rack" "" "" .development, .addChildDeploymentNode ⟨2⟩ "Slot" "" "" .test,
    .addChild ⟨0⟩ ⟨2⟩, .setEnvironment ⟨2⟩ (.custom "Lab")]
  have hslot : Model.empty.covers ⟨3⟩ history =
      [.creation .test, .imposition .production, .imposition (.custom "Lab")] := by decide
  have hhost : Model.empty.covers ⟨1⟩ history = [.creation .production] := by decide
  obtain ⟨m, hm, hslot?, hhost?⟩ : ∃ m, Model.empty.performAll history = some m ∧
      (m.deploymentNode? ⟨3⟩).isSome ∧ (m.deploymentNode? ⟨1⟩).isSome :=
    ⟨_, rfl, by decide, by decide⟩
  obtain ⟨slot, hs⟩ := Option.isSome_iff_exists.1 hslot?
  obtain ⟨host, hh⟩ := Option.isSome_iff_exists.1 hhost?
  have himposition : Function.Injective (List.map Cover.imposition) :=
    List.map_injective_iff.2 fun _ _ h => Cover.imposition.inj h
  refine ⟨history, m, by decide, hm, ⟨slot, hs, ?slot⟩, ⟨host, hh, ?host⟩⟩
  case slot =>
    obtain ⟨⟨first, later, hcovers, henvironment, hpinned⟩, -⟩ := environment_of_history hm hs
    obtain ⟨-, hlater⟩ := List.cons.inj (hslot.symm.trans hcovers)
    obtain rfl : [.production, .custom "Lab"] = later := himposition hlater
    exact ⟨henvironment, hpinned.2 (List.cons_ne_nil _ _)⟩
  case host =>
    obtain ⟨⟨first, later, hcovers, henvironment, hpinned⟩, -⟩ := environment_of_history hm hh
    obtain ⟨hfirst, hlater⟩ := List.cons.inj (hhost.symm.trans hcovers)
    cases hfirst
    obtain rfl : [] = later := himposition hlater
    exact ⟨henvironment, fun h => hpinned.1 h rfl⟩

end Model

end C4
