import OxideBatch.Plan.ReadBack
import OxideBatch.Plan.Upgrade

/-! Which identifiers the upgrade walk finds in an emitted manifest, and which manifests
it cannot walk. -/

namespace OxideBatch.Plan

open OxideBatch.Core Program
open Json (member? hasMember insertMember)
open Std (ExtTreeMap ExtTreeSet)

section Walks

/-- A part of the walk over a manifest. -/
abbrev NodeWalk := ExtTreeSet NodeId → UpgradeResult (ExtTreeSet NodeId)

/-- The walk succeeds and adds the identifiers. -/
def Gathers (walk : NodeWalk) (ids : List NodeId) : Prop :=
  ∀ result, ∃ found, walk result = .ok found ∧ ∀ id, id ∈ found ↔ id ∈ result ∨ id ∈ ids

/-- The walk is refused, wherever it comes from. -/
def Refuses (walk : NodeWalk) : Prop := ∀ result, ∃ error, walk result = .error error

variable {first second : NodeWalk} {ids ids' : List NodeId}

private theorem gathers_nothing : Gathers .ok [] := by
  intro result
  exact ⟨result, rfl, by simp⟩

theorem Gathers.bind (left : Gathers first ids) (right : Gathers second ids') :
    Gathers (fun result => first result >>= second) (ids ++ ids') := by
  intro result
  obtain ⟨between, ran, added⟩ := left result
  obtain ⟨found, ran', added'⟩ := right between
  refine ⟨found, ?_, ?_⟩
  · change first result >>= second = _
    rw [ran]
    exact ran'
  · intro id
    rw [added', added, List.mem_append, or_assoc]

theorem Refuses.bind (refuses : Refuses first) :
    Refuses (fun result => first result >>= second) := by
  intro result
  obtain ⟨error, ran⟩ := refuses result
  refine ⟨error, ?_⟩
  change first result >>= second = _
  rw [ran]
  rfl

/-- A refusal later in the walk, whatever happens before it. -/
theorem Refuses.behind (refuses : Refuses second) :
    Refuses (fun result => first result >>= second) := by
  intro result
  cases ran : first result with
  | error error => exact ⟨error, by change first result >>= second = _; rw [ran]; rfl⟩
  | ok between =>
    obtain ⟨error, ran'⟩ := refuses between
    exact ⟨error, by change first result >>= second = _; rw [ran]; exact ran'⟩

end Walks

section Lookups

private theorem collectUnder_eq (key : String) (members : List (String × Json))
    (result : ExtTreeSet NodeId) :
    collectUnder key members result =
      match member? key members with
      | some (.array children) => collectUpgradeNodeIds children result
      | _ => .ok result := by
  induction members with
  | nil =>
    unfold collectUnder
    rfl
  | cons entry members ih =>
    obtain ⟨name, value⟩ := entry
    unfold collectUnder
    by_cases here : name = key
    · simp only [here, if_true, Json.member?_cons]
      cases value <;> rfl
    · simp only [here, if_false, Json.member?_cons]
      exact ih

theorem collectBranchesOf_eq (members : List (String × Json)) (result : ExtTreeSet NodeId) :
    collectBranchesOf members result =
      match member? "branches" members with
      | some (.array branches) => collectBranches branches result
      | _ => .ok result := by
  induction members with
  | nil =>
    unfold collectBranchesOf
    rfl
  | cons entry members ih =>
    obtain ⟨name, value⟩ := entry
    unfold collectBranchesOf
    by_cases here : name = "branches"
    · simp only [here, if_true, Json.member?_cons]
      cases value <;> rfl
    · simp only [here, if_false, Json.member?_cons]
      exact ih

variable {members : List (String × Json)} {key : String} {children : List Json}
  {ids : List NodeId}

private theorem gathers_under_none (absent : member? key members = none) :
    Gathers (collectUnder key members) [] := by
  intro result
  rw [collectUnder_eq, absent]
  exact gathers_nothing result

private theorem gathers_under (present : member? key members = some (.array children))
    (gathers : Gathers (collectUpgradeNodeIds children) ids) :
    Gathers (collectUnder key members) ids := by
  intro result
  rw [collectUnder_eq, present]
  exact gathers result

theorem refuses_under (present : member? key members = some (.array children))
    (refuses : Refuses (collectUpgradeNodeIds children)) : Refuses (collectUnder key members) := by
  intro result
  rw [collectUnder_eq, present]
  exact refuses result

private theorem gathers_id {id : NodeId} (present : memberStr "id" members = some id.value) :
    Gathers (insertNodeId members) [id] := by
  intro result
  refine ⟨result.insert id, ?_, ?_⟩
  · have read : readNodeId id.value = .ok id := by
      simp [readNodeId, Token.new, id.valid]
    unfold insertNodeId
    rw [present]
    change (do let id ← readNodeId id.value; pure (result.insert id)) = _
    rw [read]
    rfl
  · intro other
    rw [ExtTreeSet.mem_insert, Std.LawfulEqOrd.compare_eq_iff_eq, List.mem_singleton, eq_comm,
      or_comm]

/-- The children a node or a branch may have beside its branches. -/
def collectChildren (members : List (String × Json)) : NodeWalk := fun result => do
  let result ← collectUnder "members" members result
  let result ← collectUnder "steps" members result
  collectUnder "nodes" members result

theorem collectUpgradeNode_object (members : List (String × Json)) :
    collectUpgradeNode (.object members) = fun result =>
      insertNodeId members result >>= fun result =>
        collectChildren members result >>= collectBranchesOf members := by
  funext result
  unfold collectUpgradeNode collectChildren
  simp only [bind_assoc]

private theorem collectBranches_object (members : List (String × Json)) (branches : List Json) :
    collectBranches (.object members :: branches) = fun result =>
      collectChildren members result >>= collectBranches branches := by
  funext result
  conv_lhs => unfold collectBranches
  unfold collectChildren
  simp only [bind_assoc]

private theorem collectUpgradeNodeIds_cons (node : Json) (nodes : List Json) :
    collectUpgradeNodeIds (node :: nodes) = fun result =>
      collectUpgradeNode node result >>= collectUpgradeNodeIds nodes := by
  funext result
  conv_lhs => unfold collectUpgradeNodeIds

private theorem collectUpgradeNodeIds_nil : collectUpgradeNodeIds [] = .ok := by
  funext result
  unfold collectUpgradeNodeIds
  rfl

private theorem collectBranches_nil : collectBranches [] = .ok := by
  funext result
  unfold collectBranches
  rfl

end Lookups

section Lists

variable {α : Type} {project : α → Json} {ids : α → List NodeId}

theorem gathers_each (values : List α)
    (each : ∀ value ∈ values, Gathers (collectUpgradeNode (project value)) (ids value)) :
    Gathers (collectUpgradeNodeIds (values.map project)) (values.flatMap ids) := by
  induction values with
  | nil =>
    rw [List.map_nil, collectUpgradeNodeIds_nil]
    exact gathers_nothing
  | cons value values ih =>
    rw [List.map_cons, collectUpgradeNodeIds_cons, List.flatMap_cons]
    exact (each value List.mem_cons_self).bind
      (ih fun other member => each other (List.mem_cons_of_mem _ member))

/-- One node that cannot be walked refuses the whole list. -/
theorem refuses_each {values : List Json} {value : Json} (member : value ∈ values)
    (refuses : Refuses (collectUpgradeNode value)) : Refuses (collectUpgradeNodeIds values) := by
  induction values with
  | nil => cases member
  | cons other values ih =>
    rw [collectUpgradeNodeIds_cons]
    rcases List.mem_cons.mp member with here | later
    · exact (here ▸ refuses).bind
    · exact (ih later).behind

/-- Names where nodes should stand. -/
theorem refuses_texts {names : List NodeId} (some : names ≠ []) :
    Refuses (collectUpgradeNodeIds (names.map text)) := by
  obtain ⟨name, names, rfl⟩ := List.exists_cons_of_ne_nil some
  apply refuses_each List.mem_cons_self
  intro result
  exact ⟨.manifestEncoding, by unfold collectUpgradeNode text; rfl⟩

end Lists

section Shapes

variable {members : List (String × Json)} {id : NodeId}

private theorem gathers_childless (group : member? "members" members = none)
    (steps : member? "steps" members = none) (nodes : member? "nodes" members = none) :
    Gathers (collectChildren members) [] :=
  (gathers_under_none group).bind ((gathers_under_none steps).bind (gathers_under_none nodes))

/-- A node without children of its own. -/
private theorem gathers_node {ids : List NodeId} (named : memberStr "id" members = some id.value)
    (group : member? "members" members = none) (steps : member? "steps" members = none)
    (nodes : member? "nodes" members = none) (branches : Gathers (collectBranchesOf members) ids) :
    Gathers (collectUpgradeNode (.object members)) (id :: ids) := by
  rw [collectUpgradeNode_object]
  exact (gathers_id named).bind ((gathers_childless group steps nodes).bind branches)

private theorem gathers_branchless (absent : member? "branches" members = none) :
    Gathers (collectBranchesOf members) [] := by
  intro result
  rw [collectBranchesOf_eq, absent]
  exact gathers_nothing result

variable {scopes : BranchScopes} {node : FlowNode FlowGraph}

theorem id_projects (projects : Projects scopes node members) :
    memberStr "id" members = some node.id.value := by
  unfold memberStr
  rw [projects _ (by decide)]
  cases node with
  | step node =>
    change (node.manifestValue.get? "id").bind Json.asStr = _
    rw [get?_step node (by decide)]
    simp [FlowNode.id, text, Json.asStr]
  | split node => simp [advancedNodeValue, splitManifest, FlowNode.id, text, Json.asStr]
  | decision _ | nestedJob _ | customLeaf _ | join _ | partitionedStep _ =>
    simp [advancedNodeValue, FlowNode.manifestValue, DecisionNode.manifestValue,
      NestedJobNode.manifestValue, CustomLeafNode.manifestValue, JoinNode.manifestValue,
      PartitionedStepNode.manifestValue, FlowNode.id, text, Json.asStr]

/-- The keys the walk descends under, which no node but a split has. -/
private theorem childless_projects (projects : Projects scopes node members) {key : String}
    (among : key ∈ ["members", "steps", "nodes"]) : member? key members = none := by
  have named : key = "members" ∨ key = "steps" ∨ key = "nodes" := by simpa using among
  rw [projects key (by rcases named with rfl | rfl | rfl <;> decide)]
  cases node with
  | step node =>
    change node.manifestValue.get? key = _
    rw [get?_step node (by rcases named with rfl | rfl | rfl <;> decide)]
    rcases named with rfl | rfl | rfl <;> simp
  | split node => rcases named with rfl | rfl | rfl <;> simp [advancedNodeValue, splitManifest]
  | decision _ | nestedJob _ | customLeaf _ | join _ | partitionedStep _ =>
    rcases named with rfl | rfl | rfl <;>
      simp [advancedNodeValue, FlowNode.manifestValue, DecisionNode.manifestValue,
        NestedJobNode.manifestValue, CustomLeafNode.manifestValue, JoinNode.manifestValue,
        PartitionedStepNode.manifestValue]

private theorem branchless_projects (projects : Projects scopes node members)
    (plain : ∀ split, node ≠ .split split) : member? "branches" members = none := by
  rw [projects _ (by decide)]
  cases node with
  | step node =>
    change node.manifestValue.get? "branches" = _
    rw [get?_step node (by decide)]
    simp
  | split node => exact absurd rfl (plain node)
  | decision _ | nestedJob _ | customLeaf _ | join _ | partitionedStep _ =>
    simp [advancedNodeValue, FlowNode.manifestValue, DecisionNode.manifestValue,
      NestedJobNode.manifestValue, CustomLeafNode.manifestValue, JoinNode.manifestValue,
      PartitionedStepNode.manifestValue]

theorem gathers_projected {ids : List NodeId} (projects : Projects scopes node members)
    (branches : Gathers (collectBranchesOf members) ids) :
    Gathers (collectUpgradeNode (.object members)) (node.id :: ids) :=
  gathers_node (id_projects projects) (childless_projects projects (by simp))
    (childless_projects projects (by simp)) (childless_projects projects (by simp)) branches

theorem gathers_plain (projects : Projects scopes node members)
    (plain : ∀ split, node ≠ .split split) :
    Gathers (collectUpgradeNode (.object members)) [node.id] :=
  gathers_projected projects (gathers_branchless (branchless_projects projects plain))

private theorem gathers_step (step : StepNode) :
    Gathers (collectUpgradeNode step.manifestValue) [step.id] := by
  obtain ⟨members, shown⟩ := object_of_asObject (asObject_step step)
  have projects : Projects ∅ (.step step) members := by
    intro key _
    change _ = step.manifestValue.get? key
    rw [shown, Json.get?_object]
  rw [shown]
  exact gathers_plain projects (by simp)

private theorem gathers_steps (steps : List StepNode) :
    Gathers (collectUpgradeNodeIds (steps.map StepNode.manifestValue)) (steps.map (·.id)) := by
  have each := gathers_each steps fun step _ => gathers_step step
  have same : steps.flatMap (fun step => [step.id]) = steps.map (·.id) := List.map_eq_flatMap.symm
  rwa [same] at each

end Shapes

section Branches

variable {scopes : BranchScopes} {split : NodeId}

/-- The steps of a linear branch. -/
def SplitBranch.declaredSteps (branch : SplitBranch FlowGraph) : List StepNode :=
  if branch.flow.isSome then [] else branch.steps

theorem gathers_branches (branches : List (SplitBranch FlowGraph)) (start : Nat)
    (linear : ∀ branch ∈ branches, branch.flow = none)
    (straight : ∀ (ordinal : Nat) (branch : SplitBranch FlowGraph),
      branches[ordinal]? = some branch →
      scopes[(split, start + ordinal)]?.isSome = branch.flow.isSome) :
    Gathers (collectBranches ((branches.zipIdx start).map (branchManifest scopes split)))
      (branches.flatMap fun branch => branch.declaredSteps.map (·.id)) := by
  induction branches generalizing start with
  | nil =>
    rw [List.zipIdx_nil, List.map_nil, collectBranches_nil]
    exact gathers_nothing
  | cons branch branches ih =>
    have flowless : branch.flow = none := linear branch List.mem_cons_self
    have unplaced : scopes[(split, start)]? = none := by
      have here := straight 0 branch rfl
      rw [flowless, Nat.add_zero] at here
      exact Option.isSome_eq_false_iff.mp here |> Option.isNone_iff_eq_none.mp
    let members : List (String × Json) :=
      [("kind", .string "linear"), ("ordinal", number (start + 1)),
        ("steps", .array (branch.steps.map StepNode.manifestValue))]
    have shape : branchManifest scopes split (branch, start) = .object members := by
      unfold branchManifest
      rw [unplaced]
    rw [List.zipIdx_cons, List.map_cons, shape, collectBranches_object, List.flatMap_cons]
    refine Gathers.bind ?_ (ih (start + 1)
      (fun other member => linear other (List.mem_cons_of_mem _ member)) ?_)
    · have group : Gathers (collectUnder "members" members) [] :=
        gathers_under_none (by simp [members])
      have steps : Gathers (collectUnder "steps" members) (branch.steps.map (·.id)) :=
        gathers_under (by simp [members]) (gathers_steps branch.steps)
      have nodes : Gathers (collectUnder "nodes" members) [] :=
        gathers_under_none (by simp [members])
      have whole : Gathers (collectChildren members) _ := group.bind (steps.bind nodes)
      have declared : branch.declaredSteps = branch.steps := by
        rw [SplitBranch.declaredSteps, flowless]
        rfl
      rw [declared]
      rwa [List.nil_append, List.append_nil] at whole
    · intro ordinal branch found
      rw [Nat.add_assoc, Nat.add_comm 1]
      exact straight (ordinal + 1) branch found

/-- A flow branch lists the names of its members. -/
theorem refuses_flow_branch {branches : List (SplitBranch FlowGraph)} {start ordinal : Nat}
    {scope : CompiledFlowScope} (within : ordinal < branches.length)
    (placed : scopes[(split, start + ordinal)]? = some scope) (entry : scope.entry ∈ scope.members) :
    Refuses (collectBranches ((branches.zipIdx start).map (branchManifest scopes split))) := by
  induction branches generalizing start ordinal with
  | nil => cases within
  | cons branch branches ih =>
    obtain ⟨members, shape⟩ : ∃ members, branchManifest scopes split (branch, start) =
        .object members := by
      unfold branchManifest
      split
      · exact ⟨_, rfl⟩
      · exact ⟨_, rfl⟩
    rw [List.zipIdx_cons, List.map_cons, shape, collectBranches_object]
    cases ordinal with
    | zero =>
      have flow : member? "members" members = some (membersManifest scope) := by
        unfold branchManifest at shape
        rw [Nat.add_zero] at placed
        rw [placed] at shape
        cases shape
        simp
      have some : scope.members.toList ≠ [] := List.ne_nil_of_mem (ExtTreeSet.mem_toList.mpr entry)
      exact (Refuses.bind (refuses_under flow (refuses_texts some))).bind
    | succ ordinal =>
      apply Refuses.behind
      apply ih
      · exact Nat.lt_of_succ_lt_succ within
      · rw [Nat.add_assoc, Nat.add_comm 1]
        exact placed

end Branches

end OxideBatch.Plan
