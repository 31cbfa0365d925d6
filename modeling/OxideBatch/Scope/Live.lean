import OxideBatch.Plan.Declaration
import OxideBatch.Lib.SortedTable
import OxideBatch.Lib.Triple

/-! The live scope of one attempt: its components are built along their dependencies and
cleaned up the other way. -/

namespace OxideBatch.Scope

open OxideBatch.Plan (ScopeKind maxScopedComponents)
open OxideBatch.Lib Triple

/-- `MAX_SCOPED_DEPENDENCY_DEPTH`. -/
def maxScopedDependencyDepth : Nat := 32

section Registrations

variable {Id Factory : Type} [LinearOrder Id]

/-- A registration; its dependencies are sorted and name none twice. -/
structure ScopedComponentRegistration (Id Factory : Type) [LinearOrder Id] where
  scope : ScopeKind
  id : Id
  dependencies : List Id
  sorted : dependencies.Pairwise (· < ·)
  factory : Factory

inductive ScopeBuildFailureKind where
  | tooManyComponents
  | duplicateComponent
  | wrongScope
  | missingDependency
  | dependencyCycle
  | dependencyDepthExceeded
  | missingInputs
  | factoryRejected
  | factoryPanicked
  deriving DecidableEq, Repr

structure ScopeBuildFailure (Id : Type) where
  kind : ScopeBuildFailureKind
  component : Option Id
  cleanupFailures : Nat
  deriving DecidableEq, Repr

namespace ScopeBuildFailure

def new (kind : ScopeBuildFailureKind) (component : Option Id) : ScopeBuildFailure Id :=
  ⟨kind, component, 0⟩

end ScopeBuildFailure

/-- Why a computation ends early: a failure, or `none` for a recursion deeper than the
fuel given to it. -/
abbrev Halt (Id : Type) := Option (ScopeBuildFailure Id)

abbrev Registrations (Id Factory : Type) [LinearOrder Id] :=
  SortedTable (@ScopedComponentRegistration.id Id Factory _)

/-- The memoised depths and the stack that `validate_node` shares. -/
structure Validation (Id : Type) [LinearOrder Id] where
  depths : SortedTable (@Prod.fst Id Nat)
  stack : List Id

/-- `validate_node`. -/
def validateNode (registrations : Registrations Id Factory) :
    Nat → Id → Validation Id → Except (Halt Id) (Nat × Validation Id)
  | 0, _, _ => .error none
  | fuel + 1, id, state =>
    match state.depths.lookup id with
    | some entry => .ok (entry.2, state)
    | none =>
      if id ∈ state.stack then .error (some (.new .dependencyCycle (some id)))
      else
        match registrations.lookup id with
        | none => .error (some (.new .missingDependency (some id)))
        | some registration => do
          let (depth, state) ← registration.dependencies.foldlM (fun held dependency => do
              let (dependencyDepth, state) ← validateNode registrations fuel dependency held.2
              return (max held.1 (dependencyDepth + 1), state))
            (1, { state with stack := state.stack ++ [id] })
          if maxScopedDependencyDepth < depth then
            .error (some (.new .dependencyDepthExceeded (some id)))
          else .ok (depth, ⟨state.depths.put (id, depth), state.stack.dropLast⟩)

/-- The first loop of `validate_graph`. -/
def collect (scope : ScopeKind) (registrations : List (ScopedComponentRegistration Id Factory)) :
    Except (Halt Id) (Registrations Id Factory) :=
  registrations.foldlM (fun byId registration =>
    if registration.scope ≠ scope then
      .error (some (.new .wrongScope (some registration.id)))
    else if (byId.lookup registration.id).isSome then
      .error (some (.new .duplicateComponent (some registration.id)))
    else .ok (byId.put registration)) .empty

/-- The second loop: every declared dependency is registered. -/
def closedCheck (byId : Registrations Id Factory) : Except (Halt Id) Unit :=
  byId.entries.forM fun registration =>
    registration.dependencies.forM fun dependency =>
      if (byId.lookup dependency).isNone then
        .error (some (.new .missingDependency (some registration.id)))
      else .ok ()

/-- The third loop. A stack as long as the fuel has repeated a component. -/
def depthCheck (byId : Registrations Id Factory) : Except (Halt Id) (Validation Id) :=
  byId.entries.foldlM (fun state registration => do
    let (_, state) ← validateNode byId (byId.entries.length + 1) registration.id state
    return state) ⟨.empty, []⟩

def validateGraph (scope : ScopeKind)
    (registrations : List (ScopedComponentRegistration Id Factory)) :
    Except (Halt Id) (Registrations Id Factory) := do
  if maxScopedComponents < registrations.length then
    .error (some (.new .tooManyComponents none))
  else
    let byId ← collect scope registrations
    closedCheck byId
    let _ ← depthCheck byId
    return byId

end Registrations

section Building

variable {Id Factory Inputs Handle : Type} [LinearOrder Id]

inductive CreateAnswer (Handle : Type) where
  | handle (component : Handle)
  | rejected
  | panicked
  deriving DecidableEq

inductive CleanupAnswer where
  | released
  | failed
  | panicked
  deriving DecidableEq

/-- A call that reaches a factory, with the answer it gave. -/
inductive FactoryCall (Id Factory Inputs Handle : Type) where
  | create (id : Id) (factory : Factory) (inputs : Inputs) (dependencies : List (Id × Handle))
      (answer : CreateAnswer Handle)
  | cleanup (id : Id) (factory : Factory) (component : Handle) (answer : CleanupAnswer)

/-- What the factories of an application do, whatever calls came before. -/
structure Factories (Id Factory Inputs Handle : Type) where
  create : List (FactoryCall Id Factory Inputs Handle) → Factory → Inputs → List (Id × Handle) →
    CreateAnswer Handle
  cleanup : List (FactoryCall Id Factory Inputs Handle) → Factory → Handle → CleanupAnswer

structure LiveEntry (Id Factory Handle : Type) where
  id : Id
  handle : Handle
  factory : Factory

abbrev LiveEntries (Id Factory Handle : Type) [LinearOrder Id] :=
  SortedTable (@LiveEntry.id Id Factory Handle)

/-- `ScopeBuilder`, with the calls made so far. -/
structure ScopeBuilder (Id Factory Inputs Handle : Type) [LinearOrder Id] where
  registrations : Registrations Id Factory
  inputs : SortedTable (@Prod.fst Id Inputs)
  entries : LiveEntries Id Factory Handle
  order : List Id
  calls : List (FactoryCall Id Factory Inputs Handle)

variable (factories : Factories Id Factory Inputs Handle)

/-- Fails with a failure of one component. -/
def refuse {α : Type} (kind : ScopeBuildFailureKind) (id : Id) :
    Fallible (ScopeBuilder Id Factory Inputs Handle) (Halt Id) α :=
  throw (some (.new kind (some id)))

/-- Calls the factory of a component whose dependencies are built. -/
def createComponent (registration : ScopedComponentRegistration Id Factory) (inputs : Inputs)
    (dependencies : SortedTable (@Prod.fst Id Handle)) :
    Fallible (ScopeBuilder Id Factory Inputs Handle) (Halt Id) Handle := do
  let builder ← get
  let answer := factories.create builder.calls registration.factory inputs dependencies.entries
  let called := { builder with
    calls := builder.calls ++
      [FactoryCall.create registration.id registration.factory inputs dependencies.entries answer] }
  set called
  match answer with
  | .handle handle =>
    set { called with
      entries := called.entries.put ⟨registration.id, handle, registration.factory⟩
      order := called.order ++ [registration.id] }
    return handle
  | .rejected => refuse .factoryRejected registration.id
  | .panicked => refuse .factoryPanicked registration.id

/-- Constructs the dependencies of a component, each under its identifier. -/
def gather (one : Id → Fallible (ScopeBuilder Id Factory Inputs Handle) (Halt Id) Handle)
    (dependencies : List Id) :
    Fallible (ScopeBuilder Id Factory Inputs Handle) (Halt Id) (SortedTable (@Prod.fst Id Handle)) :=
  dependencies.foldlM (fun held dependency => do
    let handle ← one dependency
    return held.put (dependency, handle)) .empty

/-- `ScopeBuilder::construct`. -/
def construct : Nat → Id → Fallible (ScopeBuilder Id Factory Inputs Handle) (Halt Id) Handle
  | 0, _ => throw none
  | fuel + 1, id => do
    let builder ← get
    match builder.entries.lookup id with
    | some entry => return entry.handle
    | none =>
      match builder.registrations.lookup id with
      | none => refuse .missingDependency id
      | some registration =>
        let dependencies ← gather (construct fuel) registration.dependencies
        match builder.inputs.lookup id with
        | none => refuse .missingInputs id
        | some inputs => createComponent factories registration inputs.2 dependencies

/-- The loop of `build` over the registered identifiers. -/
def constructAll (ids : List Id) : Fallible (ScopeBuilder Id Factory Inputs Handle) (Halt Id) Unit :=
  ids.foldlM (fun _ id => do
    let builder ← get
    if (builder.entries.lookup id).isSome then return ()
    else
      let _ ← construct factories maxScopedDependencyDepth id
      return ()) ()

/-- What is left to clean up, the calls made so far, and the failures among them. -/
structure Draining (Id Factory Inputs Handle : Type) [LinearOrder Id] where
  entries : LiveEntries Id Factory Handle
  calls : List (FactoryCall Id Factory Inputs Handle)
  failures : List Id

/-- `cleanup_entry` of a component that is taken out of the entries. -/
def cleanupEntry (id : Id) (entry : LiveEntry Id Factory Handle)
    (state : Draining Id Factory Inputs Handle) : Draining Id Factory Inputs Handle :=
  let answer := factories.cleanup state.calls entry.factory entry.handle
  { entries := state.entries.retain fun other => other.id ≠ id
    calls := state.calls ++ [.cleanup id entry.factory entry.handle answer]
    failures :=
      match answer with
      | .released => state.failures
      | .failed | .panicked => state.failures ++ [id] }

/-- The loop of `cleanup_all` and of `close` over the identifiers as they are popped. -/
def drain : List Id → Draining Id Factory Inputs Handle → Draining Id Factory Inputs Handle
  | [], state => state
  | id :: rest, state =>
    match state.entries.lookup id with
    | none => drain rest state
    | some entry => drain rest (cleanupEntry factories id entry state)

structure LiveScope (Id Factory Handle : Type) [LinearOrder Id] where
  scope : ScopeKind
  entries : LiveEntries Id Factory Handle
  constructionOrder : List Id
  closed : Bool

namespace LiveScope

/-- `LiveScope::build`, with the calls it makes. -/
def build (scope : ScopeKind) (registrations : List (ScopedComponentRegistration Id Factory))
    (inputs : SortedTable (@Prod.fst Id Inputs)) :
    Except (Halt Id) (LiveScope Id Factory Handle) × List (FactoryCall Id Factory Inputs Handle) :=
  match validateGraph scope registrations with
  | .error halt => (.error halt, [])
  | .ok byId =>
    match runs (constructAll factories (byId.entries.map (·.id))) ⟨byId, inputs, .empty, [], []⟩ with
    | (.ok (), builder) => (.ok ⟨scope, builder.entries, builder.order, false⟩, builder.calls)
    | (.error none, builder) => (.error none, builder.calls)
    | (.error (some failure), builder) =>
      let report := drain factories builder.order.reverse ⟨builder.entries, builder.calls, []⟩
      (.error (some { failure with cleanupFailures := report.failures.length }), report.calls)

/-- `LiveScope::close`: the failures it reports, the scope behind it, and the calls. -/
def close (live : LiveScope Id Factory Handle)
    (calls : List (FactoryCall Id Factory Inputs Handle)) :
    List Id × LiveScope Id Factory Handle × List (FactoryCall Id Factory Inputs Handle) :=
  if live.closed then ([], live, calls)
  else
    let report := drain factories live.constructionOrder.reverse ⟨live.entries, calls, []⟩
    (report.failures, { live with entries := report.entries, constructionOrder := [], closed := true },
      report.calls)

end LiveScope

end Building

end OxideBatch.Scope
