import MoteKernel.Execution.ControlSteps
import MoteKernel.Lib.SymbolicReach

/-!
# The symbolic terminal-frontier proof

`execution/graph/frontier_proof.py`. The Boolean state bits are named by what they
stand for, and the number of a bit is its place in the order of allocation; the
manager's shared nodes are trees, which are equal exactly when their references are.
-/

namespace MoteKernel
open Checked Canonical

/-- `_Route`. -/
abbrev Route := Option GraphRouteId

/-- A pending arrival as the proof tracks it: the Join, the supersteps left before its target, and
the source. -/
structure JoinKey where
  join : CompiledJoin
  remaining : Nat
  source : GraphNodeId
  deriving DecidableEq

/-- The Boolean state bits, in the roles `_FrontierRelation.__init__` allocates them for. -/
inductive FrontierVariable where
  | current (node : GraphNodeId)
  | choice (node : GraphNodeId) (route : Route)
  | following (node : GraphNodeId)
  | joinCurrent (key : JoinKey)
  | joinFollowing (key : JoinKey)
  deriving DecidableEq

/-- The control tables handed to `_FrontierRelation`. A set of targets is its sorted list. -/
structure FrontierRelation where
  entries : List GraphNodeId
  routeOptions : Dict GraphNodeId (List Route)
  directTargets : Dict GraphNodeId (List GraphNodeId)
  conditionalTargets : Dict GraphNodeId (Dict GraphRouteId GraphNodeId)
  joinsBySource : Dict GraphNodeId (List CompiledJoin)

/-- The state of one depth-first search of `_symbolic_order`. -/
structure ComponentSearch where
  unseen : List GraphNodeId
  component : List GraphNodeId
  pending : List GraphNodeId

/-- One neighbour of the node taken from the stack. -/
def ComponentSearch.visit (search : ComponentSearch) (target : GraphNodeId) : ComponentSearch :=
  if target ∈ search.unseen then
    ⟨search.unseen.erase target, search.component ++ [target], search.pending ++ [target]⟩
  else search

/-- The inner loop of `_symbolic_order`. Every turn takes one node from the stack, and a node is
pushed when it leaves `unseen`, so `fuel` need not exceed the unseen nodes by more than one. -/
def ComponentSearch.explore (neighbours : GraphNodeId → List GraphNodeId) :
    Nat → ComponentSearch → ComponentSearch
  | 0, search => search
  | fuel + 1, search =>
      match search.pending.getLast? with
      | none => search
      | some source => explore neighbours fuel ((neighbours source).foldl ComponentSearch.visit
          { search with pending := search.pending.dropLast })

/-- The outer loop of `_symbolic_order`. The unseen nodes are kept in order, so the least one is
the first. -/
def orderComponents (neighbours : GraphNodeId → List GraphNodeId) :
    Nat → List GraphNodeId → List GraphNodeId
  | 0, _ => []
  | _ + 1, [] => []
  | fuel + 1, root :: rest =>
      let found := ComponentSearch.explore neighbours (rest.length + 1) ⟨rest, [root], [root]⟩
      sorted found.component ++ orderComponents neighbours fuel found.unseen

/-- The unordered pairs of a list, in the order of their positions. -/
def laterPairs {α : Type} : List α → List (α × α)
  | [] => []
  | first :: rest => rest.map (fun second => (first, second)) ++ laterPairs rest

namespace FrontierRelation

variable (relation : FrontierRelation)

def direct (node : GraphNodeId) : List GraphNodeId := relation.directTargets.getItem node

def conditional (node : GraphNodeId) : Dict GraphRouteId GraphNodeId :=
  relation.conditionalTargets.getItem node

def options (node : GraphNodeId) : List Route := relation.routeOptions.getItem node

/-- The links of `_symbolic_order`, in both directions. -/
def links : List (GraphNodeId × GraphNodeId) :=
  let both (pair : GraphNodeId × GraphNodeId) := [pair, (pair.2, pair.1)]
  relation.directTargets.items.flatMap (fun item =>
    item.2.flatMap (fun target => both (item.1, target))) ++
  relation.conditionalTargets.items.flatMap (fun item =>
    (item.2.values.filter (· ≠ END)).flatMap (fun target => both (item.1, target))) ++
  relation.joinsBySource.values.flatten.flatMap (fun join =>
    let members := join.identity.sources ++
      (if join.identity.target ≠ END then [join.identity.target] else [])
    members.flatMap (fun first => (members.filter (· ≠ first)).map (fun member => (first, member))))

/-- `sorted(neighbours[source])`. -/
def neighbours (source : GraphNodeId) : List GraphNodeId :=
  sortedSet ((relation.links.filter (fun link => link.1 = source)).map Prod.snd)

/-- `_symbolic_order`: independent control components are grouped. -/
def nodes : List GraphNodeId :=
  orderComponents relation.neighbours relation.routeOptions.keys.length
    (sorted relation.routeOptions.keys)

/-- `_unique_joins`. -/
def joins : List CompiledJoin :=
  relation.joinsBySource.values.flatten.dedup.insertionSort (fun a b =>
    toLex (a.identity.sources, a.identity.target) ≤ toLex (b.identity.sources, b.identity.target))

/-- `max(offset for _source, offset in join.source_target_offsets)`. -/
def maximum (join : CompiledJoin) : Nat :=
  (join.sourceTargetOffsets.map Prod.snd).foldr max 0

/-- `range(1, maximum + 1)`. -/
def remainings (join : CompiledJoin) : List Nat := List.range' 1 (maximum join)

/-- `_join_state_keys`. -/
def joinKeys : List JoinKey :=
  relation.joins.flatMap (fun join => (remainings join).flatMap (fun remaining =>
    join.identity.sources.map (fun source => ⟨join, remaining, source⟩)))

/-- The routes of `_choices_for_node`; a node without a choice has none. -/
def choices (node : GraphNodeId) : List Route :=
  let conditional := relation.conditional node
  let options := if conditional.items ≠ [] then (sorted conditional.keys).map some
    else relation.options node
  if options.length > 1 then options else []

/-- The state bits in the order in which `__init__` allocates them. -/
def allocation : List FrontierVariable :=
  relation.nodes.flatMap (fun node => .current node ::
    ((relation.choices node).map (.choice node) ++ [.following node])) ++
  (relation.joinKeys.map .joinCurrent ++ relation.joinKeys.map .joinFollowing)

/-- The number of a state bit. -/
def index (bit : FrontierVariable) : Nat := relation.allocation.idxOf bit

/-- The diagram of a state bit. -/
def literal (bit : FrontierVariable) : Bdd := Bdd.literal (relation.index bit)

/-- `_choice_literal`. -/
def choiceLiteral (node : GraphNodeId) (route : Route) : Bdd :=
  if relation.choices node ≠ [] then
    if (relation.choices node).contains route then relation.literal (.choice node route)
    else Bdd.false
  else if (relation.conditional node).items ≠ [] then
    if ∃ name ∈ route, name ∈ (relation.conditional node).keys then Bdd.true else Bdd.false
  else if (relation.options node).contains route then Bdd.true else Bdd.false

/-- `_exactly_one_when_active`. -/
def exactlyOneWhenActive (node : GraphNodeId) (active : Bdd) : Bdd :=
  let literals := (relation.choices node).map (fun route => relation.literal (.choice node route))
  Bdd.conjunction (Bdd.ite active (Bdd.disjunction literals) Bdd.true ::
    (laterPairs literals).map (fun pair =>
      Bdd.ite active (Bdd.apply .and pair.1 pair.2).negate Bdd.true))

/-- `_choice_constraints`. -/
def choiceConstraints : Bdd :=
  Bdd.conjunction ((relation.nodes.filter (fun node => relation.choices node ≠ [])).map
    (fun node => relation.exactlyOneWhenActive node (relation.literal (.current node))))

/-- `_join_arrival`. -/
def joinArrival (join : CompiledJoin) (remaining : Nat) (source : GraphNodeId) : Bdd :=
  Bdd.disjunction (relation.literal (.joinCurrent ⟨join, remaining, source⟩) ::
    if join.offset source = remaining then [relation.literal (.current source)] else [])

/-- The arrivals of all sources of a Join. -/
def joinArrivals (join : CompiledJoin) (remaining : Nat) : List Bdd :=
  join.identity.sources.map (relation.joinArrival join remaining)

/-- `causes[target]`: the diagrams of the causes of one target, with their sources. -/
def causes (target : GraphNodeId) : List (Bdd × List GraphNodeId) :=
  relation.nodes.flatMap (fun source =>
    ((relation.direct source).filter (· = target)).map (fun _ =>
      (relation.literal (.current source), [source])) ++
    ((relation.conditional source).items.filter (fun item => item.2 = target ∧ target ≠ END)).map
      (fun item => (Bdd.apply .and (relation.literal (.current source))
        (relation.choiceLiteral source (some item.1)), [source]))) ++
  (relation.joins.filter (fun join => join.identity.target = target ∧ target ≠ END)).map
    (fun join => (Bdd.conjunction (relation.joinArrivals join 1), join.identity.sources))

/-- The constraints on one Join at one distance from its target. -/
def joinConstraints (join : CompiledJoin) (remaining : Nat) : List Bdd :=
  let arrivals := relation.joinArrivals join remaining
  let complete := Bdd.conjunction arrivals
  (if remaining = 1 then Bdd.ite (Bdd.disjunction arrivals) complete Bdd.true
    else complete.negate) ::
  join.identity.sources.flatMap (fun source =>
    (if join.offset source = remaining then
      [(Bdd.apply .and (relation.literal (.joinCurrent ⟨join, remaining, source⟩))
        (relation.literal (.current source))).negate]
    else []) ++
    (if remaining > 1 then
      [Bdd.equivalence (relation.literal (.joinFollowing ⟨join, remaining - 1, source⟩))
        (relation.joinArrival join remaining source)]
    else []))

/-- `duplicate_causes` of one target. -/
def duplicatesAt (target : GraphNodeId) : List (Bdd × GraphNodeId × List GraphNodeId) :=
  (laterPairs (relation.causes target)).map (fun pair =>
    (Bdd.apply .and pair.1.1 pair.2.1, target, sortedSet (pair.1.2 ++ pair.2.2)))

/-- `duplicate_causes`. -/
def duplicateCauses : List (Bdd × GraphNodeId × List GraphNodeId) :=
  relation.nodes.flatMap relation.duplicatesAt

/-- The constraints on one target. -/
def targetConstraints (target : GraphNodeId) : List Bdd :=
  (relation.duplicatesAt target).map (fun duplicate => duplicate.1.negate) ++
  [Bdd.equivalence (relation.literal (.following target))
    (Bdd.disjunction ((relation.causes target).map Prod.fst))]

/-- `_build_relation`. -/
def transition : Bdd :=
  Bdd.conjunction (relation.choiceConstraints ::
    (relation.joins.flatMap (fun join =>
        (remainings join).flatMap (relation.joinConstraints join)) ++
      relation.nodes.flatMap relation.targetConstraints ++
      relation.joins.flatMap (fun join => join.identity.sources.map (fun source =>
        (relation.literal (.joinFollowing ⟨join, maximum join, source⟩)).negate))))

/-- `_initial_state`. -/
def initial : Bdd :=
  Bdd.conjunction (relation.nodes.map (fun node =>
      if node ∈ relation.entries then relation.literal (.current node)
      else (relation.literal (.current node)).negate) ++
    relation.joinKeys.map (fun key => (relation.literal (.joinCurrent key)).negate))

/-- `current_variables`. -/
def currentVariables : List FrontierVariable :=
  relation.nodes.map .current ++ relation.joinKeys.map .joinCurrent

/-- `following_variables`. -/
def followingVariables : List FrontierVariable :=
  relation.nodes.map .following ++ relation.joinKeys.map .joinFollowing

/-- `choice_variables`. -/
def choiceVariables : List FrontierVariable :=
  relation.nodes.flatMap (fun node => (relation.choices node).map (.choice node))

/-- The symbolic system of the tables. -/
def system : SymbolicSystem where
  current := relation.currentVariables.map relation.index
  choice := relation.choiceVariables.map relation.index
  following := relation.followingVariables.map relation.index
  initial := relation.initial
  relation := relation.transition

/-- `reachable`. -/
def reachable : Bdd := relation.system.reachable

/-- `following_empty`. -/
def followingEmpty : Bdd :=
  Bdd.conjunction (relation.followingVariables.map (fun v => (relation.literal v).negate))

/-- `_terminal_route_presence`. -/
def terminalRoutePresence (route : Route) : Bdd :=
  Bdd.disjunction ((relation.nodes.filter (fun node =>
      (relation.conditional node).items ≠ [] ∨ (relation.options node).contains route)).map
    (fun node => Bdd.apply .and (relation.literal (.current node))
      (relation.choiceLiteral node route)))

/-- The order of the routes in `completion_routes`. -/
def routeKey (route : Route) : Bool ×ₗ String := toLex (route.isSome, route.getD "")

/-- Every route a node may select, in order. -/
def routes : List Route :=
  (relation.routeOptions.values.flatten.dedup).insertionSort (fun a b => routeKey a ≤ routeKey b)

/-- The reachable transitions that end control. -/
def terminalTransition : Bdd :=
  Bdd.conjunction [relation.reachable,
    Bdd.disjunction (relation.nodes.map (fun node => relation.literal (.current node))),
    relation.transition, relation.followingEmpty]

/-- The guidance of the duplicate-activation error. -/
def duplicateGuidance (target : GraphNodeId) (sources : List GraphNodeId) : String :=
  if sources.length > 1 then
    "concurrent sources may be " ++ reprTuple sources ++ ", declare graph.add_join(" ++
      reprTuple sources ++ ", " ++ reprIdentity target ++ ")"
  else "source " ++ reprIdentity (sources.headD "") ++
    " contributes more than one path to the same target"

/-- The duplicate-activation error. -/
def duplicateActivation (target : GraphNodeId) (sources : List GraphNodeId) : ExecutionError :=
  ⟨.graphValidation, "target " ++ reprIdentity target ++
    " has multiple activation gates without an explicit Join; " ++
    duplicateGuidance target sources⟩

def conflictingRoutes : ExecutionError :=
  ⟨.graphValidation, "terminal frontier may expose conflicting completion routes"⟩

def noCompletion : ExecutionError :=
  ⟨.graphValidation, "graph has no statically viable successful completion"⟩

/-- The routes a terminal transition exposes. -/
def exposedRoutes : List Route :=
  relation.routes.filter (fun route =>
    (Bdd.apply .and relation.terminalTransition (relation.terminalRoutePresence route)).satisfiable)

/-- `completion_routes`. -/
def completionRoutes : Except ExecutionError (List Route) := do
  checkAll (fun duplicate => raiseIf
    ((Bdd.conjunction [relation.reachable, relation.choiceConstraints, duplicate.1]).satisfiable)
    (duplicateActivation duplicate.2.1 duplicate.2.2)) relation.duplicateCauses
  raiseIf (∃ pair ∈ laterPairs relation.routes,
      (Bdd.conjunction [relation.terminalTransition, relation.terminalRoutePresence pair.1,
        relation.terminalRoutePresence pair.2]).satisfiable)
    conflictingRoutes
  raiseIf (relation.exposedRoutes = []) noCompletion
  return relation.exposedRoutes

end FrontierRelation

/-- `prove_completion_routes`. -/
def proveCompletionRoutes (entries : List GraphNodeId)
    (routeOptions : Dict GraphNodeId (List Route))
    (directTargets : Dict GraphNodeId (List GraphNodeId))
    (conditionalTargets : Dict GraphNodeId (Dict GraphRouteId GraphNodeId))
    (joinsBySource : Dict GraphNodeId (List CompiledJoin)) : Except ExecutionError (List Route) :=
  FrontierRelation.completionRoutes
    ⟨entries, routeOptions, directTargets, conditionalTargets, joinsBySource⟩

end MoteKernel
