import ArcGraph.Proofs.Registry.Ids

/-!
What can come of a request to a registry, whatever state it is in.

`Objection` says in words of the stored edges when a request is turned down and
why. The edges need not carry the ids they are stored under, nor name each other.

An `Editing` changes a registry in place, a field or an edge at a time, and may
stop between two changes; what was changed by then stays changed. Requests are
written as such programs as well, and these stop before their first change or
not at all.
-/

namespace ArcGraph

variable {α β γ : Type}

inductive Request (α : Type) where
  | connect (source target : NodeId) (weight : Weight) (directed : Bool)
  | connectNodes (nodes : Nodes α) (source target : NodeId) (weight : Weight) (directed : Bool)
  | insert (edge : Edge α)
  | remove (key : EdgeId)

/-- Why a change in place stops. -/
inductive Fault where
  | failed (failure : ConnectFailure)
  /-- The counter has no id behind the last one. -/
  | exhausted
  deriving DecidableEq

/-! ### Changes in place -/

abbrev Editing (α β : Type) : Type :=
  ExceptT Fault (StateM (Registry α)) β

namespace Editing

/-- The result of a program, and the registry as the program leaves it. -/
def apply (program : Editing α β) (registry : Registry α) : Except Fault β × Registry α :=
  program.run.run registry

def refuse (cause : Refusal) : Editing α β :=
  throw (.failed (.refused cause))

def store (change : Table EdgeId (Edge α) → Table EdgeId (Edge α)) : Editing α Unit :=
  modify fun registry => { registry with edges := change registry.edges }

def setNextId (next : EdgeId → EdgeId) : Editing α Unit :=
  modify fun registry => { registry with nextId := next registry.nextId }

section Apply

variable (registry : Registry α)

@[simp] theorem apply_pure (value : β) :
    (pure value : Editing α β).apply registry = (.ok value, registry) := rfl

@[simp] theorem apply_throw (fault : Fault) :
    (throw fault : Editing α β).apply registry = (.error fault, registry) := rfl

@[simp] theorem apply_refuse (cause : Refusal) :
    (refuse cause : Editing α β).apply registry = (.error (.failed (.refused cause)), registry) :=
  rfl

@[simp] theorem apply_get :
    (get : Editing α (Registry α)).apply registry = (.ok registry, registry) :=
  rfl

@[simp] theorem apply_store (change : Table EdgeId (Edge α) → Table EdgeId (Edge α)) :
    (store change).apply registry = (.ok (), { registry with edges := change registry.edges }) :=
  rfl

@[simp] theorem apply_setNextId (next : EdgeId → EdgeId) :
    (setNextId next).apply registry = (.ok (), { registry with nextId := next registry.nextId }) :=
  rfl

@[simp] theorem apply_bind (program : Editing α β) (next : β → Editing α γ) :
    (program >>= next).apply registry =
      match program.apply registry with
      | (.ok value, later) => (next value).apply later
      | (.error fault, later) => (.error fault, later) := by
  unfold apply ExceptT.run StateT.run
  simp only [bind, ExceptT.bind, ExceptT.mk, StateT.bind, ExceptT.bindCont]
  cases program registry with
  | mk outcome later => cases outcome <;> rfl

end Apply

/-- The edge under a key, which has to be there. -/
def fetch (key : EdgeId) : Editing α (Edge α) := do
  match (← get).get? key with
  | some edge => pure edge
  | none => throw (.failed (.stray key))

/-- Where a new edge is to run, and which edge becomes its partner. -/
def route (source target : NodeId) (directed : Bool) :
    Editing α (NodeId × NodeId × Option EdgeId) := do
  match ((← get).between source target).map Edge.id with
  | [] => pure (source, target, none)
  | [id] =>
      let other ← fetch id
      if directed then
        if other.source = target then pure (source, target, some id)
        else refuse (.duplicateEdge source target)
      else pure (other.target, other.source, some id)
  | _ => refuse (.duplicateEdge source target)

def advance : Editing α Unit := do
  if (← get).nextId = lastId then throw .exhausted
  setNextId (· + 1)

section Requests

variable [Scalar α]

def create (id : EdgeId) (source target : NodeId) (weight : Weight) : Editing α (Edge α) :=
  match Edge.between id source target weight with
  | .ok edge => pure edge
  | .error cause => refuse cause

def connect (source target : NodeId) (weight : Weight) (directed : Bool) : Editing α EdgeId := do
  if source = target then refuse (.selfLoop source)
  let (source, target, partner) ← route source target directed
  let registry ← get
  let id := registry.nextId
  let edge ← create id source target weight
  store fun edges => edges.modifyAt? partner fun other =>
    (other.withPartner (some id)).withDirected directed
  store fun edges => edges.insert id
    { edge with partner, flags := { directed }, curvature := registry.curvature }
  advance
  pure id

def connectNodes (nodes : Nodes α) (source target : NodeId) (weight : Weight) (directed : Bool) :
    Editing α EdgeId := do
  for id in [source, target] do
    if (nodes id).isNone then refuse (.unknownNode id)
  connect source target weight directed

end Requests

def insert (edge : Edge α) : Editing α Unit := do
  if (← get).edges.contains edge.id then refuse (.duplicateId edge.id)
  let partner := edge.partner.bind (← get).get?
  store fun edges => edges.modifyAt? edge.partner fun other => other.withPartner (some edge.id)
  store fun edges => edges.modifyAt? ((partner.bind Edge.partner).filter (· ≠ edge.id)) fun old =>
    old.withPartner none
  setNextId fun next => max next (Registry.idAfter edge.id)
  store fun edges => edges.insert edge.id edge

def remove (key : EdgeId) : Editing α Unit := do
  match (← get).get? key with
  | none => refuse (.unknownEdge key)
  | some edge =>
      store fun edges => edges.erase key
      store fun edges => edges.modifyAt? edge.partner fun other => other.forget key

/-! ### In place and at once -/

theorem apply_fetch (registry : Registry α) (key : EdgeId) :
    (fetch key).apply registry =
      match registry.get? key with
      | some edge => (.ok edge, registry)
      | none => (.error (.failed (.stray key)), registry) := by
  simp only [fetch, apply_bind, apply_get]
  cases registry.get? key <;> rfl

theorem apply_advance (registry : Registry α) (room : registry.nextId < lastId) :
    advance.apply registry = (.ok (), { registry with nextId := registry.nextId + 1 }) := by
  have inside : registry.nextId ≠ lastId := UInt64.ne_of_lt room
  simp [advance, inside]

/-- A program stops where the plan fails, and otherwise finds the same nodes and partner. -/
theorem apply_route (registry : Registry α) {source target : NodeId} (apart : source ≠ target)
    (directed : Bool) :
    (route source target directed).apply registry =
      match registry.plan source target directed with
      | .ok connection =>
          (.ok (connection.source, connection.target, connection.partner), registry)
      | .error failure => (.error (.failed failure), registry) := by
  simp only [route, apply_bind, apply_get, Registry.plan, dif_neg apart]
  cases (registry.between source target).map Edge.id with
  | nil => rfl
  | cons id rest =>
      cases rest with
      | cons second more => rfl
      | nil =>
          simp only [apply_bind, apply_fetch]
          cases registry.get? id with
          | none => rfl
          | some other =>
              cases directed with
              | false => rfl
              | true => by_cases opposed : other.source = target <;> simp [opposed]

variable [Scalar α]

theorem apply_connect (registry : Registry α) (room : registry.nextId < lastId)
    (source target : NodeId) (weight : Weight) (directed : Bool) :
    (connect source target weight directed).apply registry =
      match registry.connect source target weight directed with
      | .ok (id, next) => (.ok id, next)
      | .error failure => (.error (.failed failure), registry) := by
  rw [Registry.connect]
  by_cases same : source = target
  · simp [connect, Registry.plan, same]
  · simp only [connect, if_neg same, apply_bind, apply_route registry same]
    cases registry.plan source target directed with
    | error failure => rfl
    | ok connection =>
        have created : Edge.between registry.nextId connection.source connection.target weight =
            .ok (Edge.plain (α := α) registry.nextId connection.source connection.target weight
              connection.distinct) := dif_neg connection.distinct
        simp only [apply_get, create, created, apply_pure, apply_store]
        rw [apply_advance]
        case room => exact room
        cases named : connection.partner <;> simp [Registry.establish, Table.modifyAt?, named]

theorem apply_connectNodes (registry : Registry α) (nodes : Nodes α) (source target : NodeId)
    (weight : Weight) (directed : Bool) :
    (connectNodes nodes source target weight directed).apply registry =
      match Registry.missingNode? nodes source target with
      | some id => (.error (.failed (.refused (.unknownNode id))), registry)
      | none => (connect source target weight directed).apply registry := by
  cases start : nodes source <;> cases finish : nodes target <;>
    simp [connectNodes, Registry.missingNode?, start, finish]

omit [Scalar α] in
theorem apply_insert (registry : Registry α) (edge : Edge α) :
    (insert edge).apply registry =
      match registry.insert edge with
      | .ok next => (.ok (), next)
      | .error cause => (.error (.failed (.refused cause)), registry) := by
  cases stored : registry.get? edge.id with
  | some old =>
      have present : registry.edges.contains edge.id = true := by
        simpa [Table.contains, Registry.get?] using congrArg Option.isSome stored
      simp [insert, present, registry.insert_of_get?_eq_some stored]
  | none =>
      have absent : registry.edges.contains edge.id = false := by
        simpa [Table.contains, Registry.get?] using congrArg Option.isSome stored
      simp [insert, absent, registry.insert_of_get?_eq_none stored, Registry.withInserted,
        Registry.dispossessed?]

omit [Scalar α] in
theorem apply_remove (registry : Registry α) (key : EdgeId) :
    (remove key).apply registry =
      match registry.remove key with
      | .ok (_, next) => (.ok (), next)
      | .error cause => (.error (.failed (.refused cause)), registry) := by
  cases stored : registry.get? key with
  | none => simp [remove, stored, registry.remove_of_get?_eq_none stored]
  | some edge => simp [remove, stored, registry.remove_of_get? stored, Registry.without]

end Editing

/-- The request, carried out in place. -/
def Request.carryOut [Scalar α] : Request α → Editing α Unit
  | .connect source target weight directed => do
      let _ ← Editing.connect source target weight directed
      pure ()
  | .connectNodes nodes source target weight directed => do
      let _ ← Editing.connectNodes nodes source target weight directed
      pure ()
  | .insert edge => .insert edge
  | .remove key => .remove key

namespace Registry

/-- The registry after a request, or why the request is turned down. -/
def answer [Scalar α] (registry : Registry α) : Request α → Except ConnectFailure (Registry α)
  | .connect source target weight directed =>
      (registry.connect source target weight directed).map Prod.snd
  | .connectNodes nodes source target weight directed =>
      (registry.connectNodes nodes source target weight directed).map Prod.snd
  | .insert edge => (registry.insert edge).mapError .refused
  | .remove key => ((registry.remove key).map Prod.snd).mapError .refused

/-! ### Objections -/

/-- What speaks against a request. The edge that decides about a second edge between two nodes is
the one stored under the id that the first one carries. -/
inductive Objection (registry : Registry α) : Request α → ConnectFailure → Prop
  | loop {node weight directed} :
      Objection registry (.connect node node weight directed) (.refused (.selfLoop node))
  | stray {source target weight directed edge} : source ≠ target →
      registry.between source target = [edge] → edge.id ∉ registry.edges.keys →
      Objection registry (.connect source target weight directed) (.stray edge.id)
  | crowded {source target weight directed} : source ≠ target →
      2 ≤ (registry.between source target).length →
      Objection registry (.connect source target weight directed)
        (.refused (.duplicateEdge source target))
  | alongside {source target weight edge other} : source ≠ target →
      registry.between source target = [edge] → registry.get? edge.id = some other →
      other.source ≠ target →
      Objection registry (.connect source target weight true)
        (.refused (.duplicateEdge source target))
  | sourceMissing {nodes source target weight directed} : nodes source = none →
      Objection registry (.connectNodes nodes source target weight directed)
        (.refused (.unknownNode source))
  | targetMissing {nodes source target weight directed} : nodes source ≠ none →
      nodes target = none →
      Objection registry (.connectNodes nodes source target weight directed)
        (.refused (.unknownNode target))
  | joined {nodes source target weight directed failure} : nodes source ≠ none →
      nodes target ≠ none → Objection registry (.connect source target weight directed) failure →
      Objection registry (.connectNodes nodes source target weight directed) failure
  | taken {edge} : edge.id ∈ registry.edges.keys →
      Objection registry (.insert edge) (.refused (.duplicateId edge.id))
  | unknown {key} : key ∉ registry.edges.keys →
      Objection registry (.remove key) (.refused (.unknownEdge key))

variable {registry : Registry α}

theorem objection_of_plan {source target : NodeId} {directed : Bool} {failure : ConnectFailure}
    (failed : registry.plan source target directed = .error failure) (weight : Weight) :
    registry.Objection (.connect source target weight directed) failure := by
  unfold plan at failed
  split at failed
  case isTrue same =>
    cases failed
    exact same ▸ .loop
  case isFalse apart =>
    cases joining : registry.between source target with
    | nil =>
        rw [joining] at failed
        cases failed
    | cons edge rest =>
        rw [joining] at failed
        cases rest with
        | cons second more =>
            cases failed
            exact .crowded apart (by simp [joining])
        | nil =>
            simp only [List.map_cons, List.map_nil] at failed
            cases found : registry.get? edge.id with
            | none =>
                rw [found] at failed
                cases failed
                exact .stray apart joining ((registry.get?_eq_none_iff edge.id).mp found)
            | some other =>
                rw [found] at failed
                cases directed with
                | false => cases failed
                | true =>
                    by_cases opposed : other.source = target
                    · simp [opposed] at failed
                    · simp only [opposed, if_true, if_false] at failed
                      cases failed
                      exact .alongside apart joining found opposed

theorem plan_of_objection {source target : NodeId} {weight : Weight} {directed : Bool}
    {failure : ConnectFailure}
    (objection : registry.Objection (.connect source target weight directed) failure) :
    registry.plan source target directed = .error failure := by
  cases objection with
  | loop => simp [plan]
  | stray apart alone missing =>
      have missing := (registry.get?_eq_none_iff _).mpr missing
      simp [plan, apart, alone, missing]
  | crowded apart several =>
      rw [plan, dif_neg apart]
      cases joining : registry.between source target with
      | nil => simp [joining] at several
      | cons edge rest =>
          cases rest with
          | nil => simp [joining] at several
          | cons second more => rfl
  | alongside apart alone found along => simp [plan, apart, alone, found, along]

variable [Scalar α]

theorem answer_connect_eq_error_iff {source target : NodeId} {weight : Weight} {directed : Bool}
    {failure : ConnectFailure} :
    registry.answer (.connect source target weight directed) = .error failure ↔
      registry.Objection (.connect source target weight directed) failure := by
  have planned : registry.answer (.connect source target weight directed) = .error failure ↔
      registry.plan source target directed = .error failure := by
    rw [answer, connect]
    cases registry.plan source target directed <;> simp [Except.map]
  rw [planned]
  exact ⟨fun failed => objection_of_plan failed weight, plan_of_objection⟩

omit [Scalar α] in
theorem missingNode?_of_target {nodes : Nodes α} {source target : NodeId}
    (start : nodes source ≠ none) (finish : nodes target = none) :
    missingNode? nodes source target = some target := by
  obtain ⟨disk, start⟩ := Option.ne_none_iff_exists'.mp start
  simp [missingNode?, start, finish]

omit [Scalar α] in
theorem missingNode?_eq_none {nodes : Nodes α} {source target : NodeId}
    (start : nodes source ≠ none) (finish : nodes target ≠ none) :
    missingNode? nodes source target = none := by
  obtain ⟨disk, start⟩ := Option.ne_none_iff_exists'.mp start
  obtain ⟨disk', finish⟩ := Option.ne_none_iff_exists'.mp finish
  simp [missingNode?, start, finish]

theorem answer_connectNodes {nodes : Nodes α} {source target : NodeId} (weight : Weight)
    (directed : Bool) (start : nodes source ≠ none) (finish : nodes target ≠ none) :
    registry.answer (.connectNodes nodes source target weight directed) =
      registry.answer (.connect source target weight directed) := by
  simp only [answer, connectNodes, missingNode?_eq_none start finish]

theorem answer_connectNodes_eq_error_iff {nodes : Nodes α} {source target : NodeId}
    {weight : Weight} {directed : Bool} {failure : ConnectFailure} :
    registry.answer (.connectNodes nodes source target weight directed) = .error failure ↔
      registry.Objection (.connectNodes nodes source target weight directed) failure := by
  by_cases start : nodes source = none
  · have missing : missingNode? nodes source target = some source := by simp [missingNode?, start]
    simp only [answer, connectNodes, missing, Except.map, Except.error.injEq]
    constructor
    · rintro rfl
      exact .sourceMissing start
    · intro objection
      cases objection <;> first | rfl | contradiction
  by_cases finish : nodes target = none
  · simp only [answer, connectNodes, missingNode?_of_target start finish, Except.map,
      Except.error.injEq]
    constructor
    · rintro rfl
      exact .targetMissing start finish
    · intro objection
      cases objection <;> first | rfl | contradiction
  · rw [answer_connectNodes weight directed start finish, answer_connect_eq_error_iff]
    constructor
    · exact .joined start finish
    · intro objection
      cases objection <;> first | assumption | contradiction

omit [Scalar α] in
theorem insert_eq_error_iff {edge : Edge α} {cause : Refusal} :
    registry.insert edge = .error cause ↔
      edge.id ∈ registry.edges.keys ∧ cause = .duplicateId edge.id := by
  cases stored : registry.get? edge.id with
  | none =>
      have missing := (registry.get?_eq_none_iff edge.id).mp stored
      simp [registry.insert_of_get?_eq_none stored, missing]
  | some old =>
      have present := (registry.mem_keys_iff edge.id).mpr ⟨old, stored⟩
      simp [registry.insert_of_get?_eq_some stored, present, eq_comm]

omit [Scalar α] in
theorem remove_eq_error_iff {key : EdgeId} {cause : Refusal} :
    registry.remove key = .error cause ↔
      key ∉ registry.edges.keys ∧ cause = .unknownEdge key := by
  cases stored : registry.get? key with
  | none =>
      have missing := (registry.get?_eq_none_iff key).mp stored
      simp [registry.remove_of_get?_eq_none stored, missing, eq_comm]
  | some edge =>
      have present := (registry.mem_keys_iff key).mpr ⟨edge, stored⟩
      simp [registry.remove_of_get? stored, present]

theorem mapError_refused_eq_error_iff {Result : Type} {outcome : Except Refusal Result}
    {failure : ConnectFailure} :
    outcome.mapError .refused = .error failure ↔
      ∃ cause, outcome = .error cause ∧ failure = .refused cause := by
  cases outcome with
  | error cause =>
      change Except.error (.refused cause) = Except.error failure ↔ _
      simp [eq_comm]
  | ok result =>
      change Except.ok result = Except.error failure ↔ _
      simp

/-- A request is turned down for what speaks against it, and for nothing else. -/
theorem answer_eq_error_iff (request : Request α) (failure : ConnectFailure) :
    registry.answer request = .error failure ↔ registry.Objection request failure := by
  cases request with
  | connect source target weight directed => exact answer_connect_eq_error_iff
  | connectNodes nodes source target weight directed => exact answer_connectNodes_eq_error_iff
  | insert edge =>
      have refused : registry.answer (.insert edge) = .error failure ↔
          ∃ cause, registry.insert edge = .error cause ∧ failure = .refused cause :=
        mapError_refused_eq_error_iff
      rw [refused]
      constructor
      · rintro ⟨cause, outcome, rfl⟩
        obtain ⟨present, rfl⟩ := insert_eq_error_iff.mp outcome
        exact .taken present
      · intro objection
        cases objection with
        | taken present => exact ⟨_, insert_eq_error_iff.mpr ⟨present, rfl⟩, rfl⟩
  | remove key =>
      have refused : registry.answer (.remove key) = .error failure ↔
          ∃ cause, registry.remove key = .error cause ∧ failure = .refused cause := by
        rw [answer, mapError_refused_eq_error_iff]
        cases registry.remove key <;> simp [Except.map]
      rw [refused]
      constructor
      · rintro ⟨cause, outcome, rfl⟩
        obtain ⟨missing, rfl⟩ := remove_eq_error_iff.mp outcome
        exact .unknown missing
      · intro objection
        cases objection with
        | unknown missing => exact ⟨_, remove_eq_error_iff.mpr ⟨missing, rfl⟩, rfl⟩

/-- Carried out in place, a request that is turned down leaves the registry as it was. -/
theorem apply_carryOut (room : registry.nextId < lastId) (request : Request α) :
    request.carryOut.apply registry =
      match registry.answer request with
      | .ok next => (.ok (), next)
      | .error failure => (.error (.failed failure), registry) := by
  cases request with
  | connect source target weight directed =>
      rw [Request.carryOut, Editing.apply_bind, Editing.apply_connect registry room, answer]
      cases registry.connect source target weight directed <;> rfl
  | connectNodes nodes source target weight directed =>
      rw [Request.carryOut, Editing.apply_bind, Editing.apply_connectNodes, answer, connectNodes]
      cases missingNode? nodes source target with
      | some id => rfl
      | none =>
          simp only [Editing.apply_connect registry room]
          cases registry.connect source target weight directed <;> rfl
  | insert edge =>
      rw [Request.carryOut, Editing.apply_insert, answer]
      cases registry.insert edge <;> rfl
  | remove key =>
      rw [Request.carryOut, Editing.apply_remove, answer]
      cases registry.remove key <;> rfl

/-- Whatever ids and partners the edges carry, a request is turned down exactly for one of the
objections, with both nodes present a connection of nodes is answered as that of their ids, and a
request in place ends without a fault of its own, with all or nothing done. -/
theorem outcome_of_request (room : registry.nextId < lastId) :
    (∀ (request : Request α) failure,
      registry.answer request = .error failure ↔ registry.Objection request failure) ∧
    (∀ (nodes : Nodes α) source target weight directed,
      nodes source ≠ none → nodes target ≠ none →
        registry.answer (.connectNodes nodes source target weight directed) =
          registry.answer (.connect source target weight directed)) ∧
    ∀ request : Request α, request.carryOut.apply registry =
      match registry.answer request with
      | .ok next => (.ok (), next)
      | .error failure => (.error (.failed failure), registry) := by
  refine ⟨answer_eq_error_iff, ?_, apply_carryOut room⟩
  intro nodes source target weight directed start finish
  exact answer_connectNodes weight directed start finish

/-- The edge from 1 to 2 carries the id of the edge from 3 to 1, which therefore decides. -/
theorem outcome_of_request_foreign_id :
    ∃ registry : Registry Float32, registry.nextId < lastId ∧
      (registry.between 2 1).map Edge.source = [1] ∧
      registry.answer (.connect 2 1 default true) = .error (.refused (.duplicateEdge 2 1)) ∧
      (Request.connect 2 1 default true).carryOut.apply registry =
        (.error (.failed (.refused (.duplicateEdge 2 1))), registry) := by
  let registry := (((empty (60 : Float32)).perform (.connect 1 2 default true)).perform
    (.connect 3 1 default true)).modify 1 fun edge => { edge with id := 2 }
  have room : registry.nextId < lastId := by decide
  obtain ⟨objections, -, inPlace⟩ := outcome_of_request room
  have refused : registry.answer (.connect 2 1 default true) =
      .error (.refused (.duplicateEdge 2 1)) :=
    (objections _ _).mpr (.alongside (by decide) rfl rfl (by decide))
  exact ⟨registry, room, rfl, refused, by rw [inPlace, refused]⟩

end Registry

end ArcGraph
