import ExynosVendor.Common.Linked

/-!
# The entities of a frame

`ExynosCameraFrame` keeps the entities of a frame, one for each pipe, in a list of chains: a
sibling starts a chain, a child is linked in behind its parent. An entity goes through
states as its pipe works; the frame counts those that become complete, and is complete
itself when it has counted as many as were requested.

Five searches look for an entity by its state. They are one loop with a different `switch`
each: `Choice` is what the `switch` says of an entity, and `searchLoop` the loop, which
advances the iterator and reads through it before it tests for the end.
-/

namespace ExynosVendor.Camera.FrameEntity

open Linked

/-- `entity_state_t`. -/
inductive EntityState where
  | nop
  | ready
  | processing
  | frameDone
  | complete
  | rework
  | frameSkip
deriving DecidableEq

/-- `frame_status_t`, as far as the entities set it. -/
inductive FrameState where
  | ready
  | complete
deriving DecidableEq

/-- `ExynosCameraFrameEntity`: its pipe, its state, the next one of its chain, and the pipe of
its parent, if that was told. -/
structure Entity where
  pipeId : ℕ
  state : EntityState
  nextEntity : Option ℕ
  parentPipeId : ℤ
deriving DecidableEq

/-- `ExynosCameraFrameEntity::ExynosCameraFrameEntity`. -/
def Entity.new (pipeId : ℕ) : Entity := ⟨pipeId, .ready, none, -1⟩

/-- `result_update_status_t`. -/
inductive ResultUpdateStatus where
  | none
  | required
  | ready
  | done
deriving DecidableEq

/-- `RESULT_UPDATE_TYPE_PARTIAL`, `_BUFFER` and `_ALL`. -/
inductive ResultUpdateType where
  | partialResult
  | buffer
  | all
deriving DecidableEq

/-- `ExynosCameraFrame`: the entities, the list of chains, what is counted, the state, and
what is to be told about the result of which pipe. -/
structure Frame where
  heap : Store Entity
  linkageList : List (Option ℕ)
  numRequestPipe : ℕ
  numCompletePipe : ℕ
  frameState : FrameState
  resultUpdatePipeId : ResultUpdateType → ℕ
  resultUpdateStatus : ResultUpdateType → ResultUpdateStatus

inductive Status where
  | noError
  | badValue
deriving DecidableEq

/-- `m_init`, with the pipe of no result (`MAX_PIPE_NUM`). -/
def Frame.init (maxPipeNum : ℕ) : Frame :=
  ⟨[], [], 0, 0, .ready, fun _ => maxPipeNum, fun _ => .none⟩

def Frame.setNumRequestPipe (f : Frame) (num : ℕ) : Frame := { f with numRequestPipe := num }

/-- The entity at an address. -/
def Frame.entity (f : Frame) (a : ℕ) : Option Entity := read f.heap a

/-- A new entity, with its address. -/
def Frame.newEntity (f : Frame) (pipeId : ℕ) : Frame × ℕ :=
  ({ f with heap := alloc f.heap (Entity.new pipeId) }, f.heap.length)

def Frame.addSiblingEntity (f : Frame) (newEntity : Option ℕ) : Frame :=
  { f with linkageList := f.linkageList ++ [newEntity] }

def Frame.setNextEntity (f : Frame) (a : ℕ) (next : Option ℕ) : Option Frame :=
  (f.entity a).map fun e => { f with heap := write f.heap a { e with nextEntity := next } }

def Frame.addChildEntity (f : Frame) (parentEntity : Option ℕ) (newEntity : ℕ) :
    Option (Frame × Status) :=
  match parentEntity with
  | none => some (f, .badValue)
  | some parent =>
      (f.entity parent).bind fun e =>
        (f.setNextEntity parent (some newEntity)).bind fun f =>
          (f.setNextEntity newEntity e.nextEntity).map fun f => (f, .noError)

/-- `setParentPipeId`: a parent is told only once. -/
def Frame.setParentPipeId (f : Frame) (a : ℕ) (parentPipeId : ℤ) : Option (Frame × Status) :=
  (f.entity a).map fun e =>
    if 0 ≤ e.parentPipeId then (f, .badValue)
    else ({ f with heap := write f.heap a { e with parentPipeId := parentPipeId } }, .noError)

/-- `addChildEntity`, with the pipe of the parent that feeds the child. A pipe below zero is
only warned of. -/
def Frame.addChildEntityOf (f : Frame) (parentEntity : Option ℕ) (newEntity : ℕ)
    (parentPipeId : ℤ) : Option (Frame × Status) :=
  match parentEntity with
  | none => some (f, .badValue)
  | some parent =>
      (f.entity parent).bind fun e =>
        (f.setNextEntity parent (some newEntity)).bind fun f =>
          (if 0 ≤ parentPipeId then f.setParentPipeId newEntity parentPipeId
            else some (f, .noError)).bind fun r =>
            match r.2 with
            | .badValue => some r
            | .noError =>
                (r.1.setNextEntity newEntity e.nextEntity).map fun f => (f, .noError)

/-! ## The states of the entities -/

/-- The loop of `searchEntityByPipeId` over the list. An entry that is `NULL` ends it. -/
def Frame.searchList (f : Frame) (pipeId : ℕ) : List (Option ℕ) → Option (Option ℕ)
  | [] => some none
  | none :: _ => some none
  | some a :: rest =>
      match find Entity.nextEntity f.heap (fun e => e.pipeId = pipeId) f.heap.length (some a) with
      | none => none
      | some (some b) => some (some b)
      | some none => f.searchList pipeId rest

def Frame.searchEntityByPipeId (f : Frame) (pipeId : ℕ) : Option (Option ℕ) :=
  f.searchList pipeId f.linkageList

/-- `m_updateStatusForResultUpdate`. -/
def Frame.updateStatusForResultUpdate (f : Frame) (pipeId : ℕ) : Frame :=
  { f with
    resultUpdateStatus := fun type =>
      if f.resultUpdatePipeId type = pipeId ∧ f.resultUpdateStatus type = .required then
        match type with
        | .partialResult | .all => .ready
        | .buffer => .done
      else f.resultUpdateStatus type }

/-- An entity is counted as complete, and the frame with it. -/
def Frame.countComplete (f : Frame) : Frame :=
  { f with
    numCompletePipe := f.numCompletePipe + 1
    frameState :=
      if f.numRequestPipe ≤ f.numCompletePipe + 1 then .complete else f.frameState }

def Frame.setEntityState (f : Frame) (pipeId : ℕ) (state : EntityState) :
    Option (Frame × Status) :=
  (f.searchEntityByPipeId pipeId).bind fun entity =>
    match entity with
    | none => some (f, .badValue)
    | some a =>
        (f.entity a).map fun e =>
          if e.state = .complete ∧ state ≠ .rework then (f, .noError)
          else
            let f :=
              if state = .complete then (f.updateStatusForResultUpdate pipeId).countComplete else f
            ({ f with heap := write f.heap a { e with state := state } }, .noError)

/-! ## The searches -/

/-- What a search does at an entity. -/
inductive Choice where
  /-- It is the one. -/
  | take
  /-- It is the one if it ends its chain; else the next of the chain is looked at. -/
  | takeLast
  /-- The next of the chain is looked at, if there is one. -/
  | skip
  /-- The chain is left. -/
  | leave
deriving DecidableEq

/-- What a search comes to: the entity that is returned, and whether the end of the list was
read through. -/
structure Found where
  entity : Option ℕ
  readsEnd : Bool
deriving DecidableEq

/-- The loop of a search: the iterator `r`, as the rest of the list, and the current entity.
After the iterator is advanced it is read, at the end as well. -/
def Frame.searchLoop (f : Frame) (choice : Entity → Choice) :
    ℕ → List (Option ℕ) → Option ℕ → Bool → Option Found
  | 0, _, _, _ => none
  | _ + 1, [], _, readsEnd => some ⟨none, readsEnd⟩
  | n + 1, r :: rest, curEntity, readsEnd =>
      let advance := f.searchLoop choice n rest (rest.head?.join) (readsEnd || rest.isEmpty)
      match curEntity with
      | none => advance
      | some a =>
          match f.entity a with
          | none => none
          | some e =>
              match choice e, e.nextEntity with
              | .take, _ => some ⟨some a, readsEnd⟩
              | .takeLast, none => some ⟨some a, readsEnd⟩
              | .takeLast, some b => f.searchLoop choice n (r :: rest) (some b) readsEnd
              | .skip, some b => f.searchLoop choice n (r :: rest) (some b) readsEnd
              | .skip, none => advance
              | .leave, _ => advance

/-- A search over the list. -/
def Frame.search (f : Frame) (choice : Entity → Choice) : Option Found :=
  if f.linkageList = [] then some ⟨none, false⟩
  else
    f.searchLoop choice (f.heap.length + f.linkageList.length + 1) f.linkageList
      f.linkageList.head?.join false

/-- The `switch` of `getFrameDoneEntity`. -/
def frameDoneChoice (e : Entity) : Choice :=
  match e.state with
  | .frameSkip | .rework | .frameDone => .takeLast
  | _ => .leave

def Frame.getFrameDoneEntity (f : Frame) : Option Found := f.search frameDoneChoice

/-- The same, where other pipes are not looked at, within a chain neither. -/
def frameDoneOfChoice (pipeId : ℕ) (e : Entity) : Choice :=
  if pipeId = e.pipeId then frameDoneChoice e else .leave

/-- `getFrameDoneEntity(pipeID)`. -/
def Frame.getFrameDoneEntityOf (f : Frame) (pipeId : ℕ) : Option Found :=
  f.search (frameDoneOfChoice pipeId)

/-- The `switch` of `getFrameDoneFirstEntity`. -/
def frameDoneFirstChoice (e : Entity) : Choice :=
  match e.state with
  | .rework => .takeLast
  | .frameDone => .take
  | .frameSkip | .complete => .skip
  | _ => .leave

def Frame.getFrameDoneFirstEntity (f : Frame) : Option Found := f.search frameDoneFirstChoice

/-- And of the one for a pipe. -/
def frameDoneFirstOfChoice (pipeId : ℕ) (e : Entity) : Choice :=
  match e.state with
  | .rework | .frameDone => if e.pipeId = pipeId then .take else .skip
  | .frameSkip | .complete => .skip
  | _ => .leave

/-- `getFrameDoneFirstEntity(pipeID)`. -/
def Frame.getFrameDoneFirstEntityOf (f : Frame) (pipeId : ℕ) : Option Found :=
  f.search (frameDoneFirstOfChoice pipeId)

/-- The `switch` of `getFirstEntityNotComplete`. -/
def notCompleteChoice (e : Entity) : Choice :=
  match e.state with
  | .frameSkip | .complete => .skip
  | _ => .take

def Frame.getFirstEntityNotComplete (f : Frame) : Option Found := f.search notCompleteChoice

/-! ## The end of a frame -/

/-- The loop of `m_deinit` over the list: the chains are deleted, and the list is emptied. -/
def deleteList (heap : Store Entity) : List (Option ℕ) → Option (Store Entity × List ℕ)
  | [] => some (heap, [])
  | r :: rest =>
      (release Entity.nextEntity heap.length heap r).bind fun d =>
        (deleteList d.1 rest).map fun d' => (d'.1, d.2 ++ d'.2)

/-- `m_deinit`: the frame afterwards, and the entities that are deleted in their order. -/
def Frame.deinit (f : Frame) : Option (Frame × List ℕ) :=
  (deleteList f.heap f.linkageList).map fun d =>
    ({ f with heap := d.1, linkageList := [] }, d.2)

end ExynosVendor.Camera.FrameEntity
