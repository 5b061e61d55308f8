import ExynosVendor.Common.Run
import ExynosVendor.Common.Threads
import Mathlib.Algebra.Ring.Int.Defs

/-!
# Requests and buffers of the Eden runtime service

The service passes on what its clients ask of the runtime and keeps three maps on the side:
the callback value and the process of each request, and the native handle of each buffer. Its
calls come on several binder threads, the completions on the runtime's, and each map has a
lock that is held for single accesses only. A call is a thread here, in the phase between two
accesses: an iterator it keeps is the node of the map it found, which is another one once the
entry has been erased.

The runtime gives a buffer an address that is not allocated, and `new` an address where no
request lives. It completes a request that it accepted, and once. `request->outputBuffers`
and `cValue.outbufAddr` are both the output address the client sent, and a callback object
lives and dies with its request. A use of an entry, a handle or a request that is gone stops
the machine (`fault`).
-/

namespace ExynosVendor.EdenRuntime

/-- An entry of `mapBufferHandle`: the node of the map, the native handle, the buffers it
has. -/
structure Entry where
  node : ℕ
  handle : ℕ
  num : ℕ
  deriving DecidableEq

/-- **Where a call is**, by the access it does next. -/
inductive Phase where
  /-- `allocateInputBuffer`, `allocateOutputBuffer`: `GetMatchedEMABuffers`. -/
  | allocMatch (buffers num : ℕ)
  /-- The new handle goes into the map. -/
  | allocStore (buffers num : ℕ)
  /-- The handle is handed to the client. -/
  | allocReply (buffers nh : ℕ)
  /-- `freeBuffer`: the handle that was found is deleted. -/
  | freeDelete (bufferAddr node : ℕ)
  /-- `FreeBuffers`. -/
  | freeRuntime (bufferAddr node : ℕ)
  /-- The client is told the number of buffers. -/
  | freeReply (bufferAddr node : ℕ)
  | freeErase (bufferAddr : ℕ)
  /-- `executeReq`: the request goes into the maps. -/
  | execStore (request outputAddr : ℕ) (pid : ℤ)
  /-- `ExecuteReq`. -/
  | execRun (request : ℕ)
  /-- `edenNotify`: the request is looked up. -/
  | notifyFind (request : ℕ)
  /-- `GetMatchedEMABuffers`. -/
  | notifyMatch (request outbufAddr : ℕ)
  /-- The handle of the output buffer is looked up. -/
  | notifyLookup (request outbufAddr : ℕ)
  | notifyDelete (request outbufAddr node : ℕ)
  /-- A new one takes its place. -/
  | notifyStore (request outbufAddr num : ℕ)
  /-- `executeCallback`. -/
  | notifyCall (request outbufAddr nh : ℕ)
  /-- The request is deleted. -/
  | notifyRelease (request : ℕ)
  | notifyErase (request : ℕ)
  deriving DecidableEq

/-- **The state.** `allocated` and `accepted` are the runtime's: the buffers it has, and the
requests it has taken and not yet completed. `handles` and `requests` are the native handles
and the requests that live. -/
structure State where
  allocated : ℕ → Bool
  mapBufferHandle : ℕ → Option Entry
  handles : ℕ → Bool
  nextHandle : ℕ
  nextNode : ℕ
  accepted : ℕ → Bool
  mapReqCvalue : ℕ → Option ℕ
  mapReqPid : ℕ → Option ℤ
  requests : ℕ → Bool
  calls : List Phase
  fault : Bool

def State.initial : State :=
  ⟨fun _ => false, fun _ => none, fun _ => false, 0, 0, fun _ => false, fun _ => none,
    fun _ => none, fun _ => false, [], false⟩

/-- **What can happen**: the runtime has allocated buffers for a client, a client frees
buffers, a request is made, the runtime completes one, a call goes on. `ok` is what the
runtime answers, or whether the process is alive. -/
inductive Event where
  | allocateBuffers (buffers num : ℕ)
  | freeBuffer (bufferAddr : ℕ)
  | executeReq (request outputAddr : ℕ) (pid : ℤ)
  | complete (request : ℕ)
  | step (n : ℕ) (ok : Bool)
  deriving DecidableEq

namespace State

/-- A call goes on, or ends. -/
def goOn (s : State) (n : ℕ) (next : Option Phase) : State :=
  { s with calls := Threads.move s.calls n next }

/-- Something that is gone was used. -/
def misuse (s : State) : State := { s with fault := true }

/-- A native handle is created and put into the map, into a node of its own or the one that
is there. -/
def store (s : State) (buffers num : ℕ) (node : ℕ) : State :=
  { s with
    mapBufferHandle := Function.update s.mapBufferHandle buffers (some ⟨node, s.nextHandle, num⟩)
    handles := Function.update s.handles s.nextHandle true
    nextHandle := s.nextHandle + 1
    nextNode := s.nextNode + 1 }

/-- `native_handle_delete(it->second.first)`: with the iterator to the node that was found. -/
def deleteHandle (s : State) (buffers node : ℕ) : Option (State × Entry) :=
  match s.mapBufferHandle buffers with
  | none => none
  | some e =>
    if e.node = node ∧ s.handles e.handle = true then
      some ({ s with handles := Function.update s.handles e.handle false }, e)
    else none

/-- `allocateInputBuffer` and `allocateOutputBuffer`. -/
def stepAlloc (s : State) (n : ℕ) (ok : Bool) : Phase → State
  | .allocMatch buffers num => s.goOn n (if ok then some (.allocStore buffers num) else none)
  | .allocStore buffers num =>
    let node := ((s.mapBufferHandle buffers).map Entry.node).getD s.nextNode
    (s.store buffers num node).goOn n (some (.allocReply buffers s.nextHandle))
  | .allocReply _ nh => if s.handles nh then s.goOn n none else s.misuse
  | _ => s

def stepFree (s : State) (n : ℕ) (ok : Bool) : Phase → State
  | .freeDelete bufferAddr node =>
    match s.deleteHandle bufferAddr node with
    | none => s.misuse
    | some (s', _) => s'.goOn n (some (.freeRuntime bufferAddr node))
  | .freeRuntime bufferAddr node =>
    if ok then
      { s with allocated := Function.update s.allocated bufferAddr false }.goOn n
        (some (.freeReply bufferAddr node))
    else s.goOn n none
  | .freeReply bufferAddr node =>
    if (s.mapBufferHandle bufferAddr).map Entry.node = some node then
      s.goOn n (some (.freeErase bufferAddr))
    else s.misuse
  | .freeErase bufferAddr =>
    { s with mapBufferHandle := Function.update s.mapBufferHandle bufferAddr none }.goOn n none
  | _ => s

def stepExec (s : State) (n : ℕ) (ok : Bool) : Phase → State
  | .execStore request outputAddr pid =>
    { s with
      mapReqCvalue := Function.update s.mapReqCvalue request (some outputAddr)
      mapReqPid := Function.update s.mapReqPid request (some pid) }.goOn n
        (some (.execRun request))
  | .execRun request =>
    if ok then { s with accepted := Function.update s.accepted request true }.goOn n none
    else if s.requests request then
      { s with requests := Function.update s.requests request false }.goOn n none
    else s.misuse
  | _ => s

/-- `edenNotify`. -/
def stepNotify (s : State) (n : ℕ) (ok : Bool) : Phase → State
  | .notifyFind request =>
    match s.mapReqCvalue request with
    | none => s.goOn n none
    | some outbufAddr =>
      s.goOn n (if request = 0 then none else some (.notifyMatch request outbufAddr))
  | .notifyMatch request outbufAddr =>
    if s.requests request then
      s.goOn n (if ok then some (.notifyLookup request outbufAddr) else none)
    else s.misuse
  | .notifyLookup request outbufAddr =>
    s.goOn n ((s.mapBufferHandle outbufAddr).map fun e => .notifyDelete request outbufAddr e.node)
  | .notifyDelete request outbufAddr node =>
    match s.deleteHandle outbufAddr node with
    | none => s.misuse
    | some (s', e) => s'.goOn n (some (.notifyStore request outbufAddr e.num))
  | .notifyStore request outbufAddr num =>
    (s.store outbufAddr num s.nextNode).goOn n
      (some (.notifyCall request outbufAddr s.nextHandle))
  | .notifyCall request _ nh =>
    -- the look-up with `[]` adds the request to the map if it is not there
    let s' := { s with
      mapReqPid := Function.update s.mapReqPid request (some ((s.mapReqPid request).getD 0)) }
    if ok ∧ s.handles nh = false then s.misuse else s'.goOn n (some (.notifyRelease request))
  | .notifyRelease request =>
    if s.requests request then
      { s with requests := Function.update s.requests request false }.goOn n
        (some (.notifyErase request))
    else s.misuse
  | .notifyErase request =>
    { s with
      mapReqCvalue := Function.update s.mapReqCvalue request none
      mapReqPid := Function.update s.mapReqPid request none }.goOn n none
  | _ => s

/-- The next step of a call. -/
def stepCall (s : State) (n : ℕ) (ok : Bool) (p : Phase) : State :=
  match p with
  | .allocMatch .. | .allocStore .. | .allocReply .. => s.stepAlloc n ok p
  | .freeDelete .. | .freeRuntime .. | .freeReply .. | .freeErase .. => s.stepFree n ok p
  | .execStore .. | .execRun .. => s.stepExec n ok p
  | .notifyFind .. | .notifyMatch .. | .notifyLookup .. | .notifyDelete .. | .notifyStore ..
  | .notifyCall .. | .notifyRelease .. | .notifyErase .. => s.stepNotify n ok p

def begin (s : State) (p : Phase) : State := { s with calls := s.calls ++ [p] }

/-- **A step** of the service. -/
def step (s : State) (e : Event) : State :=
  if s.fault then s
  else
    match e with
    | .allocateBuffers buffers num =>
      if s.allocated buffers then s
      else
        { s with allocated := Function.update s.allocated buffers true }.begin
          (.allocMatch buffers num)
    | .freeBuffer bufferAddr =>
      if bufferAddr = 0 then s
      else
        match s.mapBufferHandle bufferAddr with
        | none => s
        | some e => s.begin (.freeDelete bufferAddr e.node)
    | .executeReq request outputAddr pid =>
      if request = 0 ∨ s.requests request = true then s
      else
        { s with requests := Function.update s.requests request true }.begin
          (.execStore request outputAddr pid)
    | .complete request =>
      if s.accepted request then
        { s with accepted := Function.update s.accepted request false }.begin
          (.notifyFind request)
      else s
    | .step n ok =>
      match s.calls[n]? with
      | none => s
      | some p => s.stepCall n ok p

attribute [local simp] goOn store begin stepAlloc stepFree stepExec stepNotify stepCall

end State

/-! ## What a call stands for -/

namespace Phase

/-- The buffer is allocated and not in the map yet. -/
def allocating (a : ℕ) : Phase → Bool
  | .allocMatch b _ | .allocStore b _ => b = a
  | _ => false

/-- The handle of the buffer is deleted and still in the map. -/
def deleted (a : ℕ) : Phase → Bool
  | .freeRuntime b _ | .freeReply b _ | .freeErase b | .notifyStore _ b _ => b = a
  | _ => false

/-- The buffer is freed and still in the map. -/
def freed (a : ℕ) : Phase → Bool
  | .freeReply b _ | .freeErase b => b = a
  | _ => false

/-- The request lives and is not in the maps yet. -/
def storing (r : ℕ) : Phase → Bool
  | .execStore q _ _ => q = r
  | _ => false

/-- The request lives and is in the maps. -/
def carrying (r : ℕ) : Phase → Bool
  | .execRun q | .notifyFind q | .notifyMatch q _ | .notifyLookup q _ | .notifyDelete q _ _
  | .notifyStore q _ _ | .notifyCall q _ _ | .notifyRelease q => q = r
  | _ => false

/-- The request is deleted and still in the maps. -/
def erasing (r : ℕ) : Phase → Bool
  | .notifyErase q => q = r
  | _ => false

-- the counts below are by these equations, made here once
attribute [local simp] allocating deleted freed storing carrying erasing

end Phase

namespace State

variable (s : State)

/-! ## The law and the condition -/

/-- The buffer has a handle in the map that lives. -/
def served (a : ℕ) : Bool := (s.mapBufferHandle a).any fun e => s.handles e.handle

/-- No call is between two accesses about a request. -/
def Settled (r : ℕ) : Prop :=
  ∀ p ∈ s.calls, p.storing r = false ∧ p.carrying r = false ∧ p.erasing r = false

/-- Nor about a buffer. -/
def Quiet (a : ℕ) : Prop :=
  ∀ p ∈ s.calls, p.allocating a = false ∧ p.deleted a = false ∧ p.freed a = false

/-- **The books are right**: nothing that is gone was used; a request the runtime has is in
both maps and lives, and one that no call is about is in the maps and lives exactly if the
runtime has it; so is a buffer, with its handle; and every native handle that lives is in the
map. -/
structure Lawful : Prop where
  fault : s.fault = false
  accepted : ∀ r, s.accepted r = true → (s.mapReqCvalue r).isSome = true ∧
    (s.mapReqPid r).isSome = true ∧ s.requests r = true
  requests : ∀ r, s.Settled r → (s.mapReqCvalue r).isSome = s.accepted r ∧
    (s.mapReqPid r).isSome = s.accepted r ∧ s.requests r = s.accepted r
  buffers : ∀ a, s.Quiet a → (s.mapBufferHandle a).isSome = s.allocated a ∧
    s.served a = s.allocated a
  handles : ∀ h, s.handles h = true → ∃ a e, s.mapBufferHandle a = some e ∧ e.handle = h

/-- Nobody else has deleted the handle of a buffer without having replaced or erased its
entry. -/
def Unclaimed (a : ℕ) : Prop := ∀ p ∈ s.calls, p.deleted a = false

/-- **What a call needs** to go on without harm: the runtime does as it is asked, the request
completed has a buffer, the entry that was found is still there and no other call is deleting
it, a freed buffer has left the map before its address comes back, and so has a deleted
request. -/
def MayGoOn (ok : Bool) : Phase → Prop
  | .allocMatch .. | .freeRuntime .. | .execRun .. | .notifyMatch .. => ok = true
  | .allocStore buffers _ => ∀ p ∈ s.calls, p.freed buffers = false
  | .freeDelete buffers node | .notifyDelete _ buffers node =>
    (s.mapBufferHandle buffers).map Entry.node = some node ∧ s.Unclaimed buffers
  | .allocReply buffers nh =>
    (s.mapBufferHandle buffers).map Entry.handle = some nh ∧ s.Unclaimed buffers
  | .notifyCall _ buffers nh =>
    ok = true → (s.mapBufferHandle buffers).map Entry.handle = some nh ∧ s.Unclaimed buffers
  | .notifyLookup _ buffers => s.mapBufferHandle buffers ≠ none
  | .execStore request _ _ => ∀ p ∈ s.calls, p.erasing request = false
  | _ => True

/-- **The condition** on a step. -/
def Meets : Event → Prop
  | .step n ok => s.fault = false → ∀ p ∈ s.calls[n]?, s.MayGoOn ok p
  | _ => True

instance (a : ℕ) : Decidable (s.Unclaimed a) :=
  inferInstanceAs (Decidable (∀ p ∈ s.calls, p.deleted a = false))

instance MayGoOn.decidable (ok : Bool) : (p : Phase) → Decidable (s.MayGoOn ok p)
  | .allocMatch .. | .freeRuntime .. | .execRun .. | .notifyMatch .. =>
    inferInstanceAs (Decidable (ok = true))
  | .allocStore buffers _ => inferInstanceAs (Decidable (∀ p ∈ s.calls, p.freed buffers = false))
  | .freeDelete buffers node | .notifyDelete _ buffers node => inferInstanceAs (Decidable
      ((s.mapBufferHandle buffers).map Entry.node = some node ∧ s.Unclaimed buffers))
  | .allocReply buffers nh => inferInstanceAs (Decidable
      ((s.mapBufferHandle buffers).map Entry.handle = some nh ∧ s.Unclaimed buffers))
  | .notifyCall _ buffers nh => inferInstanceAs (Decidable
      (ok = true → (s.mapBufferHandle buffers).map Entry.handle = some nh ∧ s.Unclaimed buffers))
  | .notifyLookup _ buffers => inferInstanceAs (Decidable (s.mapBufferHandle buffers ≠ none))
  | .execStore request _ _ =>
    inferInstanceAs (Decidable (∀ p ∈ s.calls, p.erasing request = false))
  | .freeReply .. | .freeErase .. | .notifyFind .. | .notifyStore .. | .notifyRelease ..
  | .notifyErase .. => isTrue trivial

instance Meets.decidable : (e : Event) → Decidable (s.Meets e)
  | .step n ok =>
    inferInstanceAs (Decidable (s.fault = false → ∀ p ∈ s.calls[n]?, s.MayGoOn ok p))
  | .allocateBuffers .. | .freeBuffer .. | .executeReq .. | .complete .. => isTrue trivial

end State

end ExynosVendor.EdenRuntime
