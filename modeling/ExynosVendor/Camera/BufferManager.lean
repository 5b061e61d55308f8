import ExynosVendor.Camera.Buffer

/-!
# The buffer manager

`ExynosCameraBufferManager` and `InternalExynosCameraBufferManager` of
`Buffers/ExynosCameraBufferManager.cpp`. A manager hands out buffers by
their indices, which start at an offset, and says twice which of them are
available: by a queue of indices and by each buffer's permission. It may
grow, on demand, silently or when it is told to, and shrink again.

A call that meets the assertion of `getMetaPlaneIndex` ends the process;
its result is then `none`. A mapping of memory succeeds.
-/

namespace ExynosVendor.Camera

/-- What ION answers: whether it has memory for a plane of a buffer, and
whether it merges the buffers of a batch. -/
structure Ion where
  alloc : ℤ → ℤ → Bool
  merge : ℤ → ℤ → Bool

/-- ION with memory for everything. -/
def Ion.plenty : Ion := ⟨fun _ _ => true, fun _ _ => true⟩

/-- **The manager.** -/
structure BufferManager where
  /-- `m_flagAllocated`. -/
  flagAllocated : Bool
  /-- `m_reqBufCount`. -/
  reqBufCount : ℤ
  /-- `m_allocatedBufCount`. -/
  allocatedBufCount : ℤ
  /-- `m_allowedMaxBufCount`. -/
  allowedMaxBufCount : ℤ
  /-- `m_flagSkipAllocation`. -/
  flagSkipAllocation : Bool
  /-- `m_hasMetaPlane`. -/
  hasMetaPlane : Bool
  /-- `m_hasDebugInfoPlane`. -/
  hasDebugInfoPlane : Bool
  /-- `m_buffer`. -/
  buffer : ℤ → Buffer
  /-- `m_availableBufferIndexQ`. -/
  availableBufferIndexQ : List ℤ
  /-- `m_allocMode`. -/
  allocMode : AllocMode
  /-- `m_indexOffset`. -/
  indexOffset : ℤ
  /-- `m_allocationThread`: how many buffers it has still to add. -/
  allocationThread : ℕ

namespace BufferManager

def init : BufferManager where
  flagAllocated := false
  reqBufCount := 0
  allocatedBufCount := 0
  allowedMaxBufCount := 0
  flagSkipAllocation := false
  hasMetaPlane := false
  hasDebugInfoPlane := false
  buffer := fun _ => Buffer.initial
  availableBufferIndexQ := []
  allocMode := .atOnce
  indexOffset := 0
  allocationThread := 0

/-- `m_buffer[bufIndex] = ...`. -/
def setBuffer (m : BufferManager) (bufIndex : ℤ) (b : Buffer) : BufferManager :=
  { m with buffer := Function.update m.buffer bufIndex b }

/-- Behind the last index. -/
def endIndex (m : BufferManager) : ℤ := m.allocatedBufCount + m.indexOffset

/-- `updateStatus`, of an index that is not negative. -/
def updateStatus (m : BufferManager) (bufIndex : ℤ) (position : Position)
    (permission : Permission) : BufferManager :=
  m.setBuffer bufIndex
    { m.buffer bufIndex with index := bufIndex, position := position, permission := permission }

/-- `m_getImagePlaneCount`. -/
def getImagePlaneCount (m : BufferManager) (planeCount : ℤ) : ℤ :=
  if planeCount < 1 then 0
  else planeCount - (if m.hasDebugInfoPlane then 1 else 0) - (if m.hasMetaPlane then 1 else 0)

/-- `m_getTotalPlaneCount`, in `int`s. -/
def getTotalPlaneCount (planeCount batchSize : ℤ) (hasMetaPlane hasDebugInfoPlane : Bool) : ℤ :=
  if planeCount < 1 ∨ batchSize < 1 then 0
  else
    let imagePlaneCount :=
      planeCount - (if hasDebugInfoPlane then 1 else 0) - (if hasMetaPlane then 1 else 0)
    toInt (imagePlaneCount * batchSize + (planeCount - imagePlaneCount))

/-! ## Configuration -/

/-- The loop of `setInfo` over the planes of one buffer. `place` is where
the size of a plane goes. -/
def setPlanes (size : ℤ → ℕ) (place : ℤ → ℤ) : List ℤ → Buffer → Bool × Buffer
  | [], b => (true, b)
  | plane :: planes, b =>
      if size plane = 0 then (false, b)
      else setPlanes size place planes (b.setSize (place plane) (size plane))

/-- The sizes of the image planes of the other buffers of a batch. -/
def setBatch (size : ℤ → ℕ) (imagePlaneCount batchSize : ℤ) (b : Buffer) : Buffer :=
  (Int.range 1 batchSize).foldl (fun b batchIndex =>
    (Int.range 0 imagePlaneCount).foldl (fun b plane =>
      b.setSize (batchIndex * imagePlaneCount + plane) (size plane)) b) b

/-- The loop of `setInfo` over the buffers. -/
def setBuffers (info : Config) (size : ℤ → ℕ) (place : ℤ → ℤ) :
    List ℤ → BufferManager → Bool × BufferManager
  | [], m => (true, m)
  | bufIndex :: rest, m =>
      match setPlanes size place (Int.range 0 info.planeCount) (m.buffer bufIndex) with
      | (false, b) => (false, m.setBuffer bufIndex b)
      | (true, b) =>
          let b := if info.batchSize > 1 then
            setBatch size (m.getImagePlaneCount info.planeCount) info.batchSize b else b
          setBuffers info size place rest (m.setBuffer bufIndex
            { b with
              planeCount := info.planeCount
              batchSize := info.batchSize
              hasMetaPlane := m.hasMetaPlane
              hasDebugInfoPlane := m.hasDebugInfoPlane })

/-- The sizes of a configuration, with those of the planes the manager
adds: the debug information is the last, and in front of it the
metadata. -/
def planeSizes (info : Config) : ℤ → ℕ :=
  let index := info.planeCount - 1
  let size := if info.createDebugInfoPlane then
    Function.update info.size index debugInfoPlaneSize else info.size
  let index := if info.createDebugInfoPlane then index - 1 else index
  if info.createMetaPlane then Function.update size index metaPlaneSize else size

/-- `curPlaneIndex`: behind the image planes of all the batch. -/
def curPlaneIndex (info : Config) (total planeIndex : ℤ) : ℤ :=
  let index := info.planeCount - 1
  if info.createMetaPlane ∧
      planeIndex = (if info.createDebugInfoPlane then index - 1 else index) then
    if info.createDebugInfoPlane then total - 2 else total - 1
  else if info.createDebugInfoPlane ∧ planeIndex = index then total - 1
  else planeIndex

def setInfo (m : BufferManager) (info : Config) : Status × BufferManager :=
  let m := { m with indexOffset := info.startBufIndex }
  let allowedMaxBufCount :=
    if info.allowedMaxBufCount < info.reqBufCount then info.reqBufCount
    else info.allowedMaxBufCount
  if info.reqBufCount < 0 ∨ videoMaxFrame < info.reqBufCount then (.badValue, m)
  else if info.planeCount < 0 ∨ bufferMaxPlanes ≤ info.planeCount then (.badValue, m)
  else
    let total := getTotalPlaneCount info.planeCount info.batchSize info.createMetaPlane
      info.createDebugInfoPlane
    if total < 1 ∨ bufferMaxPlanes < total then (.invalidOperation, m)
    else
      let m := { m with
        hasDebugInfoPlane := m.hasDebugInfoPlane || info.createDebugInfoPlane
        hasMetaPlane := m.hasMetaPlane || info.createMetaPlane }
      match setBuffers info (planeSizes info) (curPlaneIndex info total)
          (Int.range m.indexOffset (toInt (allowedMaxBufCount + m.indexOffset))) m with
      | (false, m) => (.badValue, m)
      | (true, m) =>
          (.noError, { m with
            allowedMaxBufCount := toInt (allowedMaxBufCount + info.startBufIndex)
            reqBufCount := info.reqBufCount
            allocMode := info.allocMode })

/-! ## Memory -/

/-- The planes of one buffer in `m_defaultAlloc`; those that have memory
are left out. -/
def allocPlanes (alloc : ℤ → Bool) : List ℤ → Buffer → Bool × Buffer
  | [], b => (true, b)
  | plane :: planes, b =>
      if b.fd plane then allocPlanes alloc planes b
      else if b.size plane ≠ 0 ∧ alloc plane then
        allocPlanes alloc planes (b.setFd plane true)
      else (false, b)

/-- The planes of one buffer in `m_defaultFree`. -/
def freePlanes : List ℤ → Buffer → Bool × Buffer
  | [], b => (true, b)
  | plane :: planes, b =>
      if b.fd plane then freePlanes planes (b.setFd plane false) else (false, b)

/-- `m_defaultFree`. A buffer that is in process is left out, and the
others are gone on with. -/
def defaultFree (extraPlane : ExtraPlane) : List ℤ → BufferManager →
    Option (Bool × BufferManager)
  | [], m => some (true, m)
  | bufIndex :: rest, m =>
      if (m.buffer bufIndex).isAvaliable then do
        let planes ← (m.buffer bufIndex).planes extraPlane
        match freePlanes planes (m.buffer bufIndex) with
        | (false, b) => some (false, m.setBuffer bufIndex b)
        | (true, b) =>
            defaultFree extraPlane rest ((m.setBuffer bufIndex b).updateStatus bufIndex .none .none)
      else do
        let (_, m) ← defaultFree extraPlane rest m
        some (false, m)

/-- The loop of `m_defaultAlloc`. Behind a failure it frees, from the first
buffer of the array on. -/
def allocLoop (ion : Ion) (extraPlane : ExtraPlane) : List ℤ → BufferManager →
    Option (Bool × BufferManager)
  | [], m => some (true, m)
  | bufIndex :: rest, m => do
      let planes ← (m.buffer bufIndex).planes extraPlane
      match allocPlanes (ion.alloc bufIndex) planes (m.buffer bufIndex) with
      | (true, b) =>
          allocLoop ion extraPlane rest
            ((m.setBuffer bufIndex b).updateStatus bufIndex .none .available)
      | (false, b) =>
          let (_, m) ← defaultFree extraPlane (Int.range 0 bufIndex) (m.setBuffer bufIndex b)
          some (false, m)

/-- `m_defaultAlloc`. -/
def defaultAlloc (m : BufferManager) (ion : Ion) (bIndex eIndex : ℤ) (extraPlane : ExtraPlane) :
    Option (Bool × BufferManager) :=
  if bIndex < 0 ∨ eIndex < 0 then some (false, m)
  else allocLoop ion extraPlane (Int.range bIndex eIndex) m

/-- The single buffers of a container are freed, and what the last of them
came to is returned. -/
def freeSingles (singles : List ℤ) (b : Buffer) : Bool × Buffer :=
  singles.foldl (fun r plane => (r.2.fd plane, r.2.setFd plane false)) (true, b)

/-- The planes of one buffer in `m_constructBufferContainer`: whether it
went through, and what was returned last. -/
def constructPlanes (merge : ℤ → Bool) (imagePlaneCount : ℤ) :
    List ℤ → Bool → Buffer → Bool × Bool × Buffer
  | [], ret, b => (true, ret, b)
  | plane :: planes, _, b =>
      if merge plane then
        let singles := (Int.range 0 b.batchSize).map fun batchIndex =>
          batchIndex * imagePlaneCount + plane
        let (ret, b) := freeSingles singles (b.setContainerFd plane true)
        constructPlanes merge imagePlaneCount planes ret b
      else (false, false, b)

/-- The loop of `m_constructBufferContainer`. -/
def constructLoop (ion : Ion) : List ℤ → Bool → BufferManager → Bool × BufferManager
  | [], ret, m => (ret, m)
  | bufIndex :: rest, ret, m =>
      let imagePlaneCount := m.getImagePlaneCount (m.buffer bufIndex).planeCount
      match constructPlanes (ion.merge bufIndex) imagePlaneCount
          (Int.range 0 imagePlaneCount) ret (m.buffer bufIndex) with
      | (true, ret, b) => constructLoop ion rest ret (m.setBuffer bufIndex b)
      | (false, _, b) => (false, m.setBuffer bufIndex b)

/-- `m_constructBufferContainer`. -/
def constructBufferContainer (m : BufferManager) (ion : Ion) (bIndex eIndex : ℤ) :
    Bool × BufferManager :=
  if bIndex < 0 ∨ eIndex < 0 then (false, m)
  else constructLoop ion (Int.range bIndex eIndex) true m

/-- `m_alloc`. Whether there are batches, the first buffer says. -/
def allocImage (m : BufferManager) (ion : Ion) (bIndex eIndex : ℤ) :
    Option (Bool × BufferManager) := do
  let (ok, m) ← m.defaultAlloc ion bIndex eIndex .image
  if ok ∧ (m.buffer 0).batchSize > 1 then some (m.constructBufferContainer ion bIndex eIndex)
  else some (ok, m)

/-! ## The pool -/

/-- The plane whose size `m_checkInfoForAlloc` looks at. -/
def checkedSize (m : BufferManager) (b : Buffer) (plane : ℤ) : Option ℕ := do
  let imagePlaneCount := m.getImagePlaneCount b.planeCount
  let cur ← if m.hasMetaPlane ∧ plane = imagePlaneCount then b.getMetaPlaneIndex else some plane
  let cur ← if m.hasDebugInfoPlane ∧
      plane = (if m.hasMetaPlane then imagePlaneCount + 1 else imagePlaneCount) then
      b.getDebugInfoPlaneIndex
    else some cur
  some (b.size cur)

/-- Its loop over the planes of one buffer. -/
def checkPlanes (m : BufferManager) (b : Buffer) : List ℤ → Option Bool
  | [] => some true
  | plane :: planes => do
      let size ← m.checkedSize b plane
      if size = 0 then some false else m.checkPlanes b planes

/-- And over the buffers. -/
def checkBuffers (m : BufferManager) : List ℤ → Option Bool
  | [] => some true
  | bufIndex :: rest =>
      let b := m.buffer bufIndex
      if b.planeCount < 0 ∨ videoMaxPlanes ≤ b.planeCount then some false
      else do
        let ok ← m.checkPlanes b (Int.range 0 b.planeCount)
        if ok then m.checkBuffers rest else some false

/-- `m_checkInfoForAlloc`. -/
def checkInfoForAlloc (m : BufferManager) : Option Bool :=
  if m.reqBufCount < 0 ∨ videoMaxFrame < m.reqBufCount then some false
  else m.checkBuffers (Int.range m.indexOffset (m.reqBufCount + m.indexOffset))

/-- `m_resetSequenceQ`. -/
def resetSequenceQ (m : BufferManager) : BufferManager :=
  { m with
    availableBufferIndexQ := (Int.range m.indexOffset m.endIndex).map fun i => (m.buffer i).index }

/-- The planes of the metadata and of the debug information, freed when
`alloc` has no memory for the image. -/
def freeExtraPlane (m : BufferManager) (hasPlane : Bool) (extraPlane : ExtraPlane)
    (bIndex eIndex : ℤ) : Option (Bool × BufferManager) :=
  if hasPlane then defaultFree extraPlane (Int.range bIndex eIndex) m else some (true, m)

/-- Their allocation. -/
def allocExtraPlane (m : BufferManager) (ion : Ion) (hasPlane : Bool) (extraPlane : ExtraPlane)
    (bIndex eIndex : ℤ) : Option (Bool × BufferManager) :=
  if hasPlane then m.defaultAlloc ion bIndex eIndex extraPlane else some (true, m)

/-- `alloc` behind its checks: the three kinds of planes one after the
other. -/
def allocPools (m : BufferManager) (ion : Ion) (bIndex eIndex : ℤ) :
    Option (Bool × BufferManager) := do
  let (ok, m) ← m.allocExtraPlane ion m.hasDebugInfoPlane .debugInfo bIndex eIndex
  if ¬ ok then some (false, m)
  else do
    let (ok, m) ← m.allocExtraPlane ion m.hasMetaPlane .metadata bIndex eIndex
    if ¬ ok then some (false, m)
    else do
      let (ok, m) ← m.allocImage ion bIndex eIndex
      if ok then some (true, m)
      else do
        let (_, m) ← m.freeExtraPlane m.hasMetaPlane .metadata bIndex eIndex
        let (_, m) ← m.freeExtraPlane m.hasDebugInfoPlane .debugInfo bIndex eIndex
        some (false, m)

def alloc (m : BufferManager) (ion : Ion) : Option (Status × BufferManager) :=
  if m.flagSkipAllocation then some (.noError, { m with flagSkipAllocation := false })
  else do
    let check ← m.checkInfoForAlloc
    if ¬ check then some (.invalidOperation, m)
    else do
      let (ok, m) ← m.allocPools ion m.indexOffset (m.reqBufCount + m.indexOffset)
      if ¬ ok then some (.invalidOperation, m)
      else
        let m := { m with allocatedBufCount := m.reqBufCount }.resetSequenceQ
        some (.noError, { m with
          flagAllocated := true
          allocationThread := if m.allocMode = .silent ∧ m.allocationThread = 0 then
            (m.allowedMaxBufCount - m.reqBufCount).toNat else m.allocationThread })

/-- The sizes of a new buffer are those of the first of the array. -/
def copyPlanes (size : ℤ → ℕ) : List ℤ → Buffer → Bool × Buffer
  | [], b => (true, b)
  | plane :: planes, b =>
      if size plane = 0 then (false, b)
      else copyPlanes size planes (b.setSize plane (size plane))

/-- The first loop of `m_increase`. -/
def copyInfo : List ℤ → BufferManager → Bool × BufferManager
  | [], m => (true, m)
  | bufIndex :: rest, m =>
      match copyPlanes (m.buffer 0).size (Int.range 0 (m.buffer 0).planeCount)
          (m.buffer bufIndex) with
      | (false, b) => (false, m.setBuffer bufIndex b)
      | (true, b) =>
          copyInfo rest (m.setBuffer bufIndex { b with planeCount := (m.buffer 0).planeCount })

/-- `m_increase`. The count it may have lowered stays its own. -/
def increaseBy (m : BufferManager) (ion : Ion) (increaseCount : ℤ) :
    Option (Status × BufferManager) :=
  if m.allowedMaxBufCount ≤ m.allocatedBufCount then some (.invalidOperation, m)
  else do
    let increaseCount :=
      if m.allowedMaxBufCount < m.allocatedBufCount + increaseCount then
        m.allowedMaxBufCount - m.allocatedBufCount
      else increaseCount
    let bIndex := m.endIndex
    let eIndex := m.endIndex + increaseCount
    match copyInfo (Int.range bIndex eIndex) m with
    | (false, m) => some (.badValue, m)
    | (true, m) => do
        let (ok, m) ← m.allocImage ion bIndex eIndex
        if ¬ ok then some (.invalidOperation, m)
        else do
          let (ok, m) ← m.allocExtraPlane ion m.hasMetaPlane .metadata bIndex eIndex
          if ¬ ok then some (.invalidOperation, m)
          else do
            let (ok, m) ← m.allocExtraPlane ion m.hasDebugInfoPlane .debugInfo bIndex eIndex
            some (if ok then .noError else .invalidOperation, m)

def increase (m : BufferManager) (ion : Ion) (increaseCount : ℤ) :
    Option (Status × BufferManager) := do
  let (ret, m) ← m.increaseBy ion increaseCount
  if ret = .noError then
    some (ret, { m with
      availableBufferIndexQ :=
        m.availableBufferIndexQ ++ Int.range m.endIndex (m.endIndex + increaseCount)
      allocatedBufCount := m.allocatedBufCount + increaseCount })
  else some (ret, m)

/-! ## Handing out -/

/-- The index that `getBuffer` takes off the queue: the first one if no
buffer of the pool is asked for. -/
def takeIndex (m : BufferManager) (bufferIndex : ℤ) : ℤ × BufferManager :=
  if bufferIndex < 0 ∨ m.endIndex ≤ bufferIndex then
    match m.availableBufferIndexQ with
    | [] => (bufferIndex, m)
    | first :: rest => (first, { m with availableBufferIndexQ := rest })
  else
    (bufferIndex, { m with availableBufferIndexQ := m.availableBufferIndexQ.erase bufferIndex })

/-- What `getBuffer` does with a buffer it has found. -/
def handOut (m : BufferManager) (bufferIndex : ℤ) (position : Position) :
    Status × ℤ × BufferManager :=
  if (m.buffer bufferIndex).isAvaliable then
    (.noError, bufferIndex, m.updateStatus bufferIndex position .inProcess)
  else (.badValue, bufferIndex, m)

/-- `getBuffer` from `reDo` on. It comes back there only when it has grown,
and so no more often than there is room. -/
def reDo (ion : Ion) (position : Position) : ℕ → ℤ → BufferManager →
    Option (Status × ℤ × BufferManager)
  | 0, bufferIndex, m => some (.badValue, bufferIndex, m)
  | fuel + 1, bufferIndex, m =>
      match m.takeIndex bufferIndex with
      | (bufferIndex, m) =>
          if 0 ≤ bufferIndex ∧ bufferIndex < m.endIndex then
            some (m.handOut bufferIndex position)
          else if m.allocMode = .onDemand then do
            let (ret, m) ← m.increaseBy ion 1
            if ret ≠ .noError then some (.badValue, bufferIndex, m)
            else
              reDo ion position fuel m.endIndex { m with
                availableBufferIndexQ := m.availableBufferIndexQ ++ [m.endIndex]
                allocatedBufCount := m.allocatedBufCount + 1 }
          else if m.allocatedBufCount = 1 then
            -- the only buffer is handed out, whatever its permission
            some (.noError, 0, m.setBuffer 0 { m.buffer 0 with index := 0 })
          else some (.badValue, bufferIndex, m)

/-- `getBuffer`: the status, and the index of the buffer. -/
def getBuffer (m : BufferManager) (ion : Ion) (reqBufIndex : ℤ) (position : Position) :
    Option (Status × ℤ × BufferManager) :=
  if m.allocatedBufCount = 0 then some (.invalidOperation, reqBufIndex, m)
  else
    reDo ion position ((m.allowedMaxBufCount - m.allocatedBufCount).toNat + 1) reqBufIndex m

def putBuffer (m : BufferManager) (bufIndex : ℤ) (position : Position) :
    Status × BufferManager :=
  if bufIndex < 0 ∨ m.endIndex ≤ bufIndex then (.invalidOperation, m)
  else if bufIndex ∈ m.availableBufferIndexQ then (.noError, m)
  else
    let m := m.updateStatus bufIndex position .available
    (.noError, { m with
      availableBufferIndexQ := m.availableBufferIndexQ ++ [(m.buffer bufIndex).index] })

end BufferManager

end ExynosVendor.Camera
