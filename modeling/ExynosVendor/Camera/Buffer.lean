import ExynosVendor.Common.Word
import Mathlib.Data.Int.Range

/-!
# Camera buffers

`ExynosCameraBuffer` of `Buffers/ExynosCameraBuffer.h`: what a buffer
manager keeps of each of its buffers. A plane is an entry of the arrays of
file descriptors and sizes; the image's come first, behind them that of
the metadata, and that of the debug information.
-/

namespace ExynosVendor.Camera

/-- `status_t`. -/
inductive Status where
  | noError
  | badValue
  | invalidOperation
  deriving DecidableEq

/-- `EXYNOS_CAMERA_BUFFER_POSITION`. -/
inductive Position where
  | none
  | inDriver
  | inHal
  | inService
  deriving DecidableEq

/-- `EXYNOS_CAMERA_BUFFER_PERMISSION`. -/
inductive Permission where
  | none
  | available
  | inProcess
  deriving DecidableEq

/-- `EXYNOS_CAMERA_META_PLANE_SIZE`. -/
def metaPlaneSize : ℕ := 50 * 1024

/-- `EXYNOS_CAMERA_DEBUG_INFO_PLANE_SIZE`. -/
def debugInfoPlaneSize : ℕ := 100 * 1024

/-- `ExynosCameraBuffer`. -/
@[ext]
structure Buffer where
  /-- `index`. -/
  index : ℤ
  /-- `planeCount`. -/
  planeCount : ℤ
  /-- `batchSize`. -/
  batchSize : ℤ
  /-- `fd`: whether a plane has a file descriptor. -/
  fd : ℤ → Bool
  /-- `containerFd`: whether a container has. -/
  containerFd : ℤ → Bool
  /-- `size`. -/
  size : ℤ → ℕ
  /-- `status.position`. -/
  position : Position
  /-- `status.permission`. -/
  permission : Permission
  /-- `hasMetaPlane`. -/
  hasMetaPlane : Bool
  /-- `hasDebugInfoPlane`. -/
  hasDebugInfoPlane : Bool

namespace Buffer

/-- A buffer as it is constructed. -/
def initial : Buffer where
  index := -1
  planeCount := 0
  batchSize := 1
  fd := fun _ => false
  containerFd := fun _ => false
  size := fun _ => 0
  position := .none
  permission := .none
  hasMetaPlane := false
  hasDebugInfoPlane := false

/-- `fd[plane] = ...`. -/
def setFd (b : Buffer) (plane : ℤ) (fd : Bool) : Buffer :=
  { b with fd := Function.update b.fd plane fd }

/-- `containerFd[plane] = ...`. -/
def setContainerFd (b : Buffer) (plane : ℤ) (fd : Bool) : Buffer :=
  { b with containerFd := Function.update b.containerFd plane fd }

/-- `size[plane] = ...`. -/
def setSize (b : Buffer) (plane : ℤ) (size : ℕ) : Buffer :=
  { b with size := Function.update b.size plane size }

/-- The checked plane index: one whose size is another asserts, and one in
front of the array reads a file descriptor for it. -/
def checkedPlane (b : Buffer) (plane : ℤ) (size : ℕ) : Option ℤ :=
  if 0 ≤ plane ∧ b.size plane = size then some plane else none

def getMetaPlaneIndex (b : Buffer) : Option ℤ :=
  b.checkedPlane
    (toInt (if b.hasDebugInfoPlane then (b.planeCount - 2) * b.batchSize
      else (b.planeCount - 1) * b.batchSize)) metaPlaneSize

def getDebugInfoPlaneIndex (b : Buffer) : Option ℤ :=
  b.checkedPlane
    (toInt (if b.hasMetaPlane then (b.planeCount - 2) * b.batchSize + 1
      else (b.planeCount - 1) * b.batchSize)) debugInfoPlaneSize

/-- `isAvaliable`, of the buffer's manager. -/
def isAvaliable (b : Buffer) : Bool :=
  match b.permission with
  | .none | .available => true
  | .inProcess => false

end Buffer

/-- `extraPlane`: the planes an allocation is for. -/
inductive ExtraPlane where
  | image
  | metadata
  | debugInfo
  deriving DecidableEq

/-- The planes, from the first to the last. -/
def Buffer.planes (b : Buffer) : ExtraPlane → Option (List ℤ)
  | .image => b.getMetaPlaneIndex.map fun last => Int.range 0 last
  | .metadata => b.getMetaPlaneIndex.map fun plane => [plane]
  | .debugInfo => b.getDebugInfoPlaneIndex.map fun plane => [plane]

/-- `buffer_manager_allocation_mode_t`. -/
inductive AllocMode where
  | atOnce
  | onDemand
  | silent
  | invalidMode
  deriving DecidableEq

/-- `buffer_manager_configuration_t`. -/
structure Config where
  planeCount : ℤ
  size : ℤ → ℕ
  startBufIndex : ℤ
  reqBufCount : ℤ
  allowedMaxBufCount : ℤ
  batchSize : ℤ
  allocMode : AllocMode
  createMetaPlane : Bool
  createDebugInfoPlane : Bool

/-- `VIDEO_MAX_FRAME`, the number of buffers of a manager. -/
def videoMaxFrame : ℤ := 32

def videoMaxPlanes : ℤ := 8

/-- `EXYNOS_CAMERA_BUFFER_MAX_PLANES`. -/
def bufferMaxPlanes : ℤ := 17

end ExynosVendor.Camera
