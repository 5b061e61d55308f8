import Mathlib.Data.Fintype.Basic

/-!
# The resources of the camera sessions

`ExynosCameraResourceManager` keeps, for each of a few sessions, the objects that the
session works with. A session may be a clone: then it has the pointers of another one, and
the destructor of the manager passes over it.

An object is known by the place that it is built for and a number; the manager numbers what
it builds, and the caller what it brings along. What is recorded in the manager and what is
deleted is noted as it happens. A failed assertion ends the process: nothing is done
afterwards.
-/

namespace ExynosVendor.Camera.ResourceManager

def RESOURCE_MAX : ℕ := 5

def CAMERA_ID_MAX : ℕ := 12

/-- The owning pointers of a `resources_t`. -/
inductive Field where
  | configuration
  | parameters (j : Fin CAMERA_ID_MAX)
  | frameSelector (j : Fin CAMERA_ID_MAX)
  | zslFrameSelector
  | streamMgr
  | requestMgr
  | bufferSupplier
  | ionAllocator
  deriving DecidableEq

/-- The pointers in the order in which `m_delete` goes through them. -/
def fields : List Field :=
  [.configuration] ++
    (List.finRange CAMERA_ID_MAX).flatMap (fun j => [.parameters j, .frameSelector j]) ++
    [.zslFrameSelector, .streamMgr, .requestMgr, .bufferSupplier, .ionAllocator]

inductive Object where
  | resource (f : Field) (n : ℕ)
  | metadataConverter (n : ℕ)
  deriving DecidableEq

/-- A `resources_t`. -/
structure Resources where
  ptr : Field → Option ℕ
  cloned : Bool

/-- The members of the manager; of the frame manager, which all sessions share, only
whether there is one. `built` numbers the objects that the manager builds. -/
structure Manager where
  m_cameraId : Fin CAMERA_ID_MAX
  m_refCount : ℕ
  m_resources : ℕ → Resources
  m_metadataConverter : Option ℕ
  m_frameMgr : Bool
  built : ℕ
  recorded : List Object
  deleted : List Object
  aborted : Bool

/-- `m_init`. -/
def Manager.initial (m_cameraId : Fin CAMERA_ID_MAX) : Manager where
  m_cameraId := m_cameraId
  m_refCount := 0
  m_resources _ := ⟨fun _ => none, false⟩
  m_metadataConverter := none
  m_frameMgr := false
  built := 0
  recorded := []
  deleted := []
  aborted := false

inductive Scenario where
  | normal
  | dualRearZoom
  | dualRearPortrait
  | dualFrontPortrait
  deriving DecidableEq

/-- A `cameraId_Info`: the sensors, the main one first. -/
structure CameraIdInfo where
  scenario : Scenario
  cameraId : List (Fin CAMERA_ID_MAX)
  deriving DecidableEq

/-- The index of a session, as a caller may give it. -/
abbrev Session := { i : ℕ // 1 ≤ i ∧ i < RESOURCE_MAX }

/-- Where a caller has a pointer that is to be released: in a variable of its own, or in
the resources of a session. -/
inductive Place where
  | own (p : Option ℕ)
  | slot (i : Session)
  deriving DecidableEq

namespace Manager

variable (s : Manager)

def ptr (i : ℕ) (f : Field) : Option ℕ := (s.m_resources i).ptr f

def cloned (i : ℕ) : Bool := (s.m_resources i).cloned

def setResources (i : ℕ) (resources : Resources) : Manager :=
  { s with m_resources := Function.update s.m_resources i resources }

def setPtr (i : ℕ) (f : Field) (p : Option ℕ) : Manager :=
  s.setResources i { s.m_resources i with ptr := Function.update (s.m_resources i).ptr f p }

def setCloned (i : ℕ) (cloned : Bool) : Manager :=
  s.setResources i { s.m_resources i with cloned := cloned }

/-- A pointer to an object is written to a session. -/
def store (i : ℕ) (f : Field) (n : ℕ) : Manager :=
  { s.setPtr i f (some n) with recorded := s.recorded ++ [.resource f n] }

/-- `new`, for each of some places of a session. -/
def build (i : ℕ) : Manager → List Field → Manager
  | s, [] => s
  | s, f :: fs => build i { s.store i f s.built with built := s.built + 1 } fs

/-- `SAFE_DELETE` of a pointer of a session. -/
def safeDelete (i : ℕ) (f : Field) : Manager :=
  match s.ptr i f with
  | none => s
  | some n => { s.setPtr i f none with deleted := s.deleted ++ [.resource f n] }

/-- `m_delete` of a session. -/
def m_deleteIndex (refIndex : ℕ) : Manager :=
  fields.foldl (fun s f => s.safeDelete refIndex f) s

/-- `SAFE_DELETE` of the metadata converter. -/
def deleteConverter : Manager :=
  match s.m_metadataConverter with
  | none => s
  | some n =>
      { s with
        m_metadataConverter := none
        deleted := s.deleted ++ [.metadataConverter n] }

/-- `m_delete`, which the destructor calls. -/
def m_delete : Manager :=
  (List.range RESOURCE_MAX).foldl
    (fun s i => if s.cloned i then s else s.m_deleteIndex i) s.deleteConverter

/-- The parameters that a session of the scenario needs. -/
def sensors (info : CameraIdInfo) : List (Fin CAMERA_ID_MAX) :=
  match info.scenario with
  | .normal => [s.m_cameraId]
  | _ => info.cameraId.tail ++ [s.m_cameraId]

/-- The session that is next: after the last it is the first again. -/
def nextIndex : ℕ := if RESOURCE_MAX ≤ s.m_refCount + 1 then 1 else s.m_refCount + 1

def initResources (info : CameraIdInfo) : Manager :=
  let refIndex := s.nextIndex
  let s : Manager := { s with m_refCount := refIndex }
  let s := build refIndex s (.configuration :: (s.sensors info).map .parameters)
  let s : Manager := { s with
    m_metadataConverter := some s.built
    recorded := s.recorded ++ [.metadataConverter s.built]
    built := s.built + 1 }
  s.setCloned refIndex false

def deInitResources : Manager := s.deleteConverter

/-- What `cloneResources` copies: all but the buffers. -/
def copied : Field → Bool
  | .bufferSupplier => false
  | .ionAllocator => false
  | _ => true

def cloneResources (refIndex : Session) : Manager :=
  let prevRefIndex := s.m_refCount
  let refIndex := if RESOURCE_MAX ≤ refIndex.1 then 1 else refIndex.1
  Manager.setResources { s with m_refCount := refIndex } refIndex
    { ptr := fun f => if copied f then s.ptr prevRefIndex f else s.ptr refIndex f
      cloned := true }

def deleteResources (refIndex : Session) : Manager := s.m_deleteIndex refIndex.1

/-- The managers of a session that are asked for. -/
def asked (request stream : Bool) : List Field :=
  (if stream then [.streamMgr] else []) ++ if request then [.requestMgr] else []

/-- `initManagerResources`, with the managers that are asked for. -/
def initManagerResources (request stream frame : Bool) : Manager :=
  let s := build s.m_refCount s (asked request stream)
  { s with m_frameMgr := s.m_frameMgr || frame }

/-- `initBufferSupplier`, which asserts that there is something to register. -/
def initBufferSupplier (pBufferSupplier pIonAllocator : Option ℕ) : Manager :=
  match pBufferSupplier, pIonAllocator with
  | some supplier, some allocator =>
      (s.store s.m_refCount .bufferSupplier supplier).store s.m_refCount .ionAllocator allocator
  | _, _ => { s with aborted := true }

/-- One half of `deInitBufferSupplier`: what the caller points to is deleted, and its
pointer and that of the current session are cleared. -/
def release (f : Field) (place : Place) : Manager :=
  let p := match place with
    | .own p => p
    | .slot i => s.ptr i.1 f
  let s : Manager := { s with deleted := s.deleted ++ (p.map (Object.resource f)).toList }
  let s := match place with
    | .own _ => s
    | .slot i => s.setPtr i.1 f none
  s.setPtr s.m_refCount f none

def deInitBufferSupplier (pBufferSupplier pIonAllocator : Place) : Manager :=
  (s.release .bufferSupplier pBufferSupplier).release .ionAllocator pIonAllocator

/-- `initCaptureProperty`, which asserts that the session has a buffer supplier and the
manager a frame manager, and uses the parameters of the main camera. -/
def initCaptureProperty (info : CameraIdInfo) : Manager :=
  let refIndex := s.m_refCount
  if s.ptr refIndex .bufferSupplier = none ∨ s.m_frameMgr = false ∨
      s.ptr refIndex (.parameters s.m_cameraId) = none then
    { s with aborted := true }
  else build refIndex s (info.cameraId.map .frameSelector ++ [.zslFrameSelector])

end Manager

/-- A call. -/
inductive Call where
  | initResources (info : CameraIdInfo)
  | deInitResources
  | cloneResources (refIndex : Session)
  | deleteResources (refIndex : Session)
  | initManagerResources (request stream frame : Bool)
  | initBufferSupplier (pBufferSupplier pIonAllocator : Option ℕ)
  | deInitBufferSupplier (pBufferSupplier pIonAllocator : Place)
  | initCaptureProperty (info : CameraIdInfo)

/-- A call, of a process that is still there. -/
def Manager.call (s : Manager) : Call → Manager
  | .initResources info => s.initResources info
  | .deInitResources => s.deInitResources
  | .cloneResources refIndex => s.cloneResources refIndex
  | .deleteResources refIndex => s.deleteResources refIndex
  | .initManagerResources request stream frame => s.initManagerResources request stream frame
  | .initBufferSupplier pBufferSupplier pIonAllocator =>
      s.initBufferSupplier pBufferSupplier pIonAllocator
  | .deInitBufferSupplier pBufferSupplier pIonAllocator =>
      s.deInitBufferSupplier pBufferSupplier pIonAllocator
  | .initCaptureProperty info => s.initCaptureProperty info

/-- A call does nothing in a process that has ended. -/
def next (s : Manager) (c : Call) : Manager := if s.aborted then s else s.call c

end ExynosVendor.Camera.ResourceManager
