import Mathlib.Data.List.Perm.Basic
import Mathlib.Data.List.Nodup
import Mathlib.Data.List.Count
import Mathlib.Algebra.Ring.Int.Defs
import Mathlib.Algebra.Ring.Nat

/-!
# The stream manager of the camera

`ExynosCameraStreamManager` keeps the streams of a session in a map from their ids. It
builds an `ExynosCameraStream` for every `camera3_stream` it is given, looks for a free id
from the one that it is asked for, and counts the YUV and the input streams.

Objects are numbered as they are built. The two helpers that count the YUV streams may
fail, and then leave the counters alone; which of them fail is the input of a call.
-/

namespace ExynosVendor.Camera.StreamManager

def HAL_STREAM_ID_PREVIEW : ℤ := 1
def HAL_STREAM_ID_VIDEO : ℤ := 2
def HAL_STREAM_ID_CALLBACK : ℤ := 4
def HAL_STREAM_ID_ZSL_INPUT : ℤ := 5
def HAL_STREAM_ID_CALLBACK_STALL : ℤ := 7
def HAL_STREAM_ID_PREVIEW_VIDEO : ℤ := 12
def HAL_STREAM_ID_CALLBACK_PHYSICAL : ℤ := 14
def HAL_STREAM_ID_MAX : ℤ := 17

def INT_MAX : ℤ := 2 ^ 31 - 1

inductive StreamType where
  | output
  | input
  | bidirectional
  deriving DecidableEq

/-- What the manager reads and writes of a `camera3_stream`; of the name of its physical
camera only the length. -/
structure Camera3Stream where
  stream_type : StreamType
  physical_camera_id : Option ℕ
  priv : Option ℕ
  deriving DecidableEq

/-- An `ExynosCameraStream`: its id, and which `camera3_stream` it is for. -/
structure ExynosCameraStream where
  m_id : ℤ
  m_stream : ℕ
  deriving DecidableEq

/-- `setID`, which keeps the old id for a negative one. -/
def ExynosCameraStream.setID (item : ExynosCameraStream) (id : ℤ) : ExynosCameraStream :=
  if id < 0 then item else { item with m_id := id }

/-- `getID`, which fails for a negative id. -/
def ExynosCameraStream.getID (item : ExynosCameraStream) : Option ℤ :=
  if item.m_id < 0 then none else some item.m_id

/-- The members of the manager, the streams of the framework, the objects that were built
and in which order they were deleted. `counted` is how often `increaseInputStreamCount`
was called. -/
structure Manager where
  m_streamInfoMap : List (ℤ × ℕ)
  m_yuvStreamCount : ℤ
  m_yuvStallStreamCount : ℤ
  m_inputStreamCount : ℤ
  streams : ℕ → Camera3Stream
  objects : List ExynosCameraStream
  deleted : List ℕ
  counted : ℕ

/-- A manager of no streams. -/
def Manager.initial (streams : ℕ → Camera3Stream) : Manager where
  m_streamInfoMap := []
  m_yuvStreamCount := 0
  m_yuvStallStreamCount := 0
  m_inputStreamCount := 0
  streams := streams
  objects := []
  deleted := []
  counted := 0

/-- Which of the helpers that count the YUV streams succeed. -/
structure YuvOutcome where
  increase : Bool
  decrease : Bool
  deriving DecidableEq

namespace Manager

variable (s : Manager)

def object (o : ℕ) : ExynosCameraStream := s.objects.getD o ⟨-1, 0⟩

/-- The `camera3_stream` of an object. -/
def streamOf (o : ℕ) : Camera3Stream := s.streams (s.object o).m_stream

/-- An object of an input stream. -/
def isInput (o : ℕ) : Bool :=
  (s.streamOf o).stream_type = .input ∨ (s.streamOf o).stream_type = .bidirectional

/-- The stream's pointer to its object. -/
def setPriv (stream : ℕ) (priv : Option ℕ) : Manager :=
  { s with streams := Function.update s.streams stream { s.streams stream with priv := priv } }

/-- The YUV counters with a stream of the id more, or less. -/
def countYuv (id n : ℤ) : Manager :=
  let kind := id.tmod HAL_STREAM_ID_MAX
  if kind = HAL_STREAM_ID_CALLBACK ∨ kind = HAL_STREAM_ID_PREVIEW ∨ kind = HAL_STREAM_ID_VIDEO ∨
      kind = HAL_STREAM_ID_PREVIEW_VIDEO ∨ kind = HAL_STREAM_ID_CALLBACK_PHYSICAL then
    { s with m_yuvStreamCount := s.m_yuvStreamCount + n }
  else if kind = HAL_STREAM_ID_CALLBACK_STALL then
    { s with m_yuvStallStreamCount := s.m_yuvStallStreamCount + n }
  else s

def m_increaseYuvStreamCount (outcome : YuvOutcome) (id : ℤ) : Bool × Manager :=
  if outcome.increase then (true, s.countYuv id 1) else (false, s)

def m_decreaseYuvStreamCount (outcome : YuvOutcome) (id : ℤ) : Bool × Manager :=
  if outcome.decrease then (true, s.countYuv id (-1)) else (false, s)

/-- The first free id from the one asked for, in steps of `HAL_STREAM_ID_MAX`. -/
def redefine (keys : List ℤ) : ℕ → ℤ → ℤ
  | 0, id => id
  | fuel + 1, id =>
      if id ∈ keys then redefine keys fuel (id + HAL_STREAM_ID_MAX) else id

def keys : List ℤ := s.m_streamInfoMap.map Prod.fst

/-- The id under which a stream is inserted. -/
def freeId (id : ℤ) : ℤ := redefine s.keys (s.keys.length + 1) id

/-- `m_insert`: whether the YUV streams could be counted; the entry is there in any case. -/
def m_insert (outcome : YuvOutcome) (id : ℤ) (item : ℕ) : Bool × Manager :=
  let id := s.freeId id
  let s := { s with
    m_streamInfoMap := s.m_streamInfoMap ++ [(id, item)]
    objects := s.objects.set item ((s.object item).setID id) }
  s.m_increaseYuvStreamCount outcome id

/-- `m_delete` of an object. -/
def m_deleteItem (item : ℕ) : Manager :=
  let count :=
    if s.isInput item then s.m_inputStreamCount - 1 else s.m_inputStreamCount
  { s.setPriv (s.object item).m_stream none with
    m_inputStreamCount := count
    deleted := s.deleted ++ [item] }

/-- `m_delete` of an id. A physical stream with an id that was redefined is not counted. -/
def m_delete (outcome : YuvOutcome) (id : ℤ) : Bool × Manager :=
  match s.m_streamInfoMap.lookup id with
  | none => s.m_decreaseYuvStreamCount outcome id
  | some item =>
      let physical := ((s.streamOf item).physical_camera_id.getD 0) ≠ 0
      let s := { s with m_streamInfoMap := s.m_streamInfoMap.filter fun e => e.1 ≠ id }
      let s := s.m_deleteItem item
      if ¬ physical ∨ id < HAL_STREAM_ID_MAX then s.m_decreaseYuvStreamCount outcome id
      else (true, s)

/-- `createStream`: whether it reports no error. -/
def createStream (outcome : YuvOutcome) (id : ℤ) (stream : ℕ) : Bool × Manager :=
  let newStream := s.objects.length
  let s : Manager := { s with objects := s.objects ++ [⟨id, stream⟩] }
  let s := s.setPriv stream (some newStream)
  let inserted := s.m_insert outcome id newStream
  if inserted.1 then inserted
  else
    let deleted := inserted.2.m_delete outcome id
    if deleted.1 then deleted else (false, deleted.2.m_deleteItem newStream)

/-- `increaseInputStreamCount`: the count goes up even past the limit. -/
def increaseInputStreamCount (inputStreamMaxNum : ℤ) : Bool × Manager :=
  (s.m_inputStreamCount + 1 ≤ inputStreamMaxNum,
    { s with
      m_inputStreamCount := s.m_inputStreamCount + 1
      counted := s.counted + 1 })

def m_decreaseInputStreamCount (streamId : ℤ) : Bool × Manager :=
  if streamId < 0 then (false, s)
  else if streamId.tmod HAL_STREAM_ID_MAX = HAL_STREAM_ID_ZSL_INPUT then
    (true, { s with m_inputStreamCount := s.m_inputStreamCount - 1 })
  else (true, s)

/-- `deleteStream`, which only reports what counting the input streams does. -/
def deleteStream (outcome : YuvOutcome) (id : ℤ) : Bool × Manager :=
  (s.m_delete outcome id).2.m_decreaseInputStreamCount id

/-- The destructor: every object of the map is deleted. -/
def m_deinit : Manager :=
  { s with
    m_streamInfoMap := []
    deleted := s.deleted ++ s.m_streamInfoMap.map Prod.snd }

end Manager

/-- A call. -/
inductive Call where
  | createStream (id : ℤ) (stream : ℕ)
  | increaseInputStreamCount (inputStreamMaxNum : ℤ)
  | deleteStream (id : ℤ)
  deriving DecidableEq

/-- What a call reports, and the manager that it leaves. -/
def Manager.call (outcome : YuvOutcome) (s : Manager) : Call → Bool × Manager
  | .createStream id stream => s.createStream outcome id stream
  | .increaseInputStreamCount inputStreamMaxNum =>
      s.increaseInputStreamCount inputStreamMaxNum
  | .deleteStream id => s.deleteStream outcome id

end ExynosVendor.Camera.StreamManager
