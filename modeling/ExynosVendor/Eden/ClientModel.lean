import ExynosVendor.Eden.PreparedModel

/-!
# Models of the clients

The model that `ModelConverter` converts: the operands with their lifetimes and, for a
constant, where its value is, and the operations that read and write them.
-/

namespace ExynosVendor.Eden

/-- The operation types of the API, `OEM_OPERATION` for the ones beside. -/
inductive OperationType where
  | add | averagePool2D | concatenation | conv2D | depthwiseConv2D | depthToSpace | dequantize
  | embeddingLookup | floor | fullyConnected | hashtableLookup | l2Normalization | l2Pool2D
  | localResponseNormalization | logistic | lshProjection | lstm | maxPool2D | mul | relu
  | relu1 | relu6 | reshape | resizeBilinear | rnn | softmax | spaceToDepth | svdf | tanh
  | batchToSpaceND | div | mean | pad | spaceToBatchND | squeeze | stridedSlice | sub
  | transpose | abs | argmax | argmin | axisAlignedBboxTransform | bidirectionalSequenceLstm
  | bidirectionalSequenceRnn | boxWithNmsLimit | cast | channelShuffle
  | detectionPostprocessing | equal | exp | expandDims | gather | generateProposals | greater
  | greaterEqual | groupedConv2D | heatmapMaxKeypoint | instanceNormalization | less
  | lessEqual | log | logicalAnd | logicalNot | logicalOr | logSoftmax | maximum | minimum
  | neg | notEqual | padV2 | pow | prelu | quantize | quantized16BitLstm | randomMultinomial
  | reduceAll | reduceAny | reduceMax | reduceMin | reduceProd | reduceSum | roiAlign
  | roiPooling | rsqrt | select | sin | slice | split | sqrt | tile | topkV2 | transposeConv2D
  | unidirectionalSequenceLstm | unidirectionalSequenceRnn | resizeNearestNeighbor
  | oemOperation
  deriving DecidableEq

inductive OperandLifeTime where
  | temporaryVariable
  | modelInput
  | modelOutput
  | constantCopy
  | constantReference
  | noValue
  deriving DecidableEq

/-- Where the value of a constant is. -/
structure DataLocation where
  poolIndex : ℕ := 0
  offset : ℕ := 0
  length : ℕ := 0
  deriving DecidableEq

/-- `V1_2::Operand`. -/
structure ClientOperand extends Operand where
  lifetime : OperandLifeTime
  location : DataLocation := {}
  deriving DecidableEq

/-- `V1_2::Operation`. -/
structure ClientOperation where
  type : OperationType
  inputs : List ℕ
  outputs : List ℕ
  deriving DecidableEq

/-- `V1_2::Model`. -/
structure ClientModel where
  operands : List ClientOperand
  operations : List ClientOperation
  inputIndexes : List ℕ
  outputIndexes : List ℕ
  operandValues : List (BitVec 8) := []
  pools : List HidlMemory := []
  deriving DecidableEq

end ExynosVendor.Eden
