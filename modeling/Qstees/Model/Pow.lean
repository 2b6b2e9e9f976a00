import Qstees.Library.Traced
import Qstees.Model.ArithUint256

/-!
# The next required work

`DarkGravityWave`, `Lwma3CalculateNextWorkRequired`, `CheckProofOfWork` and `GetBlockProof`. A block index is the list
of the blocks from it down to the genesis block, so that `pprev` is the tail and the height is the number of
predecessors.

Every arithmetic operation is recorded with its exact result: the 256-bit operations wrap around silently, a signed
64-bit overflow is undefined, and a number that is handed over as an unsigned one is reduced. The model computes the
wrapped 256-bit results and the exact signed ones. -/

namespace Qstees

inductive ArithOp where
  | uint256 (exact : Nat)
  | int64 (exact : Int)
  | uint32 (exact : Int)
  | uint64 (exact : Int)
  | solvetime (value : Int)
deriving DecidableEq, Repr

def ArithOp.Fits : ArithOp → Prop
  | .uint256 exact => exact < 2 ^ 256
  | .int64 exact => -2 ^ 63 ≤ exact ∧ exact < 2 ^ 63
  | .uint32 exact => 0 ≤ exact ∧ exact < 2 ^ 32
  | .uint64 exact => 0 ≤ exact ∧ exact < 2 ^ 64
  | .solvetime _ => True

inductive PowError where
  | divisionByZero | assertion | nullPointer
deriving DecidableEq, Repr

abbrev Pow := Traced PowError ArithOp

namespace Pow

def int64 (n : Int) : Pow Int := Traced.record (.int64 n) n

/-- `operator*` and `operator*=` with an `int64_t`, which becomes the `uint32_t` of the overload. -/
def mul (a : ArithUint256) (b : Int) : Pow ArithUint256 := do
  let b32 ← Traced.record (.uint32 b) (BitVec.ofInt 32 b)
  Traced.record (.uint256 (a.toNat * b32.toNat)) (a.mul b32)

def add (a b : ArithUint256) : Pow ArithUint256 := Traced.record (.uint256 (a.toNat + b.toNat)) (a.add b)

def div (a : ArithUint256) (b : Int) : Pow ArithUint256 := do
  let b64 ← Traced.record (.uint64 b) (BitVec.ofInt 64 b)
  Traced.ofOption .divisionByZero (a.div (BaseUint.ofUint64 b64))

def getCompact (a : ArithUint256) : Pow (BitVec 32) := Traced.ofOption .assertion (ArithUint256.getCompact a)

end Pow

structure PowParams where
  powLimit : ArithUint256
  nPowTargetSpacing : Int
  lwmaStartHeight : Int
  lwmaAveragingWindow : Int

def mainPowParams : PowParams where
  powLimit := ⟨[0, 0, 0, 0, 0, 0, 0, 0x0fffff00], rfl⟩
  nPowTargetSpacing := 120
  lwmaStartHeight := 262000
  lwmaAveragingWindow := 96

structure PowIndex where
  nTime : BitVec 32
  nBits : BitVec 32
deriving DecidableEq, Repr

def PowIndex.getBlockTime (b : PowIndex) : Int := b.nTime.toNat

def PowIndex.target (b : PowIndex) : ArithUint256 := (ArithUint256.setCompact b.nBits).value

def PowIndex.nHeight (pindex : List PowIndex) : Int := pindex.length - 1

def PowIndex.getAncestor (pindex : List PowIndex) (height : Int) : Option PowIndex :=
  if height > PowIndex.nHeight pindex ∨ height < 0 then none else pindex[(PowIndex.nHeight pindex - height).toNat]?

def PastBlocksMin : Int := 24

def PastBlocksMax : Int := 24

structure DarkGravity where
  PastDifficultyAverage : ArithUint256 := .zero
  PastDifficultyAveragePrev : ArithUint256 := .zero
  nActualTimespan : Int := 0
  LastBlockTime : Int := 0
  CountBlocks : Int := 0

def pastDifficultyAverage (PastDifficultyAveragePrev : ArithUint256) (CountBlocks : Int) (BlockReading : PowIndex) :
    Pow ArithUint256 :=
  if CountBlocks = 1 then pure BlockReading.target
  else do
    let product ← Pow.mul PastDifficultyAveragePrev CountBlocks
    let sum ← Pow.add product BlockReading.target
    Pow.div sum (CountBlocks + 1)

/-- The timespan after a block; the first block read, and one after a block with time zero, adds nothing. -/
def addTimespan (nActualTimespan LastBlockTime : Int) (BlockReading : PowIndex) : Pow Int :=
  if LastBlockTime > 0 then do
    let Diff ← Pow.int64 (LastBlockTime - BlockReading.getBlockTime)
    Pow.int64 (nActualTimespan + Diff)
  else pure nActualTimespan

/-- One block of the averaging loop. -/
def darkGravityStep (s : DarkGravity) (BlockReading : PowIndex) : Pow DarkGravity := do
  let CountBlocks ← Pow.int64 (s.CountBlocks + 1)
  let average ← (if CountBlocks ≤ PastBlocksMin then
      pastDifficultyAverage s.PastDifficultyAveragePrev CountBlocks BlockReading
    else pure s.PastDifficultyAverage)
  let nActualTimespan ← addTimespan s.nActualTimespan s.LastBlockTime BlockReading
  pure { PastDifficultyAverage := average
         PastDifficultyAveragePrev := if CountBlocks ≤ PastBlocksMin then average else s.PastDifficultyAveragePrev
         nActualTimespan := nActualTimespan
         LastBlockTime := BlockReading.getBlockTime
         CountBlocks := CountBlocks }

def darkGravityLoop (i : Nat) : List PowIndex → DarkGravity → Pow DarkGravity
  | [], s => pure s
  | BlockReading :: pprev, s =>
    if 0 < pprev.length then
      if PastBlocksMax > 0 ∧ i > PastBlocksMax then pure s
      else do
        let s ← darkGravityStep s BlockReading
        darkGravityLoop (i + 1) pprev s
    else pure s

def clampTimespan (nActualTimespan _nTargetTimespan : Int) : Int :=
  let nActualTimespan := if nActualTimespan < _nTargetTimespan.tdiv 3 then _nTargetTimespan.tdiv 3 else nActualTimespan
  if nActualTimespan > _nTargetTimespan * 3 then _nTargetTimespan * 3 else nActualTimespan

def capTarget (powLimit bnNew : ArithUint256) : ArithUint256 :=
  if bnNew.compareTo powLimit = .gt then powLimit else bnNew

variable (pindexLast : List PowIndex)

/-- `DarkGravityWave`. -/
def darkGravityWave (params : PowParams) : Pow (BitVec 32) :=
  if pindexLast = [] ∨ PowIndex.nHeight pindexLast < PastBlocksMin then Pow.getCompact params.powLimit
  else do
    let s ← darkGravityLoop 1 pindexLast {}
    let _nTargetTimespan ← Pow.int64 (s.CountBlocks * params.nPowTargetSpacing)
    let _ ← Pow.int64 (_nTargetTimespan * 3)
    let bnNew ← Pow.mul s.PastDifficultyAverage (clampTimespan s.nActualTimespan _nTargetTimespan)
    let bnNew ← Pow.div bnNew _nTargetTimespan
    Pow.getCompact (capTarget params.powLimit bnNew)

structure Lwma where
  previousTimestamp : Int
  sumWeightedSolvetimes : Int := 0
  j : Int := 0
  avgTarget : ArithUint256 := .zero

/-- A block that is not later than the one before it counts as one second later. -/
def thisTimestamp (previousTimestamp : Int) (block : PowIndex) : Pow Int :=
  if block.getBlockTime > previousTimestamp then pure block.getBlockTime else Pow.int64 (previousTimestamp + 1)

/-- One block of the weighted sum. -/
def lwmaStep (T N k : Int) (s : Lwma) (block : PowIndex) : Pow Lwma := do
  let thisTimestamp ← thisTimestamp s.previousTimestamp block
  let limit ← Pow.int64 (6 * T)
  let difference ← Pow.int64 (thisTimestamp - s.previousTimestamp)
  let solvetime ← Traced.record (.solvetime (min limit difference)) (min limit difference)
  let j ← Pow.int64 (s.j + 1)
  let weighted ← Pow.int64 (solvetime * j)
  let sumWeightedSolvetimes ← Pow.int64 (s.sumWeightedSolvetimes + weighted)
  let target ← Pow.div block.target N
  let target ← Pow.div target k
  let avgTarget ← Pow.add s.avgTarget target
  pure { previousTimestamp := thisTimestamp
         sumWeightedSolvetimes := sumWeightedSolvetimes
         j := j
         avgTarget := avgTarget }

def ancestorAt (i : Int) : Pow PowIndex :=
  Traced.ofOption .nullPointer (PowIndex.getAncestor pindexLast i)

def lwmaNextTarget (T N k : Int) : Pow ArithUint256 := do
  let height := PowIndex.nHeight pindexLast
  let blockPreviousTimestamp ← ancestorAt pindexLast (height - N)
  let heights := (List.range N.toNat).map (fun i : Nat => height - N + 1 + i)
  let s ← heights.foldlM (fun s i => do lwmaStep T N k s (← ancestorAt pindexLast i))
    { previousTimestamp := blockPreviousTimestamp.getBlockTime }
  Pow.mul s.avgTarget s.sumWeightedSolvetimes

def lwmaWeight (N T : Int) : Pow Int := do
  let product ← Pow.int64 (N * (N + 1))
  let product ← Pow.int64 (product * T)
  pure (product.tdiv 2)

/-- `Lwma3CalculateNextWorkRequired`. -/
def lwma3CalculateNextWorkRequired (params : PowParams) : Pow (BitVec 32) := do
  let T := params.nPowTargetSpacing
  let N := params.lwmaAveragingWindow
  let k ← lwmaWeight N T
  if pindexLast = [] then Traced.fail .nullPointer
  else if PowIndex.nHeight pindexLast < N then Pow.getCompact params.powLimit
  else do
    let nextTarget ← lwmaNextTarget pindexLast T N k
    Pow.getCompact (capTarget params.powLimit nextTarget)

/-- `GetNextWorkRequired`. -/
def getNextWorkRequired (params : PowParams) : Pow (BitVec 32) :=
  if pindexLast = [] then Traced.fail .nullPointer
  else if PowIndex.nHeight pindexLast + 1 < params.lwmaStartHeight then darkGravityWave pindexLast params
  else lwma3CalculateNextWorkRequired pindexLast params

/-- `CheckProofOfWork`. -/
def checkProofOfWork (hash : ArithUint256) (nBits : BitVec 32) (params : PowParams) : Bool :=
  let bnTarget := ArithUint256.setCompact nBits
  if bnTarget.fNegative ∨ bnTarget.value = .zero ∨ bnTarget.fOverflow ∨
      bnTarget.value.compareTo params.powLimit = .gt then false
  else if hash.compareTo bnTarget.value = .gt then false
  else true

/-- `GetBlockProof`; `none` is the exception of the division. -/
def getBlockProof (nBits : BitVec 32) : Option ArithUint256 :=
  let bnTarget := ArithUint256.setCompact nBits
  if bnTarget.fNegative ∨ bnTarget.fOverflow ∨ bnTarget.value = .zero then some .zero
  else (bnTarget.value.not.div (bnTarget.value.add (.ofUint64 1))).map (·.add (.ofUint64 1))

structure WorkHeader where
  powHash : ArithUint256
  nBits : BitVec 32

def genesisBits (regtest : Bool) : BitVec 32 := if regtest then 0x207fffff else 0x1f00ffff

/-- `nChainWork` of the last header of a chain over the genesis block, as `AddToBlockIndex` sums it up. -/
def nChainWork (genesis : BitVec 32) : List WorkHeader → Option ArithUint256
  | [] => do return BaseUint.zero.add (← getBlockProof genesis)
  | header :: pprev => do return (← nChainWork genesis pprev).add (← getBlockProof header.nBits)

end Qstees
