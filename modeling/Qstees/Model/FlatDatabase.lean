import Qstees.Model.InfinitynodeMan

/-!
# The flat database

`CFlatDB` keeps one object in a file, between a header and a checksum. A stream is modelled by the values that were
written to it, in order; strings, numbers and maps are read as they were written.
-/

namespace Qstees

structure FlatData (Body : Type) where
  strMagicMessage : String
  pchMsg : List UInt8
  body : Body

/-- A file; without `hashIn` it ends before the checksum. -/
structure FlatFile (Body : Type) where
  data : FlatData Body
  hashIn : Option UInt256

structure CFlatDB (Body : Type) where
  strMagicMessage : String
  messageStart : List UInt8
  hash : FlatData Body → UInt256

inductive ReadResult where
  | Ok | FileError | HashReadError | IncorrectHash | IncorrectMagicMessage | IncorrectMagicNumber | IncorrectFormat
deriving DecidableEq, Repr

structure FlatObject (Body T : Type) where
  serialize : T → Body
  unserialize : T → Body → Option T
  clear : T → T
  checkAndRemove : T → T

namespace CFlatDB

variable {Body T : Type} (db : CFlatDB Body) (O : FlatObject Body T)

def write (objToSave : T) : FlatFile Body :=
  let ssObj : FlatData Body := ⟨db.strMagicMessage, db.messageStart, O.serialize objToSave⟩
  ⟨ssObj, some (db.hash ssObj)⟩

/-- `CFlatDB::Read`. -/
def read (file : Option (FlatFile Body)) (objToLoad : T) (fDryRun : Bool) : ReadResult × T :=
  match file with
  | none => (.FileError, objToLoad)
  | some file =>
    match file.hashIn with
    | none => (.HashReadError, objToLoad)
    | some hashIn =>
      if hashIn ≠ db.hash file.data then (.IncorrectHash, objToLoad)
      else if db.strMagicMessage ≠ file.data.strMagicMessage then (.IncorrectMagicMessage, objToLoad)
      else if file.data.pchMsg ≠ db.messageStart then (.IncorrectMagicNumber, objToLoad)
      else
        match O.unserialize objToLoad file.data.body with
        | none => (.IncorrectFormat, O.clear objToLoad)
        | some objToLoad => (.Ok, if fDryRun then objToLoad else O.checkAndRemove objToLoad)

def proceeds : ReadResult → Bool
  | .Ok | .FileError | .IncorrectFormat => true
  | .HashReadError | .IncorrectHash | .IncorrectMagicMessage | .IncorrectMagicNumber => false

/-- `CFlatDB::Load`. -/
def load (file : Option (FlatFile Body)) (objToLoad : T) : Bool × T :=
  let (readResult, objToLoad) := db.read O file objToLoad false
  (proceeds readResult, objToLoad)

def dump (file : Option (FlatFile Body)) (tmpObjToLoad objToSave : T) : Bool × Option (FlatFile Body) :=
  if proceeds (db.read O file tmpObjToLoad true).1 then (true, some (db.write O objToSave)) else (false, file)

end CFlatDB

/-- What `CInfinitynode::SerializationOp` writes; the rank is not written. -/
structure SavedNode where
  vinBurnFund : COutPoint
  sigTime : Int
  nHeight : Int
  nExpireHeight : Int
  nLastRewardHeight : Int
  nBurnValue : Int
  nQSTEESType : Int
  collateralAddress : String
  scriptPubKey : CScript
  backupAddress : String
  nMetadataHeight : Int
  metadataNodeAddress : String
  metadataService : CService
deriving DecidableEq, Repr

def CInfinitynode.serialize (inf : CInfinitynode) : SavedNode where
  vinBurnFund := inf.vinBurnFund
  sigTime := inf.sigTime
  nHeight := inf.nHeight
  nExpireHeight := inf.nExpireHeight
  nLastRewardHeight := inf.nLastRewardHeight
  nBurnValue := inf.nBurnValue
  nQSTEESType := inf.nQSTEESType
  collateralAddress := inf.collateralAddress
  scriptPubKey := inf.scriptPubKey
  backupAddress := inf.backupAddress
  nMetadataHeight := inf.nMetadataHeight
  metadataNodeAddress := inf.metadataNodeAddress
  metadataService := inf.metadataService

def SavedNode.unserialize (saved : SavedNode) : CInfinitynode where
  vinBurnFund := saved.vinBurnFund
  sigTime := saved.sigTime
  nHeight := saved.nHeight
  nExpireHeight := saved.nExpireHeight
  nLastRewardHeight := saved.nLastRewardHeight
  nBurnValue := saved.nBurnValue
  nQSTEESType := saved.nQSTEESType
  collateralAddress := saved.collateralAddress
  scriptPubKey := saved.scriptPubKey
  backupAddress := saved.backupAddress
  nMetadataHeight := saved.nMetadataHeight
  metadataNodeAddress := saved.metadataNodeAddress
  metadataService := saved.metadataService

/-- What `CInfinitynodeMan::SerializationOp` writes, in its order. -/
structure SavedManager where
  strVersion : String
  mapInfinitynodes : StdMap COutPoint SavedNode
  keyed : ∀ (o : COutPoint) (saved : SavedNode), mapInfinitynodes[o]? = some saved → saved.vinBurnFund = o
  mapLastPaid : StdMap CScript Int
  nLastScanHeight : Int
  mapStatementBIG : StdMap Int Int
  mapStatementMID : StdMap Int Int
  mapStatementLIL : StdMap Int Int
  nBIGLastStmHeight : Int
  nMIDLastStmHeight : Int
  nLILLastStmHeight : Int
  nBIGLastStmSize : Int
  nMIDLastStmSize : Int
  nLILLastStmSize : Int

namespace CInfinitynodeMan

def SERIALIZATION_VERSION_STRING : String := "CInfinitynodeMan-Version-1"

def serialize (man : CInfinitynodeMan) : SavedManager where
  strVersion := SERIALIZATION_VERSION_STRING
  mapInfinitynodes := man.mapInfinitynodes.nodes.map fun _ inf => inf.serialize
  keyed := by
    intro o saved h
    rw [Std.ExtTreeMap.getElem?_map] at h
    obtain ⟨inf, hinf, rfl⟩ := Option.map_eq_some_iff.mp h
    exact man.mapInfinitynodes.keyed o inf hinf
  mapLastPaid := man.mapLastPaid
  nLastScanHeight := man.nLastScanHeight
  mapStatementBIG := man.stmBIG.map
  mapStatementMID := man.stmMID.map
  mapStatementLIL := man.stmLIL.map
  nBIGLastStmHeight := man.stmBIG.lastHeight
  nMIDLastStmHeight := man.stmMID.lastHeight
  nLILLastStmHeight := man.stmLIL.lastHeight
  nBIGLastStmSize := man.stmBIG.lastSize
  nMIDLastStmSize := man.stmMID.lastSize
  nLILLastStmSize := man.stmLIL.lastSize

def unserialize (man : CInfinitynodeMan) (saved : SavedManager) : CInfinitynodeMan :=
  let man :=
    { man with
      mapInfinitynodes :=
        { nodes := saved.mapInfinitynodes.map fun _ node => node.unserialize
          keyed := by
            intro o inf h
            rw [Std.ExtTreeMap.getElem?_map] at h
            obtain ⟨node, hnode, rfl⟩ := Option.map_eq_some_iff.mp h
            exact saved.keyed o node hnode }
      mapLastPaid := saved.mapLastPaid
      nLastScanHeight := saved.nLastScanHeight
      stmBIG := ⟨saved.mapStatementBIG, saved.nBIGLastStmHeight, saved.nBIGLastStmSize⟩
      stmMID := ⟨saved.mapStatementMID, saved.nMIDLastStmHeight, saved.nMIDLastStmSize⟩
      stmLIL := ⟨saved.mapStatementLIL, saved.nLILLastStmHeight, saved.nLILLastStmSize⟩ }
  if saved.strVersion ≠ SERIALIZATION_VERSION_STRING then man.clear else man

/-- The manager as an object of `infinitynode.dat`. Its `CheckAndRemove` without arguments does nothing. -/
def flatObject : FlatObject SavedManager CInfinitynodeMan where
  serialize := serialize
  unserialize := fun man saved => some (man.unserialize saved)
  clear := clear
  checkAndRemove := id

end CInfinitynodeMan

end Qstees
