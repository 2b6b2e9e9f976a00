import Qstees.Model.Primitives

/-!
# Sporks

`CSporkMessage` and `CSporkManager`: signed switches that a node takes from the network or, as the signer, makes itself.
`ExecuteSpork` acts on the chain only and is left out.
-/

namespace Qstees

structure CSporkMessage where
  vchSig : List UInt8 := []
  nSporkID : Int := 0
  nValue : Int := 0
  nTimeSigned : Int := 0
deriving DecidableEq, Repr

structure SporkEnv where
  sporkPubKey : List UInt8
  sporkHash : Int → Int → Int → UInt256
  getKeysFromSecret : String → Option (List UInt8 × List UInt8)
  signMessage : String → List UInt8 → Option (List UInt8)
  verifyMessage : List UInt8 → List UInt8 → String → Bool

namespace CSporkMessage

variable (E : SporkEnv) (spork : CSporkMessage)

def getHash : UInt256 := E.sporkHash spork.nSporkID spork.nValue spork.nTimeSigned

def strMessage : String := toString spork.nSporkID ++ toString spork.nValue ++ toString spork.nTimeSigned

/-- `Sign`: the signature stays even where it does not verify under the key that made it. -/
def sign (strSignKey : String) : Bool × CSporkMessage :=
  match E.getKeysFromSecret strSignKey with
  | none => (false, spork)
  | some (key, pubkey) =>
    match E.signMessage spork.strMessage key with
    | none => (false, spork)
    | some vchSig => (E.verifyMessage pubkey vchSig spork.strMessage, { spork with vchSig })

def checkSignature : Bool := E.verifyMessage E.sporkPubKey spork.vchSig spork.strMessage

end CSporkMessage

structure CSporkManager where
  strMasterPrivKey : String := ""
  mapSporks : StdMap UInt256 CSporkMessage := ∅
  mapSporksActive : StdMap Int CSporkMessage := ∅
  pSporkDB : StdMap Int CSporkMessage := ∅

structure SporkContext where
  fLiteMode : Bool := false
  hasTip : Bool := true

def sporkIDs : List Int := [10001, 10002, 10004, 10007, 10008, 10009, 10011, 10012, 10013]

namespace CSporkManager

variable (E : SporkEnv) (man : CSporkManager)

def loadSpork (i : Int) : CSporkManager :=
  match man.pSporkDB[i]? with
  | none => man
  | some spork =>
    { man with
      mapSporks := man.mapSporks.insert (spork.getHash E) spork
      mapSporksActive := man.mapSporksActive.insert spork.nSporkID spork }

def loadSporksFromDB : CSporkManager := sporkIDs.foldl (loadSpork E) man

/-- A `SPORK` message. -/
def processSpork (ctx : SporkContext) (spork : CSporkMessage) : CSporkManager × Int :=
  if ctx.fLiteMode then (man, 0)
  else if !ctx.hasTip then (man, 0)
  else if (man.mapSporksActive[spork.nSporkID]?).any (fun active => active.nTimeSigned ≥ spork.nTimeSigned) then
    (man, 0)
  else if !spork.checkSignature E then (man, 100)
  else
    ({ man with
        mapSporks := man.mapSporks.insert (spork.getHash E) spork
        mapSporksActive := man.mapSporksActive.insert spork.nSporkID spork
        pSporkDB := man.pSporkDB.insert spork.nSporkID spork }, 0)

def getSporks (ctx : SporkContext) : List CSporkMessage :=
  if ctx.fLiteMode then [] else man.mapSporksActive.toList.map Prod.snd

/-- `UpdateSpork`, signed by the node. -/
def updateSpork (nSporkID nValue adjustedTime : Int) : Bool × CSporkManager :=
  let (signed, spork) := CSporkMessage.sign E { nSporkID, nValue, nTimeSigned := adjustedTime } man.strMasterPrivKey
  if signed then
    (true, { man with
      mapSporks := man.mapSporks.insert (spork.getHash E) spork
      mapSporksActive := man.mapSporksActive.insert nSporkID spork })
  else (false, man)

def setPrivKey (strPrivKey : String) : Bool × CSporkManager :=
  let (_, spork) := CSporkMessage.sign E {} strPrivKey
  if spork.checkSignature E then (true, { man with strMasterPrivKey := strPrivKey }) else (false, man)

end CSporkManager

inductive SporkAction where
  | message (ctx : SporkContext) (spork : CSporkMessage)
  | updateSpork (nSporkID nValue adjustedTime : Int)
  | setPrivKey (strPrivKey : String)

def SporkAction.run (E : SporkEnv) (man : CSporkManager) : SporkAction → CSporkManager
  | .message ctx spork => (man.processSpork E ctx spork).1
  | .updateSpork nSporkID nValue adjustedTime => (man.updateSpork E nSporkID nValue adjustedTime).2
  | .setPrivKey strPrivKey => (man.setPrivKey E strPrivKey).2

end Qstees
