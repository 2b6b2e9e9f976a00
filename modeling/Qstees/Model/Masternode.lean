import Qstees.Model.Infinitynode
import Qstees.Model.PaymentVotes

/-!
# Masternode announcements

The text of a network address (`netaddress.cpp`), the checks of `CMasternodeBroadcast::SimpleCheck`, and the string
that `Sign` signs and `CheckSignature` verifies.
-/

namespace Qstees

def pchIPv4 : List UInt8 := [0, 0, 0, 0, 0, 0, 0, 0, 0, 0, 0xff, 0xff]

def pchOnionCat : List UInt8 := [0xFD, 0x87, 0xD8, 0x7E, 0xEB, 0x43]

def g_internal_prefix : List UInt8 := [0xFD, 0x6B, 0x88, 0xC0, 0x87, 0x24]

inductive NetClass where
  | unroutable
  | ipv4
  | ipv6
  | onion
  | internal
deriving DecidableEq, Repr

namespace CService

variable (a : CService)

def getByte (n : Nat) : Nat := ((a.ip[15 - n]?).getD 0).toNat

def isIPv4 : Bool := a.ip.take 12 == pchIPv4

def isTor : Bool := a.ip.take 6 == pchOnionCat

def isInternal : Bool := a.ip.take 6 == g_internal_prefix

def isRFC1918 : Bool :=
  a.isIPv4 && (a.getByte 3 == 10 || (a.getByte 3 == 192 && a.getByte 2 == 168) ||
    (a.getByte 3 == 172 && (16 ≤ a.getByte 2 && a.getByte 2 ≤ 31)))

def isRFC2544 : Bool := a.isIPv4 && a.getByte 3 == 198 && (a.getByte 2 == 18 || a.getByte 2 == 19)

def isRFC3927 : Bool := a.isIPv4 && (a.getByte 3 == 169 && a.getByte 2 == 254)

def isRFC6598 : Bool := a.isIPv4 && a.getByte 3 == 100 && 64 ≤ a.getByte 2 && a.getByte 2 ≤ 127

def isRFC5737 : Bool :=
  a.isIPv4 && ((a.getByte 3 == 192 && a.getByte 2 == 0 && a.getByte 1 == 2) ||
    (a.getByte 3 == 198 && a.getByte 2 == 51 && a.getByte 1 == 100) ||
    (a.getByte 3 == 203 && a.getByte 2 == 0 && a.getByte 1 == 113))

def isRFC3849 : Bool :=
  a.getByte 15 == 0x20 && a.getByte 14 == 0x01 && a.getByte 13 == 0x0D && a.getByte 12 == 0xB8

def isRFC4862 : Bool := a.ip.take 8 == [0xFE, 0x80, 0, 0, 0, 0, 0, 0]

def isRFC4193 : Bool := (a.getByte 15 &&& 0xFE) == 0xFC

def isRFC4843 : Bool :=
  a.getByte 15 == 0x20 && a.getByte 14 == 0x01 && a.getByte 13 == 0x00 && (a.getByte 12 &&& 0xF0) == 0x10

def isLocal : Bool :=
  (a.isIPv4 && (a.getByte 3 == 127 || a.getByte 3 == 0)) || a.ip == List.replicate 15 0 ++ [1]

def isValid : Bool :=
  !(a.ip.take 9 == pchIPv4.drop 3) && !(a.ip == List.replicate 16 0) && !a.isRFC3849 && !a.isInternal &&
    !(a.isIPv4 && (a.ip.drop 12 == [0xff, 0xff, 0xff, 0xff] || a.ip.drop 12 == [0, 0, 0, 0]))

/-- `IsRoutable`. -/
def isRoutable : Bool :=
  a.isValid && !(a.isRFC1918 || a.isRFC2544 || a.isRFC3927 || a.isRFC4862 || a.isRFC6598 || a.isRFC5737 ||
    (a.isRFC4193 && !a.isTor) || a.isRFC4843 || a.isLocal || a.isInternal)

def getNetwork : NetClass :=
  if a.isInternal then .internal
  else if !a.isRoutable then .unroutable
  else if a.isIPv4 then .ipv4
  else if a.isTor then .onion
  else .ipv6

end CService

def drainBits (tobits acc bits : Nat) : Nat → List Nat
  | 0 => []
  | n + 1 => acc / 2 ^ (bits + n * tobits) % 2 ^ tobits :: drainBits tobits acc bits n

/-- `ConvertBits`, with padding. -/
def convertBits (frombits tobits acc bits : Nat) : List Nat → List Nat
  | [] => if bits = 0 then [] else [acc * 2 ^ (tobits - bits) % 2 ^ tobits]
  | v :: vs =>
    let acc := (acc * 2 ^ frombits + v) % 2 ^ (frombits + tobits - 1)
    let bits := bits + frombits
    drainBits tobits acc (bits % tobits) (bits / tobits) ++ convertBits frombits tobits acc (bits % tobits) vs

def pbase32 : List Char := "abcdefghijklmnopqrstuvwxyz234567".toList

def encodeBase32 (bytes : List UInt8) : String :=
  let str := (convertBits 8 5 0 0 (bytes.map UInt8.toNat)).map (fun v => (pbase32[v]?).getD '=')
  String.ofList (str ++ List.replicate ((8 - str.length % 8) % 8) '=')

namespace CService

def toStringIP (a : CService) : String :=
  if a.isTor then encodeBase32 (a.ip.drop 6) ++ ".onion"
  else if a.isInternal then encodeBase32 (a.ip.drop 6) ++ ".internal"
  else if a.isIPv4 then ".".intercalate ([3, 2, 1, 0].map (fun n => toString (a.getByte n)))
  else ":".intercalate ([15, 13, 11, 9, 7, 5, 3, 1].map (fun n =>
    String.ofList (Nat.toDigits 16 (a.getByte n * 256 + a.getByte (n - 1)))))

def toStringIPPort (a : CService) : String :=
  if a.isIPv4 || a.isTor || a.isInternal then a.toStringIP ++ ":" ++ toString a.port
  else "[" ++ a.toStringIP ++ "]:" ++ toString a.port

end CService

def getMainnetPort : Nat := 3337

structure MasternodeEnv where
  networkID : Network
  nDefaultPort : Nat
  isReachable : NetClass → Bool
  getID : CPubKey → List UInt8
  getID_length : ∀ pubKey, (getID pubKey).length = 20
  verifyMessage : CPubKey → List UInt8 → String → Bool

structure MasternodeMoment where
  getAdjustedTime : Int
  mapBlockIndex : UInt256 → Bool
  isSporkActive : Bool := false

structure CMasternodePing where
  vin : CTxIn := ⟨⟨0, 0xffffffff⟩, [], SEQUENCE_FINAL, []⟩
  blockHash : UInt256 := 0
  sigTime : Int := 0
  vchSig : List UInt8 := []
  fSentinelIsCurrent : Bool := false
deriving DecidableEq, Repr

def CMasternodePing.same (a b : CMasternodePing) : Bool :=
  a.vin.prevout == b.vin.prevout && a.vin.scriptSig == b.vin.scriptSig && a.vin.nSequence == b.vin.nSequence &&
    a.blockHash == b.blockHash

def CMasternodePing.simpleCheck (now : MasternodeMoment) (mnp : CMasternodePing) : Bool × Int :=
  if mnp.sigTime > now.getAdjustedTime + 60 * 60 then (false, 1)
  else (now.mapBlockIndex mnp.blockHash, 0)

structure CMasternodeBroadcast where
  vin : CTxIn
  vinBurnFund : CTxIn
  addr : CService
  pubKeyCollateralAddress : CPubKey
  pubKeyMasternode : CPubKey
  vchSig : List UInt8
  sigTime : Int
  nProtocolVersion : Int
  lastPing : CMasternodePing
  fRecovery : Bool := false
  ip_length : addr.ip.length = 16

variable (E : MasternodeEnv)

def isValidNetAddr (addrIn : CService) : Bool :=
  E.networkID = .regtest || (addrIn.isIPv4 && E.isReachable addrIn.getNetwork && addrIn.isRoutable)

namespace CMasternodeBroadcast

structure SimpleCheck where
  ok : Bool
  nDos : Int
  expired : Bool
deriving DecidableEq, Repr

/-- `CMasternodeBroadcast::SimpleCheck`. -/
def simpleCheck (now : MasternodeMoment) (mnb : CMasternodeBroadcast) : SimpleCheck :=
  if !isValidNetAddr E mnb.addr then ⟨false, 0, false⟩
  else if mnb.addr.port ≠ E.nDefaultPort then ⟨false, 0, false⟩
  else if mnb.sigTime > now.getAdjustedTime + 60 * 60 then ⟨false, 1, false⟩
  else
    let emptyPing := mnb.lastPing.same {}
    let ping := mnb.lastPing.simpleCheck now
    let expired := emptyPing || !ping.1
    let nDos := if emptyPing then 0 else ping.2
    let minProto := if now.isSporkActive then MIN_MASTERNODE_PAYMENT_PROTO_VERSION_2
      else MIN_MASTERNODE_PAYMENT_PROTO_VERSION_1
    if mnb.nProtocolVersion < minProto then ⟨false, nDos, expired⟩
    else if (getScriptForDestination (.keyID (E.getID mnb.pubKeyCollateralAddress))).length ≠ 25 then
      ⟨false, 100, expired⟩
    else if (getScriptForDestination (.keyID (E.getID mnb.pubKeyMasternode))).length ≠ 25 then ⟨false, 100, expired⟩
    else if !mnb.vin.scriptSig.isEmpty then ⟨false, 100, expired⟩
    else if E.networkID = .main then ⟨mnb.addr.port = E.nDefaultPort, nDos, expired⟩
    else ⟨mnb.addr.port ≠ getMainnetPort, nDos, expired⟩

/-- The string that an announcement signs. -/
def strMessage (mnb : CMasternodeBroadcast) : String :=
  mnb.addr.toStringIPPort ++ toString mnb.sigTime ++ hexStr (E.getID mnb.pubKeyCollateralAddress).reverse ++
    hexStr (E.getID mnb.pubKeyMasternode).reverse ++ toString mnb.nProtocolVersion

def checkSignature (mnb : CMasternodeBroadcast) : Bool × Int :=
  if E.verifyMessage mnb.pubKeyCollateralAddress mnb.vchSig (mnb.strMessage E) then (true, 0) else (false, 100)

end CMasternodeBroadcast

end Qstees
