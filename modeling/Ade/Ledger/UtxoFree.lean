import Ade.Ledger.Witness

/-! The obligations of a transaction that need neither the UTxO nor a slot: its networks. -/

namespace Ade.Ledger
open Std Library
open Ade.Codec (BabbageTxOut Read readArrayHeader readBytes readTag readUint skip)

/-- `validateOutputBootAddrAttrsTooBig`. -/
def maxBootstrapAttributesSize : Nat := 64

inductive OutputPosition where
  | output (index : Nat)
  | collateralReturn
deriving DecidableEq, Repr

inductive UtxoFreeRejection where
  | wrongNetworkInOutput (output : OutputPosition) (network expected : UInt8)
  | wrongNetworkWithdrawal (network expected : UInt8)
  | wrongNetworkInTxBody (declared expected : UInt8)
  | bootstrapAttributesTooBig (output : OutputPosition) (size : Nat)
  | malformedBootstrapAddress (output : OutputPosition)
  | emptyOutputAddress (output : OutputPosition)
  | malformedWithdrawals
deriving DecidableEq, Repr

/-! ## Bootstrap addresses -/

structure BootstrapAttributes where
  hasNetworkMagic : Bool
  derivationPayloadLen : Nat
  unknownLen : Nat
deriving DecidableEq, Repr

/-- `[tag 24 (payload), crc]`; the checksum is not compared. -/
def readBootstrapPayload (address : Bytes) : Read Bytes := do
  expectCount 2 (do
    let (tag, _) ← readTag address
    if tag ≠ 24 then throw (.invalidCborStructure (← get) "")
    let (payload, _) ← readBytes address
    let _ ← skip address
    if (← get) ≠ address.length then throw (.invalidCborStructure (← get) "")
    return payload) (← readArrayHeader address)

def bootstrapEntry (payload : Bytes) (attrs : BootstrapAttributes) : Read BootstrapAttributes := do
  let (key, _) ← readUint payload
  let (value, _) ← readBytes payload
  if key = 1 then
    let (inner, _) ← liftExcept ((readBytes value).runAt 0).1
    return { attrs with derivationPayloadLen := inner.length }
  else if key = 2 then return { attrs with hasNetworkMagic := true }
  else return { attrs with unknownLen := attrs.unknownLen + value.length }

/-- `[root, attributes, type]`. -/
def readPayloadAttributes (payload : Bytes) : Read BootstrapAttributes := do
  expectCount 3 (do
    let _ ← skip payload
    let attrs ← forEachEntry payload (bootstrapEntry payload) ⟨false, 0, 0⟩
    let _ ← skip payload
    return attrs) (← readArrayHeader payload)

def readBootstrapAttributes (address : Bytes) : Option BootstrapAttributes := do
  let payload ← ((readBootstrapPayload address).runAt 0).1.toOption
  ((readPayloadAttributes payload).runAt 0).1.toOption

def BootstrapAttributes.network (attrs : BootstrapAttributes) : UInt8 :=
  if attrs.hasNetworkMagic then 0 else 1

inductive AddressNetworkError where
  | empty
  | malformedBootstrap
deriving DecidableEq, Repr

def addressNetwork : Bytes → Except AddressNetworkError UInt8
  | [] => .error .empty
  | first :: rest =>
      if first >>> 4 = 0x8 then
        match readBootstrapAttributes (first :: rest) with
        | some attrs => .ok attrs.network
        | none => .error .malformedBootstrap
      else .ok (first &&& 0x0f)

/-! ## The networks of a transaction -/

/-- The network of an output, and the attributes that its address has if it is a bootstrap one. -/
def outputNetwork (position : OutputPosition) (out : BabbageTxOut) :
    Except UtxoFreeRejection (UInt8 × Option BootstrapAttributes) :=
  match out.address with
  | [] => .error (.emptyOutputAddress position)
  | first :: rest =>
      if first >>> 4 = 0x8 then
        match readBootstrapAttributes (first :: rest) with
        | some attrs => .ok (attrs.network, some attrs)
        | none => .error (.malformedBootstrapAddress position)
      else .ok (first &&& 0x0f, none)

def checkOutputNetwork (networkId : UInt8) (entry : OutputPosition × BabbageTxOut) :
    Except UtxoFreeRejection (List (OutputPosition × BootstrapAttributes)) := do
  let (network, attrs) ← outputNetwork entry.1 entry.2
  if network ≠ networkId then .error (.wrongNetworkInOutput entry.1 network networkId)
  else .ok (attrs.toList.map fun attrs => (entry.1, attrs))

/-- A collateral return stands behind the outputs. -/
def outputPositions (body : TxBody) : List (OutputPosition × BabbageTxOut) :=
  (body.outputs.zipIdx.map fun entry => (.output entry.2, entry.1)) ++
    body.collateralReturn.toList.map fun out => (.collateralReturn, out)

/-- Of several accounts on other networks the first is named. -/
def checkWithdrawalNetworks (networkId : UInt8) (data : Bytes) : Except UtxoFreeRejection Unit := do
  let accounts ← ((walkWithdrawalAccounts data).runAt 0).1.mapError fun _ => .malformedWithdrawals
  if accounts.any List.isEmpty then throw .malformedWithdrawals
  match (accounts.filterMap List.head?).find? fun header => header &&& 0x0f ≠ networkId with
  | some header => throw (.wrongNetworkWithdrawal (header &&& 0x0f) networkId)
  | none => return ()

def checkDeclaredNetwork (networkId : UInt8) (body : TxBody) : Except UtxoFreeRejection Unit :=
  match body.networkId with
  | some declared =>
      if declared ≠ networkId then .error (.wrongNetworkInTxBody declared networkId) else .ok ()
  | none => .ok ()

def checkAttributesSize (entry : OutputPosition × BootstrapAttributes) :
    Except UtxoFreeRejection Unit :=
  let size := entry.2.derivationPayloadLen + entry.2.unknownLen
  if size > maxBootstrapAttributesSize then .error (.bootstrapAttributesTooBig entry.1 size)
  else .ok ()

def checkTxNetworks (body : TxBody) (networkId : UInt8) : Except UtxoFreeRejection Unit := do
  let bootstrap ← (outputPositions body).mapM (checkOutputNetwork networkId)
  body.withdrawals.forM (checkWithdrawalNetworks networkId)
  checkDeclaredNetwork networkId body
  bootstrap.flatten.forM checkAttributesSize

end Ade.Ledger
