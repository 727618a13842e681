import Ade.Library.Bytes
import Ade.Types

/-! Mux frames: a header of eight bytes and an opaque payload. -/

namespace Ade.Network
open Library

inductive MuxMode where
  | initiator
  | responder
deriving DecidableEq, Repr

def idMask : UInt16 := 0x7fff

theorem zero_le_idMask : 0 ≤ idMask := by decide

def modeBit : UInt16 := 0x8000

/-- Fifteen bits: the sixteenth one of the word on the wire is the mode. -/
structure MiniProtocolId where
  get : UInt16
  small : get ≤ idMask
deriving DecidableEq, Repr

structure MuxHeader where
  timestamp : UInt32
  mode : MuxMode
  miniProtocolId : MiniProtocolId
  length : UInt16
deriving DecidableEq, Repr

structure MuxFrame where
  header : MuxHeader
  payload : Bytes
deriving DecidableEq, Repr

inductive MuxError where
  | truncated (needed got : Nat)
  | payloadTooLarge (len : Nat)
deriving DecidableEq, Repr

def headerLen : Nat := 8

def maxPayload : Nat := 65535

def MuxMode.bit : MuxMode → UInt16
  | .initiator => 0
  | .responder => modeBit

def idWord (header : MuxHeader) : UInt16 := header.mode.bit ||| (header.miniProtocolId.get &&& idMask)

def encodeHeader (header : MuxHeader) : Bytes :=
  toBeBytes 4 header.timestamp.toNat ++ toBeBytes 2 (idWord header).toNat ++
    toBeBytes 2 header.length.toNat

def encodeFrame (frame : MuxFrame) : Except MuxError Bytes :=
  if frame.payload.length > maxPayload then .error (.payloadTooLarge frame.payload.length)
  else if frame.header.length.toNat ≠ frame.payload.length then
    .error (.truncated frame.header.length.toNat frame.payload.length)
  else .ok (encodeHeader frame.header ++ frame.payload)

theorem masked_small (word : UInt16) : word &&& idMask ≤ idMask := by
  rw [UInt16.le_iff_toNat_le, UInt16.toNat_and]
  exact Nat.and_le_right

/-- Any eight bytes are a header. -/
def decodeHeader (bytes : Bytes) : MuxHeader :=
  let word := UInt16.ofNat (fromBeBytes ((bytes.drop 4).take 2))
  { timestamp := UInt32.ofNat (fromBeBytes (bytes.take 4))
    mode := if word &&& modeBit ≠ 0 then .responder else .initiator
    miniProtocolId := ⟨word &&& idMask, masked_small word⟩
    length := UInt16.ofNat (fromBeBytes ((bytes.drop 6).take 2)) }

def decodeFrame (bytes : Bytes) : Except MuxError (MuxFrame × Bytes) :=
  if bytes.length < headerLen then .error (.truncated headerLen bytes.length)
  else
    let header := decodeHeader bytes
    let payloadEnd := headerLen + header.length.toNat
    if bytes.length < payloadEnd then .error (.truncated payloadEnd bytes.length)
    else .ok (⟨header, (bytes.drop headerLen).take header.length.toNat⟩, bytes.drop payloadEnd)

end Ade.Network
