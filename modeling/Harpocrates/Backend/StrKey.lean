import Harpocrates.Framework.Bytes
import Harpocrates.Framework.Python

namespace Harpocrates.Backend.StrKey

open Framework Framework.Python

def STELLAR_ALPHABET : List Char := "ABCDEFGHIJKLMNOPQRSTUVWXYZ234567".toList

def VERSION_BYTE_ED25519_PUBLIC : Nat := 6 <<< 3
def VERSION_BYTE_CONTRACT : Nat := 2 <<< 3

def STRKEY_ENCODED_LENGTH : Nat := 56

def CRC16_POLY : Nat := 0x1021
def CRC16_INIT : Nat := 0
def CRC16_BIT_MASK : Nat := 0xFFFF

/-- The loop of `decodeBase32`: the bits not yet written out, and the buffer, which keeps them
all. -/
def decodeBits : Nat → Nat → Text → Option Bytes
  | _,_,[] => some []
  | buffer,bits,ch::data =>
    match STELLAR_ALPHABET.idxOf? ch with
    | none => none
    | some value =>
      let buffer := (buffer <<< 5) ||| value
      let bits := bits+5
      if 8 ≤ bits then
        (decodeBits buffer (bits-8) data).map (UInt8.ofNat ((buffer >>> (bits-8)) &&& 0xFF)::·)
      else decodeBits buffer bits data

def decodeBase32 (data : Text) : Option Bytes :=
  if data.length ≠ STRKEY_ENCODED_LENGTH then none else decodeBits 0 0 data

def crcShift (crc : Nat) : Nat :=
  let crc := crc <<< 1
  if crc &&& 0x10000 ≠ 0 then (crc ^^^ CRC16_POLY) &&& CRC16_BIT_MASK else crc

def crc16Xmodem (data : Bytes) : Nat :=
  data.foldl (fun crc byteVal => Nat.iterate crcShift 8 (crc ^^^ (byteVal.toNat <<< 8))) CRC16_INIT

def isValidStrkey (value : Text) (expectedVersionByte : Nat) : Bool :=
  if value.length ≠ STRKEY_ENCODED_LENGTH then false
  else
    let normalised := upper value
    if normalised.head? ≠ STELLAR_ALPHABET[expectedVersionByte >>> 3]? then false
    else
      match decodeBase32 normalised with
      | none => false
      | some decoded =>
        let expectedCrc := ((decoded.getD 33 0).toNat <<< 8) ||| (decoded.getD 34 0).toNat
        (decoded.getD 0 0).toNat = expectedVersionByte &&
          expectedCrc = crc16Xmodem (decoded.take 33)

def validate (versionByte : Nat) (message : String) : Value → Except String (Option Text)
  | .none => .ok none
  | .str value =>
    let normalized := upper (strip value)
    if isValidStrkey normalized versionByte then .ok (some normalized) else .error message
  | _ => .error message

def validateSourceAddress : Value → Except String (Option Text) :=
  validate VERSION_BYTE_ED25519_PUBLIC "sourceAddress must be a valid Stellar G-address"

def validateContractId : Value → Except String (Option Text) :=
  validate VERSION_BYTE_CONTRACT "contractId must be a valid Stellar C-contract ID"

example : isValidStrkey "GAAAAAAAAAAAAAAAAAAAAAAAAAAAAAAAAAAAAAAAAAAAAAAAAAAABZKY".toList
    VERSION_BYTE_ED25519_PUBLIC = true := by decide +kernel

end Harpocrates.Backend.StrKey
