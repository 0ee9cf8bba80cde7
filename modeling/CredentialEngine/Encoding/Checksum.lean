/-!
# Checksums of encoded keys

The cyclic redundancy check with the polynomial `x^16 + x^12 + x^5 + 1`, starting from zero, most
significant bit first.
-/
namespace CredentialEngine.Encoding

def crcShift (crc : UInt16) : UInt16 :=
  if crc &&& 0x8000 = 0 then crc <<< 1 else (crc <<< 1) ^^^ 0x1021

def crcByte (crc : UInt16) (b : UInt8) : UInt16 :=
  (List.range 8).foldl (fun c _ => crcShift c) (crc ^^^ (b.toUInt16 <<< 8))

def crc16 (bytes : List UInt8) : UInt16 :=
  bytes.foldl crcByte 0

/-- The check as two bytes, low byte first. -/
def crcBytes (bytes : List UInt8) : List UInt8 :=
  let c := crc16 bytes
  [c.toUInt8, (c >>> 8).toUInt8]

end CredentialEngine.Encoding
