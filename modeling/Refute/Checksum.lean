namespace Refute.Checksum

/-- One bit leaves at the low end. -/
def shift (crc : UInt32) : UInt32 :=
  if crc &&& 1 = 1 then (crc >>> 1) ^^^ 0xEDB88320 else crc >>> 1

def shifts : Nat → UInt32 → UInt32
  | 0, crc => crc
  | n + 1, crc => shifts n (shift crc)

def absorb (crc : UInt32) (byte : UInt8) : UInt32 :=
  shifts 8 (crc ^^^ byte.toUInt32)

/-- The cyclic redundancy check with the reflected polynomial 0xEDB88320. -/
def ofBytes (bytes : List UInt8) : UInt32 :=
  bytes.foldl absorb 0xFFFFFFFF ^^^ 0xFFFFFFFF

end Refute.Checksum
