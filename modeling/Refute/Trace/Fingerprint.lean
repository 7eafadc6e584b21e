import Refute.Checksum
import Refute.Trace.Basic

namespace Refute

/-- The `count` lowest bytes of `n`, highest first. -/
def bigEndian : Nat → Nat → List UInt8
  | 0, _ => []
  | count + 1, n => bigEndian count (n / 256) ++ [UInt8.ofNat n]

namespace Word

/-- Two's complement in eight bytes. -/
def bytes (w : Word) : List UInt8 :=
  bigEndian 8 w.toNat

end Word

namespace Draw

def bytes (d : Draw) : Except Fault (List UInt8) :=
  if Word.least ≤ d.value ∧ d.value ≤ Word.greatest then
    .ok (Word.bytes (BitVec.ofInt 64 d.value))
  else .error (.unencodable d.value)

end Draw

namespace Trace

def bytes : Trace → Except Fault (List UInt8)
  | [] => .ok []
  | d :: t =>
    match d.bytes with
    | .error fault => .error fault
    | .ok head =>
      match bytes t with
      | .error fault => .error fault
      | .ok tail => .ok (head ++ tail)

end Trace

/-- The checksum by which a search recognises a trace it has seen. -/
def Trace.fingerprint (t : Trace) : Except Fault UInt32 :=
  t.bytes.map Checksum.ofBytes

end Refute
