import Tariff.Digest
import Tariff.Program

namespace Tariff.Program

def sourcePreimage (script : Script) : List UInt8 :=
  let bytes := script.toBytes
  Digest.bigEndian 8 bytes.length ++ bytes

-- A zero byte ends each constant; it is no decimal digit.
def constantPreimage (value : Amount) : List UInt8 :=
  value.digits.map (fun c => UInt8.ofNat c.toNat) ++ [0]

-- The number of sources, each source after its length, then the constants. Counts and lengths
-- take eight bytes.
def preimage (p : Program) : List UInt8 :=
  Digest.bigEndian 8 p.sources.length ++ p.sources.flatMap sourcePreimage ++
    p.constants.flatMap constantPreimage

def fingerprint (p : Program) : String :=
  String.ofList (Text.Hex.encode (Digest.sha256 p.preimage))

end Tariff.Program
