import Keyring.Digest.Keccak256
import Keyring.Error
import Keyring.Secp256k1

/-!
# Addresses of account chains

An address of an account chain is the last 20 bytes of the Keccak-256 digest of a
public key.  Its text is hexadecimal; the case of each letter is a checksum (EIP-55)
that is written but not demanded.
-/

namespace Keyring

/-- An address of an account chain. -/
abbrev EvmAddress := BitVec 160

namespace EvmAddress

/-- The address that the last 20 bytes of a byte string spell. -/
def ofBytes (b : Bytes) : EvmAddress :=
  BitVec.ofNat 160 (Bytes.toNat b)

/-- The 20 bytes of an address. -/
def toBytes (a : EvmAddress) : Bytes :=
  Bytes.ofNat 20 a.toNat

/-- The address of a public key. -/
def ofPublicKey (key : Secp256k1.Point) : EvmAddress :=
  ofBytes ((keccak256 key.coordinates).drop 12)

/-- The text of an address in lower case. -/
def lowerText (a : EvmAddress) : String :=
  "0x" ++ Hex.encode a.toBytes

/-- Raises the letters of a text whose half-bytes in `marks` have the top bit set. -/
def raise (text marks : List Char) : List Char :=
  text.zipWith (fun c mark => if '8' ≤ mark then c.toUpper else c) marks

/-- The text of an address with the checksum in the case of its letters. -/
def checksumText (a : EvmAddress) : String :=
  let digits := Hex.encode a.toBytes
  let marks := Hex.digits (keccak256 (Bytes.ofString digits))
  "0x" ++ String.ofList (raise digits.toList marks)

/-- A text without one leading `0x` or `0X`. -/
def stripPrefix (s : String) : List Char :=
  match s.toList with
  | '0' :: 'x' :: rest => rest
  | '0' :: 'X' :: rest => rest
  | cs => cs

/-- Reads the text of an address. -/
def ofText (s : String) : Except WalletError EvmAddress :=
  match Hex.decode (String.ofList (stripPrefix s)) with
  | .error fault => .error (.address (.hex fault))
  | .ok b =>
    if b.length = 20 then .ok (ofBytes b) else .error (.address (.wrongLength b.length))

end EvmAddress

end Keyring
