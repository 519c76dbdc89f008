import KeyLifecycle.Bytes

/-! Base64url without padding: six bits to a character, three bytes to four characters. -/
namespace KeyLifecycle.Bytes.Base64Url

def letters : List Char := [
  'A', 'B', 'C', 'D', 'E', 'F', 'G', 'H', 'I', 'J', 'K', 'L', 'M', 'N', 'O', 'P', 'Q', 'R', 'S',
  'T', 'U', 'V', 'W', 'X', 'Y', 'Z', 'a', 'b', 'c', 'd', 'e', 'f', 'g', 'h', 'i', 'j', 'k', 'l',
  'm', 'n', 'o', 'p', 'q', 'r', 's', 't', 'u', 'v', 'w', 'x', 'y', 'z', '0', '1', '2', '3', '4',
  '5', '6', '7', '8', '9', '-', '_']

def letter (n : Nat) : Char := letters.getD (n % 64) 'A'

def encode : List UInt8 → List Char
  | [] => []
  | [a] => [letter (a.toNat / 4), letter (a.toNat * 16)]
  | [a, b] => [letter (a.toNat / 4), letter (a.toNat * 16 + b.toNat / 16), letter (b.toNat * 4)]
  | a :: b :: c :: r =>
    letter (a.toNat / 4) :: letter (a.toNat * 16 + b.toNat / 16) ::
      letter (b.toNat * 4 + c.toNat / 64) :: letter c.toNat :: encode r

def toString (bs : List UInt8) : String := String.ofList (encode bs)

end KeyLifecycle.Bytes.Base64Url
