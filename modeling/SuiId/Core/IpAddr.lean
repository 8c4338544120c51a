import SuiId.Lib.Digits
import SuiId.Lib.Prefix

/-!
# IP addresses

`std::net::IpAddr` and its text form.  An IPv4 address is four decimal numbers of at most three
digits without a leading zero.  An IPv6 address is eight hexadecimal groups of at most four digits,
where `::` stands for one or more groups of zeros and the last two groups may be an IPv4 address.
-/

namespace SuiId

open Lib

/-- An address. -/
inductive IpAddr where
  | v4 (address : BitVec 32)
  | v6 (address : BitVec 128)
deriving DecidableEq, Repr

/-- `Ipv4Addr::new`, from octets. -/
def ipv4New (a b c d : Nat) : BitVec 32 := BitVec.ofNat 32 (Digits.value 256 [a, b, c, d])

/-- An address of eight groups of 16 bits. -/
def ipv6OfSegments (segments : List Nat) : BitVec 128 :=
  BitVec.ofNat 128 (Digits.value 65536 segments)

/-- `Ipv6Addr::new`. -/
def ipv6New (a b c d e f g h : Nat) : BitVec 128 := ipv6OfSegments [a, b, c, d, e, f, g, h]

/-! ## Reading -/

/-- `char::to_digit`. -/
def toDigit (radix : Nat) (c : Char) : Option Nat :=
  let digit? :=
    if '0' ≤ c && c ≤ '9' then some (c.toNat - '0'.toNat)
    else if 'a' ≤ c && c ≤ 'z' then some (c.toNat - 'a'.toNat + 10)
    else if 'A' ≤ c && c ≤ 'Z' then some (c.toNat - 'A'.toNat + 10)
    else none
  digit?.filter (· < radix)

/-- `read_given_char`. -/
def readGivenChar (c : Char) : List Char → Option (List Char)
  | [] => none
  | c' :: rest => if c' = c then some rest else none

/-- `read_number`, below a limit. -/
def readNumber (radix maxDigits : Nat) (allowZeroPrefix : Bool) (limit : Nat) (cs : List Char) :
    Option (Nat × List Char) :=
  let digits := (cs.takeWhile fun c => (toDigit radix c).isSome).filterMap (toDigit radix)
  if maxDigits < digits.length || digits.isEmpty then none
  else if !allowZeroPrefix && cs.head? == some '0' && 1 < digits.length then none
  else if Digits.value radix digits < limit then
    some (Digits.value radix digits, cs.drop digits.length)
  else none

/-- `read_separator`, up to what is read after the separator. -/
def readSeparator (sep : Char) (index : Nat) (cs : List Char) : Option (List Char) :=
  if 0 < index then readGivenChar sep cs else some cs

/-- A number of the dotted form. -/
def readOctet (index : Nat) (cs : List Char) : Option (Nat × List Char) :=
  (readSeparator '.' index cs).bind (readNumber 10 3 false 256)

/-- `read_ipv4_addr`, as octets. -/
def readIpv4Addr (cs : List Char) : Option (List Nat × List Char) := do
  let (a, cs) ← readOctet 0 cs
  let (b, cs) ← readOctet 1 cs
  let (c, cs) ← readOctet 2 cs
  let (d, cs) ← readOctet 3 cs
  pure ([a, b, c, d], cs)

/-- The two groups that octets make. -/
def groupsOfOctets : List Nat → List Nat
  | [a, b, c, d] => [256 * a + b, 256 * c + d]
  | _ => []

/-- `read_groups`, with room for `room` groups: the groups, whether the last two are an IPv4
address, and what is left. -/
def readGroups : (room index : Nat) → List Char → List Nat × Bool × List Char
  | 0, _, cs => ([], false, cs)
  | room + 1, index, cs =>
    match if 0 < room then (readSeparator ':' index cs).bind readIpv4Addr else none with
    | some (octets, rest) => (groupsOfOctets octets, true, rest)
    | none =>
      match (readSeparator ':' index cs).bind (readNumber 16 4 true 65536) with
      | none => ([], false, cs)
      | some (group, rest) =>
        let (groups, ipv4, rest) := readGroups room (index + 1) rest
        (group :: groups, ipv4, rest)

/-- `read_ipv6_addr`, as groups. -/
def readIpv6Addr (cs : List Char) : Option (List Nat × List Char) :=
  let (head, headIpv4, cs) := readGroups 8 0 cs
  if head.length = 8 then some (head, cs)
  else if headIpv4 then none
  else do
    let cs ← readGivenChar ':' cs
    let cs ← readGivenChar ':' cs
    let (tail, _, cs) := readGroups (7 - head.length) 0 cs
    pure (head ++ List.replicate (8 - head.length - tail.length) 0 ++ tail, cs)

/-- `str::parse::<IpAddr>`. -/
def IpAddr.parse (s : String) : Option IpAddr :=
  match readIpv4Addr s.toList with
  | some (octets, rest) =>
    if rest.isEmpty then some (.v4 (BitVec.ofNat 32 (Digits.value 256 octets))) else none
  | none =>
    match readIpv6Addr s.toList with
    | some (segments, rest) => if rest.isEmpty then some (.v6 (ipv6OfSegments segments)) else none
    | none => none

example : IpAddr.parse "192.0.2.7" = some (.v4 (ipv4New 192 0 2 7)) := by decide +kernel

example : IpAddr.parse "64:ff9b::192.0.2.33" =
    some (.v6 (ipv6New 0x64 0xff9b 0 0 0 0 0xc000 0x221)) := by decide +kernel

example : ["01.2.3.4", "1.2.3.4:80", "1.2.3", "1:2:3:4:5:6:7", "::1::", "unknown"].filterMap
    IpAddr.parse = [] := by decide +kernel

end SuiId
