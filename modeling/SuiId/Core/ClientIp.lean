import SuiId.Core.IpAddr

/-!
# The address of a client

`ClientIp::from_request_parts` of `handlers.rs` and the CIDR matcher of `ipnet.rs`.  A header value
is bytes; it is a text if all of them are visible ASCII characters, spaces or tabs.
-/

namespace SuiId

open Lib

/-! ## Networks -/

/-- `Cidr`. -/
structure Cidr where
  network : IpAddr
  length : Nat
deriving DecidableEq

/-- `mask32`. -/
def mask32 (length : Nat) : BitVec 32 :=
  if length = 0 then 0
  else if 32 ≤ length then BitVec.allOnes 32
  else BitVec.allOnes 32 <<< (32 - length)

/-- `mask128`. -/
def mask128 (length : Nat) : BitVec 128 :=
  if length = 0 then 0
  else if 128 ≤ length then BitVec.allOnes 128
  else BitVec.allOnes 128 <<< (128 - length)

/-- `Cidr::contains`. -/
def Cidr.contains (c : Cidr) (addr : IpAddr) : Bool :=
  match c.network, addr with
  | .v4 net, .v4 a => net &&& mask32 c.length == a &&& mask32 c.length
  | .v6 net, .v6 a => net &&& mask128 c.length == a &&& mask128 c.length
  | _, _ => false

/-- `any_contains`. -/
def anyContains (cidrs : List Cidr) (ip : IpAddr) : Bool := cidrs.any fun c => c.contains ip

/-! ## The header -/

/-- `HeaderValue::to_str`. -/
def headerToStr (value : List UInt8) : Option String :=
  if value.all fun b => (32 ≤ b && b < 127) || b == 9 then
    some (String.ofList (value.map fun b => Char.ofNat b.toNat))
  else none

/-- The entries of one value. -/
def forwardedEntries (s : String) : List String :=
  ((Text.split s ',').map Text.trim).filter fun s => !s.isEmpty

/-- The entries of the header values that are texts. -/
def xForwardedFor (values : List (List UInt8)) : List String :=
  (values.filterMap headerToStr).flatMap forwardedEntries

/-- The address of an entry, if it is one and is not trusted. -/
def untrusted (trustedProxies : List Cidr) (candidate : String) : Option IpAddr :=
  (IpAddr.parse candidate).filter fun ip => !anyContains trustedProxies ip

/-- `ClientIp::from_request_parts`, from the socket's peer and the values of `X-Forwarded-For`. -/
def clientIp (trustedProxies : List Cidr) (peer : Option IpAddr) (values : List (List UInt8)) :
    IpAddr :=
  match peer with
  | none => .v4 (ipv4New 127 0 0 1)
  | some peer =>
    if trustedProxies.isEmpty || !anyContains trustedProxies peer then peer
    else ((xForwardedFor values).reverse.findSome? (untrusted trustedProxies)).getD peer

end SuiId
