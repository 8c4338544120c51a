import SuiId.Core.IpAddr

/-!
# The resolver of the federation

`runtime/resolver.rs`: the two tables of denied prefixes, `denied_by`, and `validate_answer`.  A
row's name goes into the error of an answer that is refused.
-/

namespace SuiId

/-- `DeniedPrefix`. -/
structure DeniedPrefix where
  network : IpAddr
  prefixLen : Nat
  name : String

/-- A row of `IPV4_DENIED`. -/
def deniedV4 (a b c d prefixLen : Nat) (name : String) : DeniedPrefix :=
  ⟨.v4 (ipv4New a b c d), prefixLen, name⟩

/-- A row of `IPV6_DENIED`. -/
def deniedV6 (a b c d e f g h prefixLen : Nat) (name : String) : DeniedPrefix :=
  ⟨.v6 (ipv6New a b c d e f g h), prefixLen, name⟩

/-- `IPV4_DENIED`. -/
def ipv4Denied : List DeniedPrefix :=
  [deniedV4 0 0 0 0 8 "\"This network\" -- RFC 791 S3.2",
    deniedV4 0 0 0 0 32 "\"This host on this network\" -- RFC 1122 S3.2.1.3",
    deniedV4 10 0 0 0 8 "Private-Use -- RFC 1918",
    deniedV4 100 64 0 0 10 "Shared Address Space -- RFC 6598",
    deniedV4 127 0 0 0 8 "Loopback -- RFC 1122 S3.2.1.3",
    deniedV4 169 254 0 0 16 "Link Local -- RFC 3927",
    deniedV4 172 16 0 0 12 "Private-Use -- RFC 1918",
    deniedV4 192 0 0 0 24 "IETF Protocol Assignments -- RFC 6890 S2.1",
    deniedV4 192 0 0 0 29 "IPv4 Service Continuity Prefix -- RFC 7335",
    deniedV4 192 0 0 8 32 "IPv4 dummy address -- RFC 7600",
    deniedV4 192 0 0 9 32
      "Port Control Protocol Anycast -- RFC 7723 (Global=True in registry; denied anyway)",
    deniedV4 192 0 0 10 32
      "Traversal Using Relays around NAT Anycast -- RFC 8155 (Global=True; denied anyway)",
    deniedV4 192 0 0 170 32 "NAT64/DNS64 Discovery -- RFC 8880, RFC 7050",
    deniedV4 192 0 0 171 32 "NAT64/DNS64 Discovery -- RFC 8880, RFC 7050",
    deniedV4 192 0 2 0 24 "Documentation (TEST-NET-1) -- RFC 5737",
    deniedV4 192 31 196 0 24 "AS112-v4 -- RFC 7535 (Global=True; denied anyway)",
    deniedV4 192 52 193 0 24 "AMT -- RFC 7450 (Global=True; denied anyway)",
    deniedV4 192 88 99 0 24 "Deprecated (6to4 Relay Anycast) -- RFC 7526",
    deniedV4 192 88 99 2 32 "6a44-relay anycast address -- RFC 6751",
    deniedV4 192 168 0 0 16 "Private-Use -- RFC 1918",
    deniedV4 192 175 48 0 24
      "Direct Delegation AS112 Service -- RFC 7534 (Global=True; denied anyway)",
    deniedV4 198 18 0 0 15 "Benchmarking -- RFC 2544",
    deniedV4 198 51 100 0 24 "Documentation (TEST-NET-2) -- RFC 5737",
    deniedV4 203 0 113 0 24 "Documentation (TEST-NET-3) -- RFC 5737",
    deniedV4 240 0 0 0 4 "Reserved -- RFC 1112 S4",
    deniedV4 255 255 255 255 32 "Limited Broadcast -- RFC 8190, RFC 919"]

/-- `IPV6_DENIED`. -/
def ipv6Denied : List DeniedPrefix :=
  [deniedV6 0 0 0 0 0 0 0 1 128 "Loopback Address -- RFC 4291",
    deniedV6 0 0 0 0 0 0 0 0 128 "Unspecified Address -- RFC 4291",
    deniedV6 0 0 0 0 0 0xffff 0 0 96 "IPv4-mapped Address -- RFC 4291",
    deniedV6 0x64 0xff9b 0 0 0 0 0 0 96
      "IPv4-IPv6 Translat. (NAT64 #1) -- RFC 6052 (Global=True; denied anyway)",
    deniedV6 0x64 0xff9b 1 0 0 0 0 0 48 "IPv4-IPv6 Translat. (NAT64 #2) -- RFC 8215",
    deniedV6 0x100 0 0 0 0 0 0 0 64 "Discard-Only Address Block -- RFC 6666",
    deniedV6 0x100 0 0 1 0 0 0 0 64 "Dummy IPv6 Prefix -- RFC 9780",
    deniedV6 0x2001 0 0 0 0 0 0 0 23 "IETF Protocol Assignments -- RFC 2928",
    deniedV6 0x2001 0 0 0 0 0 0 0 32 "TEREDO -- RFC 4380, RFC 8190",
    deniedV6 0x2001 1 0 0 0 0 0 1 128
      "Port Control Protocol Anycast -- RFC 7723 (Global=True; denied anyway)",
    deniedV6 0x2001 1 0 0 0 0 0 2 128
      "Traversal Using Relays around NAT Anycast -- RFC 8155 (Global=True; denied anyway)",
    deniedV6 0x2001 1 0 0 0 0 0 3 128
      "DNS-SD Service Registration Protocol Anycast -- RFC 9665 (Global=True; denied anyway)",
    deniedV6 0x2001 2 0 0 0 0 0 0 48 "Benchmarking -- RFC 5180",
    deniedV6 0x2001 3 0 0 0 0 0 0 32 "AMT -- RFC 7450 (Global=True; denied anyway)",
    deniedV6 0x2001 4 0x112 0 0 0 0 0 48 "AS112-v6 -- RFC 7535 (Global=True; denied anyway)",
    deniedV6 0x2001 0x10 0 0 0 0 0 0 28 "Deprecated (previously ORCHID) -- RFC 4843",
    deniedV6 0x2001 0x20 0 0 0 0 0 0 28 "ORCHIDv2 -- RFC 7343 (Global=True; denied anyway)",
    deniedV6 0x2001 0x30 0 0 0 0 0 0 28
      ("Drone Remote ID Protocol Entity Tags (DETs) Prefix -- RFC 9374 (Global=True; denied " ++
        "anyway)"),
    deniedV6 0x2001 0xdb8 0 0 0 0 0 0 32 "Documentation -- RFC 3849",
    deniedV6 0x2002 0 0 0 0 0 0 0 16 "6to4 -- RFC 3056",
    deniedV6 0x2620 0x4f 0x8000 0 0 0 0 0 48
      "Direct Delegation AS112 Service -- RFC 7534 (Global=True; denied anyway)",
    deniedV6 0x3fff 0 0 0 0 0 0 0 20 "Documentation -- RFC 9637",
    deniedV6 0x5f00 0 0 0 0 0 0 0 16 "Segment Routing (SRv6) SIDs -- RFC 9602",
    deniedV6 0xfc00 0 0 0 0 0 0 0 7 "Unique-Local -- RFC 4193, RFC 8190",
    deniedV6 0xfe80 0 0 0 0 0 0 0 10 "Link-Local Unicast -- RFC 4291",
    deniedV6 0 0 0 0 0 0 0 0 96
      ("IPv4-compatible Address -- RFC 4291 S2.5.5.1 (not an IANA registry row -- the " ++
        "matrix's own explicit deny-list entry, distinct from IPv4-mapped above)")]

/-- `ipv4_in`. -/
def ipv4In (addr network : BitVec 32) (prefixLen : Nat) : Bool :=
  let mask : BitVec 32 := if prefixLen = 0 then 0 else BitVec.allOnes 32 <<< (32 - prefixLen)
  addr &&& mask == network &&& mask

/-- `ipv6_in`. -/
def ipv6In (addr network : BitVec 128) (prefixLen : Nat) : Bool :=
  let mask : BitVec 128 := if prefixLen = 0 then 0 else BitVec.allOnes 128 <<< (128 - prefixLen)
  addr &&& mask == network &&& mask

/-- `Ipv6Addr::to_ipv4`: the address embedded in `::a.b.c.d` or `::ffff:a.b.c.d`. -/
def toIpv4 (addr : BitVec 128) : Option (BitVec 32) :=
  let high := addr.toNat / 2 ^ 32
  if high = 0 ∨ high = 0xffff then some (addr.setWidth 32) else none

/-- The row of the IPv4 table that an address is in. -/
def findV4 (addr : BitVec 32) : Option DeniedPrefix :=
  ipv4Denied.find? fun p =>
    match p.network with
    | .v4 n => ipv4In addr n p.prefixLen
    | .v6 _ => false

/-- The first row of an IPv6 address. -/
def findV6 (addr : BitVec 128) : Option DeniedPrefix :=
  ipv6Denied.find? fun p =>
    match p.network with
    | .v4 _ => false
    | .v6 n => ipv6In addr n p.prefixLen

/-- `denied_by`. -/
def deniedBy : IpAddr → Option String
  | .v4 v4 => (findV4 v4).map (·.name)
  | .v6 v6 =>
    match findV6 v6 with
    | some hit => some hit.name
    | none =>
      match toIpv4 v6 with
      | some embedded => (findV4 embedded).map (·.name)
      | none => none

/-- `ResolveError`. -/
inductive ResolveError where
  | emptyOrOverLimit (name : String) (count : Nat)
  | denied (name : String) (addr : IpAddr) (reason : String)
deriving DecidableEq

/-- `MAX_ANSWERS`. -/
def maxAnswers : Nat := 8

/-- `validate_answer`. -/
def validateAnswer (name : String) (addrs : List IpAddr) : Except ResolveError IpAddr :=
  match addrs with
  | [] => .error (.emptyOrOverLimit name 0)
  | first :: _ =>
    if maxAnswers < addrs.length then .error (.emptyOrOverLimit name addrs.length)
    else
      match addrs.find? fun addr => (deniedBy addr).isSome with
      | some addr => .error (.denied name addr ((deniedBy addr).getD ""))
      | none => .ok first

end SuiId
