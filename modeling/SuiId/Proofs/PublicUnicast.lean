import SuiId.Core.Resolver

/-!
# Which addresses the federation reaches

`AddressClass` is the list of what is not an ordinary public unicast address, with the ranges of
each class in both families.  The two tables of the resolver cover the ranges of every class but
multicast, and nothing else: each row is inside one range and each range inside one row.
-/

namespace SuiId

open Lib

inductive AddressClass where
  | unspecified
  | loopback
  | privateUse
  | uniqueLocal
  | linkLocal
  | shared
  | documentation
  | benchmarking
  | reserved
  | broadcast
  | multicast
  /-- The other blocks of the two registries, and IPv4-compatible addresses. -/
  | special
deriving DecidableEq

/-- First and last addresses. -/
def rangesV4 : AddressClass → List (BitVec 32 × BitVec 32)
  | .unspecified => [(ipv4New 0 0 0 0, ipv4New 0 0 0 0)]
  | .loopback => [(ipv4New 127 0 0 0, ipv4New 127 255 255 255)]
  | .privateUse =>
    [(ipv4New 10 0 0 0, ipv4New 10 255 255 255), (ipv4New 172 16 0 0, ipv4New 172 31 255 255),
      (ipv4New 192 168 0 0, ipv4New 192 168 255 255)]
  | .uniqueLocal => []
  | .linkLocal => [(ipv4New 169 254 0 0, ipv4New 169 254 255 255)]
  | .shared => [(ipv4New 100 64 0 0, ipv4New 100 127 255 255)]
  | .documentation =>
    [(ipv4New 192 0 2 0, ipv4New 192 0 2 255), (ipv4New 198 51 100 0, ipv4New 198 51 100 255),
      (ipv4New 203 0 113 0, ipv4New 203 0 113 255)]
  | .benchmarking => [(ipv4New 198 18 0 0, ipv4New 198 19 255 255)]
  | .reserved => [(ipv4New 240 0 0 0, ipv4New 255 255 255 255)]
  | .broadcast => [(ipv4New 255 255 255 255, ipv4New 255 255 255 255)]
  | .multicast => [(ipv4New 224 0 0 0, ipv4New 239 255 255 255)]
  | .special =>
    [(ipv4New 0 0 0 0, ipv4New 0 255 255 255), (ipv4New 192 0 0 0, ipv4New 192 0 0 255),
      (ipv4New 192 31 196 0, ipv4New 192 31 196 255),
      (ipv4New 192 52 193 0, ipv4New 192 52 193 255),
      (ipv4New 192 88 99 0, ipv4New 192 88 99 255),
      (ipv4New 192 175 48 0, ipv4New 192 175 48 255)]

/-- The addresses whose first groups are given, from all zeros to all ones in the others. -/
def groupRange (first last : List Nat) : BitVec 128 × BitVec 128 :=
  (ipv6OfSegments (first ++ List.replicate (8 - first.length) 0),
    ipv6OfSegments (last ++ List.replicate (8 - last.length) 0xffff))

def rangesV6 : AddressClass → List (BitVec 128 × BitVec 128)
  | .unspecified => [(ipv6New 0 0 0 0 0 0 0 0, ipv6New 0 0 0 0 0 0 0 0)]
  | .loopback => [(ipv6New 0 0 0 0 0 0 0 1, ipv6New 0 0 0 0 0 0 0 1)]
  | .uniqueLocal => [groupRange [0xfc00] [0xfdff]]
  | .linkLocal => [groupRange [0xfe80] [0xfebf]]
  | .documentation =>
    [groupRange [0x2001, 0xdb8] [0x2001, 0xdb8], groupRange [0x3fff, 0] [0x3fff, 0x0fff]]
  | .benchmarking => [groupRange [0x2001, 2, 0] [0x2001, 2, 0]]
  | .multicast => [groupRange [0xff00] [0xffff]]
  | .special =>
    -- IPv4-compatible, IPv4-mapped, the translations, discard-only and dummy, protocol
    -- assignments, 6to4, AS112, segment routing
    [groupRange [0, 0, 0, 0, 0, 0] [0, 0, 0, 0, 0, 0],
      groupRange [0, 0, 0, 0, 0, 0xffff] [0, 0, 0, 0, 0, 0xffff],
      groupRange [0x64, 0xff9b, 0, 0, 0, 0] [0x64, 0xff9b, 0, 0, 0, 0],
      groupRange [0x64, 0xff9b, 1] [0x64, 0xff9b, 1],
      groupRange [0x100, 0, 0, 0] [0x100, 0, 0, 0], groupRange [0x100, 0, 0, 1] [0x100, 0, 0, 1],
      groupRange [0x2001, 0] [0x2001, 0x1ff], groupRange [0x2002] [0x2002],
      groupRange [0x2620, 0x4f, 0x8000] [0x2620, 0x4f, 0x8000], groupRange [0x5f00] [0x5f00]]
  | .privateUse | .shared | .reserved | .broadcast => []

/-- Between the ends of one of the ranges. -/
def InRanges {w : Nat} (ranges : List (BitVec w × BitVec w)) (x : BitVec w) : Prop :=
  ∃ r ∈ ranges, r.1.toNat ≤ x.toNat ∧ x.toNat ≤ r.2.toNat

instance {w : Nat} (ranges : List (BitVec w × BitVec w)) (x : BitVec w) :
    Decidable (InRanges ranges x) := inferInstanceAs (Decidable (∃ r ∈ ranges, _))

def IsOfClass (c : AddressClass) : IpAddr → Prop
  | .v4 a => InRanges (rangesV4 c) a
  | .v6 a => InRanges (rangesV6 c) a

/-- The address is not an ordinary public unicast address, or the IPv4 address embedded in it is
not. -/
def Refused (addr : IpAddr) : Prop :=
  (∃ c, IsOfClass c addr) ∨
    ∃ v6 embedded, addr = .v6 v6 ∧ toIpv4 v6 = some embedded ∧ ∃ c, IsOfClass c (.v4 embedded)

/-! ## The tables -/

section Tables

/-- The classes that the tables name. -/
def tabulated : List AddressClass :=
  [.unspecified, .loopback, .privateUse, .uniqueLocal, .linkLocal, .shared, .documentation,
    .benchmarking, .reserved, .broadcast, .special]

private theorem mem_tabulated (c : AddressClass) : c ∈ tabulated ↔ c ≠ .multicast := by
  cases c <;> decide

private def rowV4 (p : DeniedPrefix) : Option (BitVec 32 × Nat) :=
  match p.network with
  | .v4 n => some (n, p.prefixLen)
  | .v6 _ => none

private def rowV6 (p : DeniedPrefix) : Option (BitVec 128 × Nat) :=
  match p.network with
  | .v4 _ => none
  | .v6 n => some (n, p.prefixLen)

private theorem ipv4In_iff (a n : BitVec 32) (len : Nat) :
    ipv4In a n len = true ↔ a &&& Prefix.mask 32 len = n &&& Prefix.mask 32 len := by
  by_cases h : len = 0
  · rw [ipv4In, if_pos h, h, Prefix.mask_zero, beq_iff_eq]
  · rw [ipv4In, if_neg h, beq_iff_eq]
    rfl

private theorem ipv6In_iff (a n : BitVec 128) (len : Nat) :
    ipv6In a n len = true ↔ a &&& Prefix.mask 128 len = n &&& Prefix.mask 128 len := by
  by_cases h : len = 0
  · rw [ipv6In, if_pos h, h, Prefix.mask_zero, beq_iff_eq]
  · rw [ipv6In, if_neg h, beq_iff_eq]
    rfl

private theorem findV4_isSome (a : BitVec 32) : (findV4 a).isSome ↔
    ∃ r ∈ ipv4Denied.filterMap rowV4, a &&& Prefix.mask 32 r.2 = r.1 &&& Prefix.mask 32 r.2 := by
  rw [findV4, List.find?_isSome]
  constructor
  · rintro ⟨p, hp, hin⟩
    split at hin
    · rename_i n hn
      refine ⟨(n, p.prefixLen), List.mem_filterMap.mpr ⟨p, hp, ?_⟩, (ipv4In_iff _ _ _).mp hin⟩
      rw [rowV4, hn]
    · cases hin
  · rintro ⟨r, hr, hagree⟩
    obtain ⟨p, hp, hrow⟩ := List.mem_filterMap.mp hr
    refine ⟨p, hp, ?_⟩
    rw [rowV4] at hrow
    cases hn : p.network with
    | v4 n =>
      rw [hn] at hrow
      cases hrow
      exact (ipv4In_iff _ _ _).mpr hagree
    | v6 n =>
      rw [hn] at hrow
      cases hrow

private theorem findV6_isSome (a : BitVec 128) : (findV6 a).isSome ↔
    ∃ r ∈ ipv6Denied.filterMap rowV6, a &&& Prefix.mask 128 r.2 = r.1 &&& Prefix.mask 128 r.2 := by
  rw [findV6, List.find?_isSome]
  constructor
  · rintro ⟨p, hp, hin⟩
    split at hin
    · cases hin
    · rename_i n hn
      refine ⟨(n, p.prefixLen), List.mem_filterMap.mpr ⟨p, hp, ?_⟩, (ipv6In_iff _ _ _).mp hin⟩
      rw [rowV6, hn]
  · rintro ⟨r, hr, hagree⟩
    obtain ⟨p, hp, hrow⟩ := List.mem_filterMap.mp hr
    refine ⟨p, hp, ?_⟩
    rw [rowV6] at hrow
    cases hn : p.network with
    | v4 n =>
      rw [hn] at hrow
      cases hrow
    | v6 n =>
      rw [hn] at hrow
      cases hrow
      exact (ipv6In_iff _ _ _).mpr hagree

/-- The IPv4 table is the classes but multicast. -/
theorem findV4_isSome_iff (a : BitVec 32) :
    (findV4 a).isSome ↔ InRanges (tabulated.flatMap rangesV4) a := by
  rw [findV4_isSome]
  apply Prefix.exists_row_iff <;> decide +kernel

/-- The IPv6 table is the classes but multicast. -/
theorem findV6_isSome_iff (a : BitVec 128) :
    (findV6 a).isSome ↔ InRanges (tabulated.flatMap rangesV6) a := by
  rw [findV6_isSome]
  apply Prefix.exists_row_iff <;> decide +kernel

private theorem inRanges_flatMap {w : Nat} {ranges : AddressClass → List (BitVec w × BitVec w)}
    {x : BitVec w} : InRanges (tabulated.flatMap ranges) x ↔
      ∃ c, c ≠ .multicast ∧ InRanges (ranges c) x := by
  constructor
  · rintro ⟨r, hr, hin⟩
    obtain ⟨c, hc, hr⟩ := List.mem_flatMap.mp hr
    exact ⟨c, (mem_tabulated c).mp hc, r, hr, hin⟩
  · rintro ⟨c, hc, r, hr, hin⟩
    exact ⟨r, List.mem_flatMap.mpr ⟨c, (mem_tabulated c).mpr hc, hr⟩, hin⟩

/-- What has an IPv4 address embedded in it is in a row of its own. -/
private theorem special_of_toIpv4 {a : BitVec 128} {embedded : BitVec 32}
    (h : toIpv4 a = some embedded) : InRanges (rangesV6 .special) a := by
  obtain ⟨hhigh, -⟩ := Option.ite_none_right_eq_some.mp h
  rcases hhigh with hhigh | hhigh
  · refine ⟨groupRange [0, 0, 0, 0, 0, 0] [0, 0, 0, 0, 0, 0], by decide, ?_⟩
    have hlast : (groupRange [0, 0, 0, 0, 0, 0] [0, 0, 0, 0, 0, 0]).2.toNat = 0xffffffff := by
      decide
    have hfirst : (groupRange [0, 0, 0, 0, 0, 0] [0, 0, 0, 0, 0, 0]).1.toNat = 0 := by decide
    omega
  · refine ⟨groupRange [0, 0, 0, 0, 0, 0xffff] [0, 0, 0, 0, 0, 0xffff], by decide, ?_⟩
    have hlast : (groupRange [0, 0, 0, 0, 0, 0xffff] [0, 0, 0, 0, 0, 0xffff]).2.toNat =
        0xffffffffffff := by decide
    have hfirst : (groupRange [0, 0, 0, 0, 0, 0xffff] [0, 0, 0, 0, 0, 0xffff]).1.toNat =
        0xffff00000000 := by decide
    omega

theorem deniedBy_isSome_iff (addr : IpAddr) :
    (deniedBy addr).isSome ↔ ∃ c, c ≠ .multicast ∧ IsOfClass c addr := by
  cases addr with
  | v4 a => rw [deniedBy, Option.isSome_map, findV4_isSome_iff, inRanges_flatMap]; rfl
  | v6 a =>
    show _ ↔ ∃ c, c ≠ .multicast ∧ InRanges (rangesV6 c) a
    rw [← inRanges_flatMap, ← findV6_isSome_iff, deniedBy]
    cases hfind : findV6 a with
    | some hit => simp
    | none =>
      have hembedded : toIpv4 a = none := by
        by_contra hne
        obtain ⟨embedded, h⟩ := Option.ne_none_iff_exists'.mp hne
        have hrow := (findV6_isSome_iff a).mpr
          (inRanges_flatMap.mpr ⟨.special, by decide, special_of_toIpv4 h⟩)
        rw [hfind] at hrow
        cases hrow
      rw [hembedded]
      rfl

/-- The classes of the tables have no multicast address. -/
private theorem not_multicast {c : AddressClass} (hc : c ≠ .multicast) {addr : IpAddr}
    (h : IsOfClass c addr) : ¬ IsOfClass .multicast addr := by
  have hmem := (mem_tabulated c).mpr hc
  cases addr with
  | v4 a =>
    have hapart : (tabulated.all fun c => (rangesV4 c).all fun r =>
        (rangesV4 .multicast).all fun m =>
          r.2.toNat < m.1.toNat ∨ m.2.toNat < r.1.toNat) = true := by decide
    simp only [List.all_eq_true, decide_eq_true_eq] at hapart
    obtain ⟨r, hr, hfirst, hlast⟩ := h
    rintro ⟨m, hm, hfirst', hlast'⟩
    rcases hapart c hmem r hr m hm with hbelow | habove
    · omega
    · omega
  | v6 a =>
    have hapart : (tabulated.all fun c => (rangesV6 c).all fun r =>
        (rangesV6 .multicast).all fun m =>
          r.2.toNat < m.1.toNat ∨ m.2.toNat < r.1.toNat) = true := by decide
    simp only [List.all_eq_true, decide_eq_true_eq] at hapart
    obtain ⟨r, hr, hfirst, hlast⟩ := h
    rintro ⟨m, hm, hfirst', hlast'⟩
    rcases hapart c hmem r hr m hm with hbelow | habove
    · omega
    · omega

/-- The tables leave out multicast and nothing else. -/
theorem refused_iff (addr : IpAddr) :
    Refused addr ↔ (deniedBy addr).isSome ∨ IsOfClass .multicast addr := by
  rw [deniedBy_isSome_iff]
  constructor
  · rintro (⟨c, hc⟩ | ⟨v6, embedded, rfl, hembedded, -⟩)
    · by_cases hmulticast : c = .multicast
      · exact Or.inr (hmulticast ▸ hc)
      · exact Or.inl ⟨c, hmulticast, hc⟩
    · exact Or.inl ⟨.special, by decide, special_of_toIpv4 hembedded⟩
  · rintro (⟨c, -, hc⟩ | hmulticast)
    · exact Or.inl ⟨c, hc⟩
    · exact Or.inl ⟨.multicast, hmulticast⟩

theorem deniedBy_eq_none_iff (addr : IpAddr) :
    deniedBy addr = none ↔ ¬ Refused addr ∨ IsOfClass .multicast addr := by
  rw [refused_iff, ← Option.not_isSome_iff_eq_none]
  constructor
  · intro hnone
    by_cases hmulticast : IsOfClass .multicast addr
    · exact Or.inr hmulticast
    · exact Or.inl (not_or.mpr ⟨hnone, hmulticast⟩)
  · rintro (hpublic | hmulticast) hdenied
    · exact hpublic (Or.inl hdenied)
    · obtain ⟨c, hc, hclass⟩ := (deniedBy_isSome_iff addr).mp hdenied
      exact not_multicast hc hclass hmulticast

end Tables

/-! ## Answers -/

section Answers

variable {name : String} {addrs : List IpAddr} {a : IpAddr}

/-- One to eight addresses, none of which the tables deny. -/
theorem validateAnswer_ok : validateAnswer name addrs = .ok a ↔
    addrs.length ≤ 8 ∧ (∀ x ∈ addrs, deniedBy x = none) ∧ addrs.head? = some a := by
  unfold validateAnswer
  split
  · simp
  · rename_i first rest
    split
    · rename_i hlong
      have hnot : ¬ (first :: rest).length ≤ 8 := Nat.not_le.mpr hlong
      simp only [hnot, false_and, reduceCtorEq]
    · rename_i hshort
      have hle : (first :: rest).length ≤ 8 := Nat.not_lt.mp hshort
      split
      · rename_i addr hfind
        have hdenied := List.find?_some hfind
        have hmem := List.mem_of_find?_eq_some hfind
        refine iff_of_false (by simp) ?_
        rintro ⟨-, hnone, -⟩
        rw [hnone addr hmem] at hdenied
        cases hdenied
      · rename_i hfind
        have hnone : ∀ x ∈ first :: rest, deniedBy x = none := fun x hx =>
          Option.not_isSome_iff_eq_none.mp (List.find?_eq_none.mp hfind x hx)
        rw [List.head?_cons, Except.ok.injEq, Option.some.injEq]
        exact ⟨fun h => ⟨hle, hnone, h⟩, fun h => h.2.2⟩

/-- An answer is taken, with its first address, if and only if it is what it should be: unless
multicast addresses are all that is wrong with it. -/
theorem answer_taken_iff (name : String) (addrs : List IpAddr) :
    (∀ a, validateAnswer name addrs = .ok a ↔
      1 ≤ addrs.length ∧ addrs.length ≤ 8 ∧ (∀ x ∈ addrs, ¬ Refused x) ∧ addrs.head? = some a) ↔
    ¬ (addrs.length ≤ 8 ∧ (∀ x ∈ addrs, ¬ Refused x ∨ IsOfClass .multicast x) ∧
      ∃ x ∈ addrs, IsOfClass .multicast x) := by
  constructor
  · rintro hspec ⟨hle, hall, x, hx, hmulticast⟩
    have hnone : ∀ x ∈ addrs, deniedBy x = none := fun x hx =>
      (deniedBy_eq_none_iff x).mpr (hall x hx)
    cases haddrs : addrs with
    | nil =>
      rw [haddrs] at hx
      cases hx
    | cons first rest =>
      have hhead : addrs.head? = some first := by rw [haddrs, List.head?_cons]
      obtain ⟨-, -, hpublic, -⟩ := (hspec first).mp (validateAnswer_ok.mpr ⟨hle, hnone, hhead⟩)
      exact hpublic x hx (Or.inl ⟨.multicast, hmulticast⟩)
  · intro hnot a
    rw [validateAnswer_ok]
    constructor
    · rintro ⟨hle, hnone, hhead⟩
      refine ⟨?_, hle, fun x hx hrefused => ?_, hhead⟩
      · cases haddrs : addrs with
        | nil =>
          rw [haddrs] at hhead
          cases hhead
        | cons first rest => simp
      · rcases (deniedBy_eq_none_iff x).mp (hnone x hx) with hpublic | hmulticast
        · exact hpublic hrefused
        · exact hnot ⟨hle, fun y hy => (deniedBy_eq_none_iff y).mp (hnone y hy), x, hx, hmulticast⟩
    · rintro ⟨-, hle, hpublic, hhead⟩
      exact ⟨hle, fun x hx => (deniedBy_eq_none_iff x).mpr (Or.inl (hpublic x hx)), hhead⟩

/-- The all-hosts group is taken for an answer. -/
theorem multicast_answer_taken :
    ¬ ∀ a, validateAnswer "idp.example" [.v4 (ipv4New 224 0 0 1)] = .ok a ↔
      1 ≤ [IpAddr.v4 (ipv4New 224 0 0 1)].length ∧ [IpAddr.v4 (ipv4New 224 0 0 1)].length ≤ 8 ∧
        (∀ x ∈ [IpAddr.v4 (ipv4New 224 0 0 1)], ¬ Refused x) ∧
        [IpAddr.v4 (ipv4New 224 0 0 1)].head? = some a := by
  intro hspec
  have htaken : validateAnswer "idp.example" [.v4 (ipv4New 224 0 0 1)] =
      .ok (.v4 (ipv4New 224 0 0 1)) := by decide
  have hmulticast : InRanges (rangesV4 .multicast) (ipv4New 224 0 0 1) := by decide
  obtain ⟨-, -, hpublic, -⟩ := (hspec _).mp htaken
  exact hpublic _ (List.mem_singleton_self _) (Or.inl ⟨.multicast, hmulticast⟩)

end Answers

end SuiId
